import PathAccess.Yaml.Chars
/-!
# Places in a text

A cursor is the rest of a text with the line and the column where it begins. Columns decide the structure of
a YAML text, and lines how far a key may be from its colon.
-/

namespace PathAccess.Yaml

/-- The rest of a text, and where it begins. -/
structure Cursor where
  /-- The characters that are left. -/
  rest : List Char
  /-- The number of lines before. -/
  line : Nat := 0
  /-- The number of characters before in the same line. -/
  column : Nat := 0
  /-- The number of characters before. -/
  index : Nat := 0

namespace Cursor

/-- The next character. -/
def peek? (c : Cursor) : Option Char :=
  c.rest.head?

/-- The character after the next `n`. -/
def peekAt? (c : Cursor) (n : Nat) : Option Char :=
  c.rest[n]?

/-- The cursor after the next character. A carriage return before a line feed ends no line, and a byte-order
mark takes no column. -/
def next (c : Cursor) : Cursor :=
  match c.rest with
  | [] => c
  | ch :: rest =>
    let endsLine := isBreak ch && !(ch == '\r' && rest.head? == some '\n')
    { rest, index := c.index + 1
      line := if endsLine then c.line + 1 else c.line
      column := if endsLine then 0 else if ch.toNat == 0xFEFF then c.column else c.column + 1 }

/-- The cursor after the next `n` characters. -/
def skip (c : Cursor) : Nat → Cursor
  | 0 => c
  | n + 1 => c.next.skip n

/-- The longest run of characters that satisfy `p`, and the cursor after it. -/
def span (c : Cursor) (p : Char → Bool) : List Char × Cursor :=
  let run := c.rest.takeWhile p
  (run, c.skip run.length)

/-- The cursor after all blanks. -/
def skipBlanks (c : Cursor) : Cursor :=
  (c.span (· == ' ')).2

/-- Reads a line break. A line feed stands for every break but the line and paragraph separators. -/
def lineBreak? (c : Cursor) : Option (Char × Cursor) :=
  match c.rest with
  | '\r' :: '\n' :: _ => some ('\n', c.skip 2)
  | ch :: _ =>
    if !isBreak ch then none
    else some (if ch.toNat == 0x2028 || ch.toNat == 0x2029 then ch else '\n', c.next)
  | [] => none

/-- Whether the cursor stands before one of the markers between documents. -/
def atMarker (c : Cursor) : Bool :=
  match c.rest with
  | x :: y :: z :: rest => x == y && y == z && (x == '-' || x == '.') && isGap rest.head?
  | _ => false

/-- The cursor after blanks and a comment, if the line ends there. -/
def skipComment? (c : Cursor) : Option Cursor :=
  let c := c.skipBlanks
  let c := if c.peek? == some '#' then (c.span (!isBreak ·)).2 else c
  if isLineEnd c.peek? then some c else none

end Cursor

end PathAccess.Yaml
