import PathAccess.Yaml.Error
import PathAccess.Yaml.Token.Cursor
/-!
# Scalars in a text

How the text of a scalar is read in each style: plain, between single or double quotes, and as a block whose
lines are kept or folded. A line break between two words is a blank, and further breaks after it are kept.
Each loop is given the number of characters that are left, and each of its steps takes at least one.
-/

namespace PathAccess.Yaml

/-- What a break between two lines stands for, with the breaks after it. -/
def foldedBreaks (first : Char) (more : List Char) : List Char :=
  (if first != '\n' then [first] else if more.isEmpty then [' '] else []) ++ more

/-! ### Plain scalars -/

/-- The characters of a plain scalar up to a gap, a colon before a gap, or inside brackets a bracket or a
comma. -/
def plainRun (inFlow : Bool) : List Char → List Char
  | [] => []
  | c :: cs =>
    let closes (next : Option Char) : Bool := isGap next || (inFlow && next.any ",[]\x7b\x7d".toList.contains)
    if isGap (some c) || (c == ':' && closes cs.head?) || (inFlow && ",?[]\x7b\x7d".toList.contains c) then []
    else c :: plainRun inFlow cs

/-- Breaks and blanks up to the next word or marker: the breaks, and whether it is a marker. -/
def blankLines (fuel : Nat) (breaks : List Char) (c : Cursor) : List Char × Bool × Cursor :=
  match fuel with
  | 0 => (breaks, false, c)
  | fuel + 1 =>
    if c.peek? == some ' ' then blankLines fuel breaks c.next
    else
      match c.lineBreak? with
      | none => (breaks, false, c)
      | some (b, c) =>
        if c.atMarker then (breaks ++ [b], true, c) else blankLines fuel (breaks ++ [b]) c

/-- The gap after a run of a plain scalar: what it stands for if the scalar goes on, empty if it cannot, and
whether it holds a line break. -/
def plainGap (c : Cursor) : List Char × Bool × Cursor :=
  let (blanks, c) := c.span (· == ' ')
  match c.lineBreak? with
  | none => (blanks, false, c)
  | some (first, c) =>
    if c.atMarker then ([], true, c)
    else
      let (breaks, isMarker, c) := blankLines c.rest.length [] c
      (if isMarker then [] else foldedBreaks first breaks, true, c)

/-- Reads a plain scalar onto what was read of it, with the gap before its next run. Gives its text, and
whether a line ended after its last run. -/
def plainScalar (inFlow : Bool) (indent : Int) (fuel : Nat) (read gap : List Char) (endsLine : Bool)
    (c : Cursor) : List Char × Bool × Cursor :=
  match fuel with
  | 0 => (read, endsLine, c)
  | fuel + 1 =>
    let run := plainRun inFlow c.rest
    if c.peek? == some '#' || run.isEmpty then (read, endsLine, c)
    else
      let read := read ++ gap ++ run
      let (gap, endsLine, c) := plainGap (c.skip run.length)
      if gap.isEmpty || c.peek? == some '#' || (!inFlow && (c.column : Int) < indent) then
        (read, endsLine, c)
      else plainScalar inFlow indent fuel read gap endsLine c

/-! ### Quoted scalars -/

/-- The characters of the escapes of one letter. -/
def escapeLetters : List (Char × Nat) := [
  ('0', 0x00), ('a', 0x07), ('b', 0x08), ('t', 0x09), ('\t', 0x09), ('n', 0x0A), ('v', 0x0B), ('f', 0x0C),
  ('r', 0x0D), ('e', 0x1B), (' ', 0x20), ('"', 0x22), ('\\', 0x5C), ('/', 0x2F), ('N', 0x85), ('_', 0xA0),
  ('L', 0x2028), ('P', 0x2029)]

/-- The number of hexadecimal digits after a letter. -/
def escapeWidth? (c : Char) : Option Nat :=
  if c == 'x' then some 2 else if c == 'u' then some 4 else if c == 'U' then some 8 else none

/-- The character of hexadecimal digits. -/
def hexChar? (ds : List Char) : Option Char :=
  let value (c : Char) : Option Nat :=
    if c.isDigit then some (c.toNat - 48)
    else if 'a' ≤ c ∧ c ≤ 'f' then some (c.toNat - 87)
    else if 'A' ≤ c ∧ c ≤ 'F' then some (c.toNat - 55)
    else none
  (ds.mapM value).bind fun vs =>
    let n := vs.foldl (fun n v => 16 * n + v) 0
    if h : n.isValidChar then some (Char.ofNatAux n h) else none

/-- The breaks of the lines between two lines of a quoted scalar. -/
def quotedBreaks (fuel : Nat) (breaks : List Char) (c : Cursor) : Except Fault (List Char × Cursor) :=
  match fuel with
  | 0 => .ok (breaks, c)
  | fuel + 1 =>
    if c.atMarker then .error .unclosedQuote
    else
      let (_, c) := c.span fun ch => ch == ' ' || ch == '\t'
      match c.lineBreak? with
      | none => .ok (breaks, c)
      | some (b, c) => quotedBreaks fuel (breaks ++ [b]) c

/-- Reads what follows a backslash between double quotes. -/
def escape (c : Cursor) : Except Fault (List Char × Cursor) :=
  match c.peek? with
  | none => .error .badEscape
  | some ch =>
    match escapeLetters.find? (·.1 == ch), escapeWidth? ch, c.lineBreak? with
    | some (_, n), _, _ => .ok ([Char.ofNat n], c.next)
    | none, some w, _ =>
      let ds := c.next.rest.take w
      match if ds.length == w then hexChar? ds else none with
      | some ch => .ok ([ch], c.next.skip w)
      | none => .error .badEscape
    | none, none, some (_, c) => quotedBreaks c.rest.length [] c
    | none, none, none => .error .badEscape

/-- Reads a quoted scalar after its first quote onto what was read of it. -/
def quotedScalar (isDouble : Bool) (fuel : Nat) (read : List Char) (c : Cursor) :
    Except Fault (List Char × Cursor) :=
  match fuel, c.peek? with
  | 0, _ | _, none => .error .unclosedQuote
  | fuel + 1, some ch =>
    if ch == '\'' && !isDouble && c.peekAt? 1 == some '\'' then
      quotedScalar isDouble fuel (read ++ ['\'']) (c.skip 2)
    else if ch == (if isDouble then '"' else '\'') then .ok (read, c.next)
    else if ch == '\\' && isDouble then do
      let (escaped, c) ← escape c.next
      quotedScalar isDouble fuel (read ++ escaped) c
    else if isGap (some ch) then
      let (blanks, c) := c.span fun ch => ch == ' ' || ch == '\t'
      match c.lineBreak? with
      | none =>
        if c.rest.isEmpty then .error .unclosedQuote else quotedScalar isDouble fuel (read ++ blanks) c
      | some (first, c) => do
        let (breaks, c) ← quotedBreaks (c.rest.length + 1) [] c
        quotedScalar isDouble fuel (read ++ foldedBreaks first breaks) c
    else quotedScalar isDouble fuel (read ++ [ch]) c.next

/-! ### Blocks of text -/

/-- How the breaks at the end of a block are kept. -/
inductive Chomping where
  /-- One of them. -/
  | clip
  /-- None. -/
  | strip
  /-- All. -/
  | keep
  deriving DecidableEq

/-- The chomping of an indicator. -/
def Chomping.ofChar? (c : Char) : Option Chomping :=
  if c == '+' then some .keep else if c == '-' then some .strip else none

/-- The indentation of an indicator. -/
def indentation? (c : Char) : Option Nat :=
  if c.isDigit then some (c.toNat - 48) else none

/-- Reads the head of a block: a chomping and an indentation, in any order, and the end of the line. -/
def blockHeader (c : Cursor) : Except Fault (Chomping × Option Nat × Cursor) :=
  let first := c.peek?
  let second := c.peekAt? 1
  let (chomping, indent, n) := match first.bind Chomping.ofChar?, first.bind indentation? with
    | some k, _ =>
      match second.bind indentation? with
      | some i => (k, some i, 2)
      | none => (k, none, 1)
    | none, some i =>
      match second.bind Chomping.ofChar? with
      | some k => (k, some i, 2)
      | none => (.clip, some i, 1)
    | none, none => (Chomping.clip, none, 0)
  let c := c.skip n
  if indent == some 0 || c.peek? == some '\t' || !isGap c.peek? then .error .badBlockHeader
  else
    match c.skipComment? with
    | some c => .ok (chomping, indent, ((c.lineBreak?).map (·.2)).getD c)
    | none => .error .badBlockHeader

/-- The empty lines in front of a block without an indentation of its own, and the largest column that their
blanks reach. -/
def leadingLines (fuel : Nat) (breaks : List Char) (deepest : Nat) (c : Cursor) :
    List Char × Nat × Cursor :=
  match fuel with
  | 0 => (breaks, deepest, c)
  | fuel + 1 =>
    if c.peek? == some ' ' then leadingLines fuel breaks (max deepest c.next.column) c.next
    else
      match c.lineBreak? with
      | some (b, c) => leadingLines fuel (breaks ++ [b]) deepest c
      | none => (breaks, deepest, c)

/-- Skips blanks up to a column. -/
def skipTo (indent : Nat) (c : Cursor) : Cursor :=
  c.skip (min (indent - c.column) (c.rest.takeWhile (· == ' ')).length)

/-- The empty lines before the next line of a block. -/
def emptyLines (indent : Nat) (fuel : Nat) (breaks : List Char) (c : Cursor) : List Char × Cursor :=
  match fuel, (skipTo indent c).lineBreak? with
  | fuel + 1, some (b, c) => emptyLines indent fuel (breaks ++ [b]) c
  | _, _ => (breaks, skipTo indent c)

/-- The lines of a block from the next one on, after the empty lines in front of it. -/
def blockLines (isFolded : Bool) (chomping : Chomping) (indent fuel : Nat) (breaks : List Char) (c : Cursor) :
    List Char × Cursor :=
  match fuel with
  | 0 => ([], c)
  | fuel + 1 =>
    if c.column != indent || c.rest.isEmpty then
      (if chomping == .keep then breaks else [], c)
    else
      let isText (c? : Option Char) : Bool := c?.all fun ch => ch != ' ' && ch != '\t'
      let startsText := isText c.peek?
      let (line, c) := c.span (!isBreak ·)
      let (ending, c) := match c.lineBreak? with
        | some (b, c) => ([b], c)
        | none => ([], c)
      let (more, c) := emptyLines indent c.rest.length [] c
      if c.column == indent && !c.rest.isEmpty then
        let glue :=
          if isFolded && ending == ['\n'] && startsText && isText c.peek? then
            (if more.isEmpty then [' '] else [])
          else ending
        let (rest, c) := blockLines isFolded chomping indent fuel more c
        (breaks ++ line ++ glue ++ rest, c)
      else
        (breaks ++ line ++ (if chomping == .strip then [] else ending)
          ++ (if chomping == .keep then more else []), c)

/-- Reads a block after its indicator. It is indented deeper than what it belongs to. -/
def blockScalar (isFolded : Bool) (parent : Int) (c : Cursor) : Except Fault (List Char × Cursor) := do
  let (chomping, indent?, c) ← blockHeader c
  let least := (max 1 (parent + 1)).toNat
  let (indent, breaks, c) := match indent? with
    | some i =>
      let indent := least + i - 1
      let (breaks, c) := emptyLines indent c.rest.length [] c
      (indent, breaks, c)
    | none =>
      let (breaks, deepest, c) := leadingLines c.rest.length [] 0 c
      (max least deepest, breaks, c)
  return blockLines isFolded chomping indent (c.rest.length + 1) breaks c

end PathAccess.Yaml
