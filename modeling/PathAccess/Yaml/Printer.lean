import PathAccess.Text.Quoted
import PathAccess.Value.Display
import PathAccess.Yaml.Chars
import PathAccess.Yaml.Plain
/-!
# Writing YAML

A value is written in block style: each entry of a mapping and each element of a list on a line of its own,
two blanks of indentation a level, and a list inside a mapping as deep as its key. Only an empty mapping or
list is written in brackets.

A text is written plain if it is read back as that text, else between single quotes if these can hold it,
else between double quotes with escapes. A text that is no key is broken at a blank beyond column 80. A key
that is empty, long or of several lines stands after a question mark on a line of its own.
-/

namespace PathAccess.Yaml

/-- The column beyond which a text is broken. -/
def bestWidth : Nat := 80

/-! ### Which style a text needs -/

/-- Whether `c` ends a line inside a text; a carriage return does not, and needs an escape. -/
def isTextBreak (c : Char) : Bool :=
  c != '\r' && isBreak c

/-- Whether `c` needs an escape. Characters beyond ASCII need none if they are allowed. -/
def isSpecial (unicode : Bool) (c : Char) : Bool :=
  let n := c.toNat
  let printed := n == 0x85 || (0xA0 ≤ n && n ≤ 0xFFFD) || (0x10000 ≤ n && n < 0x10FFFF)
  !(c == '\n' || (0x20 ≤ n && n ≤ 0x7E)) && !(unicode && printed && n != 0xFEFF)

/-- Whether a text holds two neighbours with the first `p` and the second `q`. -/
def hasPair (p q : Char → Bool) (cs : List Char) : Bool :=
  (cs.zip (cs.drop 1)).any fun (c, d) => p c && q d

/-- Whether a text begins like a marker between documents. -/
def beginsLikeMarker (cs : List Char) : Bool :=
  ['-', '-', '-'].isPrefixOf cs || ['.', '.', '.'].isPrefixOf cs

/-- Whether the first character of a text, before a next one, would be read as an indicator. -/
def isLeadingIndicator (c : Char) (next : Option Char) : Bool :=
  "#,[]\x7b\x7d&*!|>'\"%@\x60".toList.contains c || ("?:-".toList.contains c && isGap next)

/-- Whether a text holds a colon before a gap, or a number sign after one. -/
def hasInnerIndicator (cs : List Char) : Bool :=
  hasPair (fun c => isGap (some c)) (· == '#') cs || hasPair (· == ':') (fun c => isGap (some c)) cs
    || cs.getLast? == some ':'

/-- Whether a text would be read as more or less than a plain scalar. -/
def hasIndicators (cs : List Char) : Bool :=
  beginsLikeMarker cs || (cs.head?.any fun c => isLeadingIndicator c (cs.drop 1).head?)
    || hasInnerIndicator cs

/-- Whether a text can only be written with escapes: for a special character, or for a blank beside a
break. -/
def needsEscapes (unicode : Bool) (cs : List Char) : Bool :=
  cs.any (isSpecial unicode) || hasPair (· == ' ') isTextBreak cs || hasPair isTextBreak (· == ' ') cs

/-- Whether a text can be written plain. -/
def canBePlain (unicode : Bool) (cs : List Char) : Bool :=
  let atEnd (c : Char) : Bool := c == ' '
  isPlainText (String.ofList cs) && !cs.any isTextBreak && !cs.head?.any atEnd && !cs.getLast?.any atEnd
    && !hasIndicators cs && !needsEscapes unicode cs

/-! ### Writing a text -/

/-- A line break and the indentation of the next line. -/
def nextLine (indent : Nat) : List Char :=
  '\n' :: List.replicate indent ' '

/-- The longest runs of blanks, of breaks and of other characters. -/
def runs (cs : List Char) : List (List Char) :=
  let kind (c : Char) : Nat := if c == ' ' then 0 else if isTextBreak c then 1 else 2
  cs.splitBy fun a b => kind a == kind b

/-- Breaks inside a text: each line feed is a line break, and one more in front of several or before a
word. -/
def writtenBreaks (indent : Nat) (run : List Char) : List Char :=
  (if run.head? == some '\n' then ['\n'] else []) ++ run ++ List.replicate indent ' '

/-- The runs of a text from a column on. A single blank between words beyond the best width becomes a line
break if the text may be broken. -/
def writtenRuns (breakable : Bool) (indent column : Nat) : List (List Char) → List Char
  | [] => []
  | run :: rest =>
    if run.head?.any isTextBreak then
      writtenBreaks indent run ++ writtenRuns breakable indent indent rest
    else if run == [' '] && breakable && bestWidth < column && !rest.isEmpty then
      nextLine indent ++ writtenRuns breakable indent indent rest
    else
      (run.flatMap fun c => if c == '\'' then ['\'', '\''] else [c])
        ++ writtenRuns breakable indent (column + run.length + run.count '\'') rest

/-- A text between single quotes. A blank in front is never broken. -/
def singleQuoted (breakable : Bool) (indent column : Nat) (cs : List Char) : List Char :=
  let written := match runs cs with
    | run :: rest =>
      if run == [' '] then ' ' :: writtenRuns breakable indent (column + 2) rest
      else writtenRuns breakable indent (column + 1) (run :: rest)
    | [] => []
  '\'' :: written ++ ['\'']

/-- A plain text; it holds no quote in front and no breaks, but may hold quotes inside. -/
def plainRuns (breakable : Bool) (indent column : Nat) : List (List Char) → List Char
  | [] => []
  | run :: rest =>
    if run == [' '] && breakable && bestWidth < column then
      nextLine indent ++ plainRuns breakable indent indent rest
    else run ++ plainRuns breakable indent (column + run.length) rest

/-- The letters of the short escapes. -/
def shortEscapes : List (Nat × Char) := [
  (0x00, '0'), (0x07, 'a'), (0x08, 'b'), (0x09, 't'), (0x0A, 'n'), (0x0B, 'v'), (0x0C, 'f'), (0x0D, 'r'),
  (0x1B, 'e'), (0x22, '"'), (0x5C, '\\'), (0x85, 'N'), (0xA0, '_'), (0x2028, 'L'), (0x2029, 'P')]

/-- Hexadecimal digits in upper case. -/
def upperHex (width n : Nat) : List Char :=
  (Text.hexDigits width n).map Char.toUpper

/-- The escape of a character. -/
def escapeOf (c : Char) : List Char :=
  let n := c.toNat
  match shortEscapes.find? (·.1 == n) with
  | some (_, letter) => ['\\', letter]
  | none =>
    if n ≤ 0xFF then '\\' :: 'x' :: upperHex 2 n
    else if n ≤ 0xFFFF then '\\' :: 'u' :: upperHex 4 n
    else '\\' :: 'U' :: upperHex 8 n

/-- Whether a character is escaped between double quotes. -/
def isEscaped (unicode : Bool) (c : Char) : Bool :=
  let n := c.toNat
  c == '"' || c == '\\' || n == 0x85 || n == 0x2028 || n == 0x2029 || n == 0xFEFF
    || !((0x20 ≤ n && n ≤ 0x7E) || (unicode && 0xA0 ≤ n && n ≤ 0xFFFD))

/-- The inside of a text between double quotes, from a column on. A line that has grown too long ends in a
backslash, before a blank or next to an escape but not beside the quotes; a blank at the beginning of a line
has a backslash in front. -/
def doubleRun (unicode breakable : Bool) (indent column : Nat) (first afterEscape : Bool) :
    List Char → List Char
  | [] => []
  | c :: rest =>
    let inner := breakable && !first && !rest.isEmpty
    if isEscaped unicode c then
      let escape := escapeOf c
      let column := column + escape.length
      if inner && bestWidth + 1 < column then
        let guarded := rest.head? == some ' '
        escape ++ '\\' :: nextLine indent ++ (if guarded then ['\\'] else [])
          ++ doubleRun unicode breakable indent (if guarded then indent + 1 else indent) false true rest
      else escape ++ doubleRun unicode breakable indent column false true rest
    else if inner && (c == ' ' || afterEscape) && bestWidth < column then
      let guarded := c == ' '
      '\\' :: nextLine indent ++ (if guarded then ['\\', c] else [c])
        ++ doubleRun unicode breakable indent (if guarded then indent + 2 else indent + 1) false false rest
    else c :: doubleRun unicode breakable indent (column + 1) false false rest

/-- A text between double quotes. -/
def doubleQuoted (unicode breakable : Bool) (indent column : Nat) (cs : List Char) : List Char :=
  '"' :: doubleRun unicode breakable indent (column + 1) true false cs ++ ['"']

/-- A text from a column on, as a key on its line or as a text that may be broken, with the indentation of
further lines. -/
def textAt (unicode isKey : Bool) (indent column : Nat) (s : String) : List Char :=
  let cs := s.toList
  if canBePlain unicode cs then plainRuns (!isKey) indent column (runs cs)
  else if !needsEscapes unicode cs then singleQuoted (!isKey) indent column cs
  else doubleQuoted unicode (!isKey) indent column cs

/-! ### Writing a value -/

/-- A number with a fraction; an exponent follows a point. -/
def realText (x : Binary64) : String :=
  match x with
  | .nan => ".nan"
  | .infinite negative => if negative then "-.inf" else ".inf"
  | x =>
    let cs := x.text.toList
    if cs.contains 'e' && !cs.contains '.' then
      String.ofList (cs.takeWhile (· != 'e') ++ '.' :: '0' :: cs.dropWhile (· != 'e'))
    else x.text

/-- A scalar from a column on. -/
def scalarAt (unicode isKey : Bool) (indent column : Nat) : Scalar → List Char
  | .text s => textAt unicode isKey indent column s
  | .null => "null".toList
  | .bool b => (if b then "true" else "false").toList
  | .real x => (realText x).toList
  | s => s.plain.toList

/-- Whether a key stands on one line with its value. -/
def isSimpleKey : Scalar → Bool
  | .text s => !s.isEmpty && s.length < 123 && !s.toList.any isTextBreak
  | _ => true

/-- A key with the mark before its value, and the column where the value begins. -/
def keyAt (unicode : Bool) (indent : Nat) (k : Scalar) : List Char × Option Nat :=
  if isSimpleKey k then
    let written := scalarAt unicode true (indent + 2) indent k
    (written ++ [':', ' '], some (indent + written.length + 2))
  else
    ('?' :: ' ' :: scalarAt unicode false (indent + 2) (indent + 2) k ++ nextLine indent ++ [':', ' '], none)

mutual

/-- A value after the mark of a key: a scalar on the same line, a mapping deeper on the next line, a list as
deep as the key. Without a column the mark stands alone, and the value follows as after a hyphen. -/
def valueAt (unicode : Bool) (indent : Nat) (column : Option Nat) : Value → List Char
  | .scalar s => scalarAt unicode false (indent + 2) (column.getD (indent + 2)) s
  | .list [] => ['[', ']']
  | .map [] => ['\x7b', '\x7d']
  | .list xs =>
    if column.isSome then nextLine indent ++ itemsAt unicode indent xs
    else itemsAt unicode (indent + 2) xs
  | .map es =>
    if column.isSome then nextLine (indent + 2) ++ entriesAt unicode (indent + 2) es
    else entriesAt unicode (indent + 2) es

/-- The elements of a list, from the second on after a line break. -/
def itemsAt (unicode : Bool) (indent : Nat) : List Value → List Char
  | [] => []
  | x :: xs =>
    '-' :: ' ' :: valueAt unicode indent none x
      ++ (if xs.isEmpty then [] else nextLine indent ++ itemsAt unicode indent xs)

/-- The entries of a mapping, from the second on after a line break. -/
def entriesAt (unicode : Bool) (indent : Nat) : List (Scalar × Value) → List Char
  | [] => []
  | (k, v) :: es =>
    let (key, column) := keyAt unicode indent k
    -- a mark at the end of its line has no blank after it
    let key := match column, v with
      | some _, .list (_ :: _) => key.dropLast
      | some _, .map (_ :: _) => key.dropLast
      | _, _ => key
    key ++ valueAt unicode indent column v
      ++ (if es.isEmpty then [] else nextLine indent ++ entriesAt unicode indent es)

end

/-- The YAML text of a value, with characters beyond ASCII as they are or as escapes. -/
def print (unicode : Bool) : Value → String
  | .map [] => "\x7b\x7d\n"
  | .list [] => "[]\n"
  | .map es => String.ofList (entriesAt unicode 0 es ++ ['\n'])
  | .list xs => String.ofList (itemsAt unicode 0 xs ++ ['\n'])
  | .scalar s => String.ofList (scalarAt unicode false 2 0 s ++ ['\n'])

end PathAccess.Yaml
