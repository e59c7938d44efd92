import PathAccess.Text.Quoted
import PathAccess.Value.Display
/-!
# JSON text

The two written forms of a value as JSON: in one line, with a blank after each comma and colon, and
indented by two blanks a level, where only an empty list or mapping stays on its line. Both are pure
ASCII: every other character is escaped by its UTF-16 units. Keys are always texts; a number, a truth
value or the absent value as a key is written as it would be as a value, between quotes.
-/

namespace PathAccess.Json

/-- The escape of one UTF-16 unit. -/
def unitEscape (n : Nat) : List Char :=
  '\\' :: 'u' :: Text.hexDigits 4 n

/-- The written form of one character of a text. -/
def escaped (c : Char) : List Char :=
  let n := c.toNat
  if c == '"' || c == '\\' then ['\\', c]
  else if c == '\n' then ['\\', 'n']
  else if c == '\r' then ['\\', 'r']
  else if c == '\t' then ['\\', 't']
  else if n == 0x08 then ['\\', 'b']
  else if n == 0x0C then ['\\', 'f']
  else if 0x20 ≤ n && n < 0x7F then [c]
  else if n < 0x10000 then unitEscape n
  else unitEscape (0xD800 + (n - 0x10000) / 0x400) ++ unitEscape (0xDC00 + (n - 0x10000) % 0x400)

/-- A text between quotes. -/
def quoted (s : String) : String :=
  String.ofList ('"' :: s.toList.flatMap escaped ++ ['"'])

/-- A number with a fraction. -/
def real : Binary64 → String
  | .nan => "NaN"
  | .infinite negative => if negative then "-Infinity" else "Infinity"
  | x => x.text

/-- A scalar without quotes around it. -/
def bare : Scalar → String
  | .null => "null"
  | .bool b => if b then "true" else "false"
  | .int n => toString n
  | .real x => real x
  | s => s.plain

/-- A scalar. -/
def scalar (s : Scalar) : String :=
  match s with
  | .text _ | .date _ | .moment _ => quoted s.plain
  | s => bare s

/-- A key, which is always a text. -/
def key (k : Scalar) : String :=
  quoted (bare k)

mutual

/-- A value in one line. -/
def line : Value → String
  | .scalar s => scalar s
  | .list xs => "[" ++ ", ".intercalate (lineItems xs) ++ "]"
  | .map es => "\x7b" ++ ", ".intercalate (lineEntries es) ++ "\x7d"

/-- The elements of a list, each in one line. -/
def lineItems : List Value → List String
  | [] => []
  | x :: xs => line x :: lineItems xs

/-- The entries of a mapping, each in one line. -/
def lineEntries : List (Scalar × Value) → List String
  | [] => []
  | (k, v) :: es => (key k ++ ": " ++ line v) :: lineEntries es

end

/-- A line break and the indentation of a level. -/
def newline (level : Nat) : String :=
  String.ofList ('\n' :: List.replicate (2 * level) ' ')

/-- Parts between two brackets, each on a line of its own. -/
def block (level : Nat) (opening closing : String) : List String → String
  | [] => opening ++ closing
  | parts =>
    opening ++ newline (level + 1) ++ ("," ++ newline (level + 1)).intercalate parts
      ++ newline level ++ closing

mutual

/-- A value on lines of its own, with the indentation of a level. -/
def indented (level : Nat) : Value → String
  | .scalar s => scalar s
  | .list xs => block level "[" "]" (indentedItems (level + 1) xs)
  | .map es => block level "\x7b" "\x7d" (indentedEntries (level + 1) es)

/-- The elements of a list. -/
def indentedItems (level : Nat) : List Value → List String
  | [] => []
  | x :: xs => indented level x :: indentedItems level xs

/-- The entries of a mapping. -/
def indentedEntries (level : Nat) : List (Scalar × Value) → List String
  | [] => []
  | (k, v) :: es => (key k ++ ": " ++ indented level v) :: indentedEntries level es

end

end PathAccess.Json
