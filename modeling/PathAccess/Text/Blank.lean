/-!
# White space

The characters that separate words in any script, and the removal of white space at both ends of a
text. Everything is stated over lists of characters; the functions on `String` only convert.
-/

namespace PathAccess.Text

/-- Whether `c` is white space: a space of any width, a line or paragraph separator, a tab, or one of
the control characters that end a line, a page, a file, a group, a record or a unit. -/
def isBlank (c : Char) : Bool :=
  let n := c.toNat
  (0x09 ≤ n && n ≤ 0x0D) || (0x1C ≤ n && n ≤ 0x20) || n == 0x85 || n == 0xA0 || n == 0x1680
    || (0x2000 ≤ n && n ≤ 0x200A) || n == 0x2028 || n == 0x2029 || n == 0x202F || n == 0x205F
    || n == 0x3000

/-- The characters without those at either end that satisfy `p`. -/
def trimBoth (p : Char → Bool) (cs : List Char) : List Char :=
  ((cs.dropWhile p).reverse.dropWhile p).reverse

/-- The text without white space at its ends. -/
def strip (s : String) : String :=
  String.ofList (trimBoth isBlank s.toList)

/-- The text without the given character at its ends. -/
def stripChar (c : Char) (s : String) : String :=
  String.ofList (trimBoth (· == c) s.toList)

/-- The parts of a text between the occurrences of a character; one more part than occurrences. -/
def splitAt (c : Char) (s : String) : List String :=
  (go [] s.toList).map String.ofList
where
  /-- Collects the current part, reversed, in `part`. -/
  go (part : List Char) : List Char → List (List Char)
    | [] => [part.reverse]
    | d :: cs => if d == c then part.reverse :: go [] cs else go (d :: part) cs

end PathAccess.Text
