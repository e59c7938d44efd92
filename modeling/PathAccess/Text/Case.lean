import PathAccess.Text.CaseTable
/-!
# Letter case

Lower case, upper case and the test for an upper-case character, over the whole character set. The
mappings look at one character at a time, so a capital sigma always has the same lower case.
-/

namespace PathAccess.Text

/-- Whether a code point lies in one of the ranges. -/
def inRanges (ranges : List (Nat × Nat)) (n : Nat) : Bool :=
  ranges.any fun (first, last) => first ≤ n && n ≤ last

/-- The image of a character under a case mapping that is given by rows and special cases. -/
def mapByRows (rows : List (Nat × Nat × Nat × Int)) (specials : List (Nat × List Nat)) (c : Char) :
    List Char :=
  let n := c.toNat
  match specials.find? (·.1 == n) with
  | some (_, image) => image.map Char.ofNat
  | none =>
    match rows.find? fun (first, last, stride, _) =>
        first ≤ n && n ≤ last && (n - first) % stride == 0 with
    | some (_, _, _, shift) => [Char.ofNat (n + shift).toNat]
    | none => [c]

/-- The lower case of one character. -/
def lowerChar (c : Char) : List Char :=
  if c.toNat < 0x80 then [c.toLower] else mapByRows lowerRows lowerSpecials c

/-- The upper case of one character. -/
def upperChar (c : Char) : List Char :=
  if c.toNat < 0x80 then [c.toUpper] else mapByRows upperRows upperSpecials c

/-- The text in lower case. -/
def lower (s : String) : String :=
  String.ofList (s.toList.flatMap lowerChar)

/-- The text in upper case. -/
def upper (s : String) : String :=
  String.ofList (s.toList.flatMap upperChar)

/-- Whether `c` is an upper-case character; a character in title case is none. -/
def isUpper (c : Char) : Bool :=
  if c.toNat < 0x80 then c.isUpper else inRanges uppercaseRanges c.toNat

end PathAccess.Text
