import PathAccess.Text.DigitTable
/-!
# Integer numerals

A numeral is an optional sign and decimal digits of any script; single underscores may separate
digits.
-/

namespace PathAccess.Text

/-- The value of a decimal digit of any script. -/
def digit? (c : Char) : Option Nat :=
  (zeroDigits.find? fun z => z ≤ c.toNat && c.toNat < z + 10).map (c.toNat - ·)

/-- Reads digits with single underscores between them onto the value read so far. -/
def digits? (value : Nat) : List Char → Option Nat
  | [] => some value
  | '_' :: c :: cs => (digit? c).bind fun d => digits? (10 * value + d) cs
  | c :: cs => (digit? c).bind fun d => digits? (10 * value + d) cs

/-- Reads an unsigned numeral, which begins with a digit. -/
def nat? : List Char → Option Nat
  | [] => none
  | c :: cs => (digit? c).bind fun d => digits? d cs

/-- Reads a numeral with an optional sign. -/
def int? (s : String) : Option Int :=
  match s.toList with
  | '-' :: cs => (nat? cs).map fun n => -(n : Int)
  | '+' :: cs => (nat? cs).map fun n => (n : Int)
  | cs => (nat? cs).map fun n => (n : Int)

end PathAccess.Text
