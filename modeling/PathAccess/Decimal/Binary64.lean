/-!
# Binary floating-point numbers of 64 bits

The real numbers that a document can hold, as exact values `±m * 2 ^ q`, with the reading of a decimal
(the nearest number, a tie to the even one) and the shortest decimal that reads back. All arithmetic
is on natural numbers, so nothing here depends on the machine.
-/

namespace PathAccess

/-- A number of the 64-bit binary format. A finite one is normal (`2 ^ 52 ≤ mantissa`) or has the least
exponent, so two finite numbers with different fields differ, the two zeros apart. -/
inductive Binary64 where
  /-- The number `mantissa * 2 ^ exponent`, with a sign. -/
  | finite (negative : Bool) (mantissa : Nat) (exponent : Int)
  /-- An infinity. -/
  | infinite (negative : Bool)
  /-- The value that is no number. -/
  | nan
  deriving DecidableEq

namespace Binary64

/-- The least exponent of the format. -/
def minExponent : Int := -1074

/-- The largest exponent of the format. -/
def maxExponent : Int := 971

/-- A power of two. -/
def twoTo (k : Nat) : Nat := Nat.pow 2 k

/-- A power of ten. -/
def tenTo (k : Nat) : Nat := Nat.pow 10 k

/-- The quotient rounded to the nearest whole number, a tie to the even one. -/
def roundDiv (num den : Nat) : Nat :=
  let q := num / den
  let r := 2 * (num % den)
  if den < r || (r == den && q % 2 == 1) then q + 1 else q

/-- The number nearest to the positive fraction `num / den`. -/
def ofFraction (negative : Bool) (num den : Nat) : Binary64 :=
  let estimate : Int := (num.log2 : Int) - den.log2 - 53
  let scaled (q : Int) : Nat × Nat := (num * twoTo (-q).toNat, den * twoTo q.toNat)
  let (n, d) := scaled estimate
  -- the estimate is the right exponent or one too small
  let q := max minExponent (if n < d * twoTo 53 then estimate else estimate + 1)
  let (n, d) := scaled q
  let m := roundDiv n d
  let (m, q) := if m == twoTo 53 then (twoTo 52, q + 1) else (m, q)
  if maxExponent < q then .infinite negative else .finite negative m q

/-- The number nearest to `digits * 10 ^ exponent`. -/
def ofDecimal (negative : Bool) (digits : Nat) (exponent : Int) : Binary64 :=
  let magnitude : Int := (Nat.toDigits 10 digits).length + exponent
  if digits == 0 || magnitude < -330 then .finite negative 0 minExponent
  else if 310 < magnitude then .infinite negative
  else ofFraction negative (digits * tenTo exponent.toNat) (tenTo (-exponent).toNat)

/-- The whole number that `x` is, if it is one. -/
def toInt? : Binary64 → Option Int
  | .finite negative m q =>
    if m % twoTo (-q).toNat != 0 then none
    else
      let n : Nat := m * twoTo q.toNat / twoTo (-q).toNat
      some (if negative then -(n : Int) else n)
  | _ => none

/-- Whether two numbers are equal: the two zeros are, and `nan` is equal to nothing. -/
def equal : Binary64 → Binary64 → Bool
  | .finite s m q, .finite s' m' q' => (m == 0 && m' == 0) || (s == s' && m == m' && q == q')
  | .infinite s, .infinite s' => s == s'
  | _, _ => false

/-- The shortest decimal `digits * 10 ^ exponent` among those that read back as `m * 2 ^ q`, and of
several of that length the nearest, for `0 < m`. -/
def shortest (m : Nat) (q : Int) : Nat × Int :=
  let estimate := (((m.log2 : Int) + q) * 30103).fdiv 100000 + 1
  -- one unit is a quarter of the spacing at `m`, and `c * 10 ^ g` is `c * (scale g).1 / (scale g).2` units
  let scale (g : Int) : Nat × Nat :=
    (4 * tenTo g.toNat * twoTo (-q).toNat, tenTo (-g).toNat * twoTo q.toNat)
  let point := if (scale estimate).1 ≤ 4 * m * (scale estimate).2 then estimate + 1 else estimate
  let low := if m == twoTo 52 && minExponent < q then 4 * m - 1 else 4 * m - 2
  let readsBack (g : Int) (c : Nat) : Bool :=
    let (a, b) := scale g
    if m % 2 == 0 then low * b ≤ c * a && c * a ≤ (4 * m + 2) * b
    else low * b < c * a && c * a < (4 * m + 2) * b
  let candidate (length : Nat) : Option (Nat × Int) :=
    let g := point - length
    let (a, b) := scale g
    let below := 4 * m * b / a
    let remainder := 2 * (4 * m * b % a)
    let upward := a < remainder || (a == remainder && below % 2 == 1)
    let (first, second) := if upward then (below + 1, below) else (below, below + 1)
    let carried (c : Nat) : Nat × Int := if c == tenTo length then (c / 10, g + 1) else (c, g)
    if readsBack g first then some (carried first)
    else if readsBack g second then some (carried second) else none
  (((List.range 17).map (· + 1)).findSome? candidate).getD (m, q)

/-- Positional notation of `digits * 10 ^ exponent` with at least one place on either side of the point. -/
def positional (digits : List Char) (exponent : Int) : List Char :=
  if 0 ≤ exponent then digits ++ List.replicate exponent.toNat '0' ++ ['.', '0']
  else
    let places := (-exponent).toNat
    let padded := List.replicate (places + 1 - digits.length) '0' ++ digits
    padded.take (padded.length - places) ++ '.' :: padded.drop (padded.length - places)

/-- Scientific notation of `digits * 10 ^ exponent`; the exponent has a sign and at least two digits. -/
def scientific (digits : List Char) (exponent : Int) : List Char :=
  let e := exponent + digits.length - 1
  let power := Nat.toDigits 10 e.natAbs
  let fraction := match digits.drop 1 with
    | [] => []
    | rest => '.' :: rest
  digits.take 1 ++ fraction ++ 'e' :: (if e < 0 then '-' else '+')
    :: (if power.length < 2 then '0' :: power else power)

/-- The shortest decimal text that reads back: positional from `0.0001` up to, but without, `10 ^ 16`. -/
def text : Binary64 → String
  | .nan => "nan"
  | .infinite negative => if negative then "-inf" else "inf"
  | .finite negative m q =>
    let body :=
      if m == 0 then ['0', '.', '0']
      else
        let (digits, exponent) := shortest m q
        let cs := Nat.toDigits 10 digits
        let place := exponent + cs.length
        if -4 < place && place ≤ 16 then positional cs exponent else scientific cs exponent
    String.ofList (if negative then '-' :: body else body)

end Binary64

end PathAccess
