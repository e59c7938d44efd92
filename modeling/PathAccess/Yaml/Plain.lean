import PathAccess.Text.Blank
import PathAccess.Value.Basic
/-!
# Plain scalars

What a scalar without quotes stands for in YAML 1.1. The rules are tried in a fixed order, and a scalar
that none of them knows is a text: truth values, numbers with a fraction, whole numbers, the merge key,
the absent value, dates and moments, and the default key, which has no value here. Digits may be separated
by underscores, whole numbers may be binary, octal or hexadecimal, and numbers may be given in groups to
the base of sixty.

The same rules tell when a text has to be quoted to be read back as a text.
-/

namespace PathAccess.Yaml

/-- What a plain scalar stands for. -/
inductive Plain where
  /-- A value. -/
  | value (s : Scalar)
  /-- The key that merges mappings. -/
  | merge
  /-- The key for a default, which has no value here. -/
  | defaultKey
  /-- A number or a date that does not exist, for the given reason. -/
  | impossible (reason : String)

namespace Plain

/-- The words for the truth values. -/
def truthWords : List (String × Bool) := [
  ("yes", true), ("Yes", true), ("YES", true), ("no", false), ("No", false), ("NO", false),
  ("true", true), ("True", true), ("TRUE", true), ("false", false), ("False", false), ("FALSE", false),
  ("on", true), ("On", true), ("ON", true), ("off", false), ("Off", false), ("OFF", false)]

/-- The words for the absent value. -/
def nullWords : List String := ["", "~", "null", "Null", "NULL"]

/-- Whether `c` is a digit to a base of at most sixteen. -/
def isDigitOf (base : Nat) (c : Char) : Bool :=
  if c.isDigit then c.toNat - 48 < base
  else if 'a' ≤ c ∧ c ≤ 'f' then c.toNat - 87 < base
  else if 'A' ≤ c ∧ c ≤ 'F' then c.toNat - 55 < base
  else false

/-- The value of a digit. -/
def digitValue (c : Char) : Nat :=
  if c.isDigit then c.toNat - 48 else if 'a' ≤ c then c.toNat - 87 else c.toNat - 55

/-- The number of digits to a base; underscores do not count. -/
def number (base : Nat) (cs : List Char) : Nat :=
  (cs.filter (· != '_')).foldl (fun n c => base * n + digitValue c) 0

/-- Whether the characters are digits to a base or underscores, and at least one. -/
def areDigits (base : Nat) (cs : List Char) : Bool :=
  !cs.isEmpty && cs.all fun c => c == '_' || isDigitOf base c

/-- Whether the characters are decimal digits and underscores that begin with a digit. -/
def isDecimal (cs : List Char) : Bool :=
  cs.head?.any Char.isDigit && areDigits 10 cs

/-- A sign in front, if there is one, and what follows it. -/
def sign (cs : List Char) : Bool × List Char :=
  match cs with
  | '-' :: cs => (true, cs)
  | '+' :: cs => (false, cs)
  | cs => (false, cs)

/-- Whether the characters are a group to the base of sixty. -/
def isSixtieth : List Char → Bool
  | [c] => c.isDigit
  | [c, d] => '0' ≤ c && c ≤ '5' && d.isDigit
  | _ => false

/-- The parts of a scalar between the colons. -/
def groups (cs : List Char) : List (List Char) :=
  Text.splitAt.go ':' [] cs

/-- The number of groups to the base of sixty. -/
def sixtieths (groups : List (List Char)) : Nat :=
  groups.foldl (fun n g => 60 * n + number 10 g) 0

/-! ### Whole numbers -/

/-- The magnitude of a whole number, or the reason why it is none: it has no digits. -/
def magnitude? (cs : List Char) : Option (Except String Nat) :=
  let based (base : Nat) (ds : List Char) : Option (Except String Nat) :=
    if !areDigits base ds then none
    else if ds.all (· == '_') then
      some (.error ("invalid literal for int() with base " ++ toString base ++ ": ''"))
    else some (.ok (number base ds))
  match cs with
  | '0' :: 'b' :: ds => based 2 ds
  | '0' :: 'x' :: ds => based 16 ds
  | ['0'] => some (.ok 0)
  | '0' :: ds => if areDigits 8 ds then some (.ok (number 8 ds)) else none
  | cs =>
    if !isDecimal cs then
      match groups cs with
      | g :: gs =>
        if !gs.isEmpty && isDecimal g && gs.all isSixtieth then some (.ok (sixtieths (g :: gs)))
        else none
      | [] => none
    else some (.ok (number 10 cs))

/-- A whole number. -/
def int? (cs : List Char) : Option Plain :=
  let (negative, cs) := sign cs
  (magnitude? cs).map fun
    | .ok n => value (.int (if negative then -(n : Int) else n))
    | .error reason => impossible reason

/-! ### Numbers with a fraction -/

/-- The exponent after a fraction: nothing, or a letter, a sign and digits. -/
def exponent? (cs : List Char) : Option Int :=
  match cs with
  | [] => some 0
  | e :: s :: ds =>
    if (e == 'e' || e == 'E') && (s == '+' || s == '-') && !ds.isEmpty && ds.all Char.isDigit then
      let n : Nat := number 10 ds
      some (if s == '-' then -(n : Int) else n)
    else none
  | _ => none

/-- Whether `c` stands in a fraction. -/
def isFractional (c : Char) : Bool := c.isDigit || c == '_'

/-- The number of the digits before the point and after it. -/
def decimal (negative : Bool) (whole fraction : List Char) (exponent : Int) : Plain :=
  let places := (fraction.filter (· != '_')).length
  value (.real (Binary64.ofDecimal negative (number 10 (whole ++ fraction)) (exponent - places)))

/-- A number with a point. -/
def real? (cs : List Char) : Option Plain :=
  let (negative, body) := sign cs
  let whole := body.takeWhile (· != '.')
  match body.dropWhile (· != '.') with
  | '.' :: rest =>
    let fraction := rest.takeWhile isFractional
    let power := exponent? (rest.dropWhile isFractional)
    if whole.isEmpty then
      let word := String.ofList rest
      if ["inf", "Inf", "INF"].contains word then some (value (.real (.infinite negative)))
      else if cs.head? != some '.' then none
      else if ["nan", "NaN", "NAN"].contains word then some (value (.real .nan))
      else if fraction.head?.any Char.isDigit then power.map (decimal false [] fraction)
      else none
    else if isDecimal whole then power.map (decimal negative whole fraction)
    else
      match groups whole with
      | g :: gs =>
        if !gs.isEmpty && isDecimal g && gs.all isSixtieth && rest.all isFractional then
          let places := (rest.filter (· != '_')).length
          let digits := sixtieths (g :: gs) * Binary64.tenTo places + number 10 rest
          some (value (.real (Binary64.ofDecimal negative digits (-(places : Int)))))
        else none
      | [] => none
  | _ => none

/-! ### Dates and moments -/

/-- Reads a number of one or two digits, and gives what follows. -/
def upToTwoDigits? (cs : List Char) : Option (Nat × List Char) :=
  let ds := (cs.take 2).takeWhile Char.isDigit
  if ds.isEmpty then none else some (number 10 ds, cs.drop ds.length)

/-- The offset of a moment in microseconds: nothing, the letter of universal time, or a sign, hours and
minutes. -/
def offset? (cs : List Char) : Option (Option Int) :=
  match cs.dropWhile (fun c => c == ' ' || c == '\t') with
  | [] => if cs.isEmpty then some none else none
  | ['Z'] => some (some 0)
  | s :: cs => do
    if s != '+' && s != '-' then none
    let (hours, cs) ← upToTwoDigits? cs
    let minutes ← match cs with
      | [] => some 0
      | ':' :: cs => do
        let (minutes, cs) ← Calendar.digits? 2 cs
        if cs.isEmpty then some minutes else none
      | _ => none
    let size : Int := (hours * 60 + minutes) * 60000000
    return some (if s == '-' then -size else size)

/-- A value that is made out of numbers. -/
def made (result : Except Misfit Scalar) : Plain :=
  match result with
  | .ok s => value s
  | .error e => impossible e.message

/-- The time of a moment on a day, after the date. The offset is looked at first, and then the date. -/
def momentOf? (date : Except Misfit Date) (cs : List Char) : Option Plain := do
  let (hour, cs) ← upToTwoDigits? cs
  let ':' :: cs := cs | none
  let (minute, cs) ← Calendar.digits? 2 cs
  let ':' :: cs := cs | none
  let (second, cs) ← Calendar.digits? 2 cs
  let (micro, cs) := match cs with
    | '.' :: cs => (Calendar.microOfFraction (cs.takeWhile Char.isDigit), cs.dropWhile Char.isDigit)
    | cs => (0, cs)
  let offset ← offset? cs
  return made do
    let offset ← Moment.offsetOf offset
    return .moment (← Moment.ofNumbers (← date) hour minute second micro offset)

/-- A date, or a moment. -/
def stamp? (cs : List Char) : Option Plain := do
  let (year, rest) ← Calendar.digits? 4 cs
  let '-' :: rest := rest | none
  let (month, rest) ← upToTwoDigits? rest
  let '-' :: rest := rest | none
  let (day, rest) ← upToTwoDigits? rest
  let date := Date.ofNumbers year month day
  match rest with
  | [] =>
    if cs.length != 10 then none
    else return made (date.map .date)
  | c :: rest =>
    if c == 'T' || c == 't' then momentOf? date rest
    else if c == ' ' || c == '\t' then momentOf? date (rest.dropWhile fun c => c == ' ' || c == '\t')
    else none

end Plain

/-- What a plain scalar stands for. -/
def plain (s : String) : Plain :=
  if let some (_, b) := Plain.truthWords.find? (·.1 == s) then .value (.bool b)
  else if let some p := Plain.real? s.toList then p
  else if let some p := Plain.int? s.toList then p
  else if s == "<<" then .merge
  else if Plain.nullWords.contains s then .value .null
  else if let some p := Plain.stamp? s.toList then p
  else if s == "=" then .defaultKey
  else .value (.text s)

/-- Whether a plain scalar is read as the text that it shows. -/
def isPlainText (s : String) : Bool :=
  match plain s with
  | .value (.text _) => true
  | _ => false

end PathAccess.Yaml
