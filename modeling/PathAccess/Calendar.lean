/-!
# Dates and moments

Days of the Gregorian calendar and moments of a day, with or without an offset from universal time.
A moment without an offset counts as one of universal time where an order is needed.
-/

namespace PathAccess

/-- A day. -/
structure Date where
  /-- The year, from 1 to 9999. -/
  year : Nat
  /-- The month, from 1 to 12. -/
  month : Nat
  /-- The day of the month, from 1. -/
  day : Nat
  deriving DecidableEq

/-- A moment of a day, to the microsecond. -/
structure Moment where
  /-- The day. -/
  date : Date
  /-- The hour, from 0 to 23. -/
  hour : Nat := 0
  /-- The minute, from 0 to 59. -/
  minute : Nat := 0
  /-- The second, from 0 to 59. -/
  second : Nat := 0
  /-- The microsecond, from 0 to 999999. -/
  micro : Nat := 0
  /-- The offset from universal time in microseconds, to the east. -/
  offset : Option Int := none
  deriving DecidableEq

/-- Why numbers are no date or no moment: the first of them that does not fit. -/
inductive Misfit where
  /-- A year that is not counted. -/
  | year (n : Nat)
  /-- A month. -/
  | month
  /-- A day that the month does not have. -/
  | day
  /-- An hour. -/
  | hour
  /-- A minute. -/
  | minute
  /-- A second. -/
  | second
  /-- A fraction of a second. -/
  | micro
  /-- An offset of a day or more, in microseconds. -/
  | offset (o : Int)

namespace Misfit

/-- A length of time in microseconds, as whole days and the seconds of the rest. -/
def spanText (o : Int) : String :=
  let seconds := (o / 1000000) % 86400
  let days := o / 86400000000
  "datetime.timedelta(days=" ++ toString days
    ++ (if seconds == 0 then "" else ", seconds=" ++ toString seconds) ++ ")"

/-- The message for numbers that do not fit. -/
def message : Misfit → String
  | year n => "year " ++ toString n ++ " is out of range"
  | month => "month must be in 1..12"
  | day => "day is out of range for month"
  | hour => "hour must be in 0..23"
  | minute => "minute must be in 0..59"
  | second => "second must be in 0..59"
  | micro => "microsecond must be in 0..999999"
  | offset o => "offset must be a timedelta strictly between -timedelta(hours=24) and timedelta(hours=24), not "
      ++ spanText o ++ "."

end Misfit

namespace Date

/-- Whether a year has a day more in February. -/
def isLeap (year : Nat) : Bool :=
  year % 4 == 0 && (year % 100 != 0 || year % 400 == 0)

/-- The number of days in a month. -/
def daysInMonth (year month : Nat) : Nat :=
  if month == 2 then (if isLeap year then 29 else 28)
  else if [4, 6, 9, 11].contains month then 30 else 31

/-- The date of three numbers, or why there is no such day. -/
def ofNumbers (year month day : Nat) : Except Misfit Date :=
  if year < 1 || 9999 < year then .error (.year year)
  else if month < 1 || 12 < month then .error .month
  else if day < 1 || daysInMonth year month < day then .error .day
  else .ok ⟨year, month, day⟩

/-- The number of days before a date since the first day of the year 1. -/
def ordinal (d : Date) : Nat :=
  let y := d.year - 1
  365 * y + y / 4 - y / 100 + y / 400
    + (List.range (d.month - 1)).foldl (fun n m => n + daysInMonth d.year (m + 1)) 0 + (d.day - 1)

/-- The date so many days after the first day of the year 1. Years are counted from March here, so that the
day that only leap years have is the last one. -/
def ofOrdinal (days : Nat) : Date :=
  let n := days + 306
  let cycle := n / 146097
  let inCycle := n % 146097
  let year := (inCycle - inCycle / 1460 + inCycle / 36524 - inCycle / 146096) / 365
  let inYear := inCycle - (365 * year + year / 4 - year / 100)
  let month := (5 * inYear + 2) / 153
  { year := 400 * cycle + year + (if month < 10 then 0 else 1)
    month := if month < 10 then month + 3 else month - 9
    day := inYear - (153 * month + 2) / 5 + 1 }

end Date

namespace Moment

/-- An offset, or why it is none. -/
def offsetOf : Option Int → Except Misfit (Option Int)
  | none => .ok none
  | some o => if o.natAbs < 86400000000 then .ok (some o) else .error (.offset o)

/-- The moment of a date and a time of day, or why there is no such time. -/
def ofNumbers (date : Date) (hour minute second micro : Nat) (offset : Option Int) : Except Misfit Moment :=
  if 23 < hour then .error .hour
  else if 59 < minute then .error .minute
  else if 59 < second then .error .second
  else if 999999 < micro then .error .micro
  else (offsetOf offset).map fun offset => { date, hour, minute, second, micro, offset }

/-- The microseconds of universal time since the beginning of the year 1. -/
def instant (m : Moment) : Int :=
  (((m.date.ordinal * 24 + m.hour) * 60 + m.minute) * 60 + m.second) * 1000000 + m.micro
    - m.offset.getD 0

/-- The moment of universal time so many microseconds after the beginning of the year 1970. -/
def ofUnixMicros (n : Nat) : Moment :=
  let seconds := n / 1000000
  let inDay := seconds % 86400
  { date := Date.ofOrdinal (719162 + seconds / 86400), hour := inDay / 3600, minute := inDay / 60 % 60
    second := inDay % 60, micro := n % 1000000, offset := some 0 }

end Moment

/-! ### Written forms -/

namespace Calendar

/-- A number with zeros in front up to a width. -/
def padded (width n : Nat) : String :=
  let cs := Nat.toDigits 10 n
  String.ofList (List.replicate (width - cs.length) '0' ++ cs)

/-- Reads a number of exactly so many decimal digits, and gives what follows. -/
def digits? (count : Nat) (cs : List Char) : Option (Nat × List Char) :=
  let ds := cs.take count
  if ds.length == count && ds.all Char.isDigit then
    some (ds.foldl (fun n c => 10 * n + (c.toNat - 48)) 0, cs.drop count)
  else none

/-- The microseconds of a fraction of a second given by its digits; what lies beyond is dropped. -/
def microOfFraction (ds : List Char) : Nat :=
  ((ds ++ List.replicate 6 '0').take 6).foldl (fun n c => 10 * n + (c.toNat - 48)) 0

/-- The offset in hours and minutes, with a sign. -/
def offsetText (o : Int) : String :=
  let minutes := o.natAbs / 60000000
  (if o < 0 then "-" else "+") ++ padded 2 (minutes / 60) ++ ":" ++ padded 2 (minutes % 60)

end Calendar

open Calendar

/-- The date as year, month and day with hyphens. -/
def Date.text (d : Date) : String :=
  padded 4 d.year ++ "-" ++ padded 2 d.month ++ "-" ++ padded 2 d.day

/-- The time of day of a moment, with its offset. A fraction is left out where it is zero. -/
def Moment.timeText (m : Moment) : String :=
  padded 2 m.hour ++ ":" ++ padded 2 m.minute ++ ":" ++ padded 2 m.second
    ++ (if m.micro == 0 then "" else "." ++ padded 6 m.micro) ++ (m.offset.map offsetText).getD ""

/-- The moment as date, time and offset. -/
def Moment.text (m : Moment) : String :=
  m.date.text ++ " " ++ m.timeText

/-- The moment in the international form. -/
def Moment.stamp (m : Moment) : String :=
  m.date.text ++ "T" ++ m.timeText

/-! ### Reading a moment -/

namespace Calendar

/-- Reads up to three numbers of two digits, with a colon between any two of them or none. -/
def clock? (cs : List Char) : Option (List Nat × List Char) := do
  let (hour, cs) ← digits? 2 cs
  match cs with
  | ':' :: rest => do
    let (minute, cs) ← digits? 2 rest
    match cs with
    | ':' :: rest => do
      let (second, cs) ← digits? 2 rest
      return ([hour, minute, second], cs)
    | _ => return ([hour, minute, 0], cs)
  | c :: _ =>
    if !c.isDigit then return ([hour, 0, 0], cs)
    else
      let (minute, cs) ← digits? 2 cs
      match digits? 2 cs with
      | some (second, cs) => return ([hour, minute, second], cs)
      | none => return ([hour, minute, 0], cs)
  | [] => return ([hour, 0, 0], [])

/-- The microseconds of a time of day, which may end in a fraction after a point or a comma. -/
def timeOfDay? (cs : List Char) : Option (Nat × Nat × Nat × Nat) := do
  let (parts, rest) ← clock? cs
  let [hour, minute, second] := parts | none
  match rest with
  | [] => return (hour, minute, second, 0)
  | c :: ds =>
    if (c == '.' || c == ',') && !ds.isEmpty && ds.all Char.isDigit then
      return (hour, minute, second, microOfFraction ds)
    else none

/-- Reads an offset: the letter of universal time, or a sign and a time. -/
def offset? (cs : List Char) : Option Int :=
  match cs with
  | ['Z'] => some 0
  | sign :: time => do
    let (hour, minute, second, micro) ← timeOfDay? time
    let size : Int := ((hour * 60 + minute) * 60 + second) * 1000000 + micro
    if sign == '-' then some (-size) else if sign == '+' then some size else none
  | [] => none

/-- Reads a date with hyphens or without, and gives what follows. -/
def date? (cs : List Char) : Option (Date × List Char) := do
  let (year, cs) ← digits? 4 cs
  match cs with
  | '-' :: cs => do
    let (month, cs) ← digits? 2 cs
    let '-' :: cs := cs | none
    let (day, cs) ← digits? 2 cs
    return (← (Date.ofNumbers year month day).toOption, cs)
  | cs => do
    let (month, cs) ← digits? 2 cs
    let (day, cs) ← digits? 2 cs
    return (← (Date.ofNumbers year month day).toOption, cs)

end Calendar

/-- Reads a moment in the international form: a date, and after any one character a time of day with an
optional offset. -/
def Moment.ofText? (s : String) : Option Moment := do
  let (date, rest) ← date? s.toList
  match rest with
  | [] => return { date }
  | _ :: time =>
    let isOffset (c : Char) : Bool := c == '-' || c == '+' || c == 'Z'
    let clock := time.takeWhile (!isOffset ·)
    let zone := time.dropWhile (!isOffset ·)
    let offset ← if zone.isEmpty then pure none else some <$> offset? zone
    let (hour, minute, second, micro) ← timeOfDay? clock
    (Moment.ofNumbers date hour minute second micro offset).toOption

end PathAccess
