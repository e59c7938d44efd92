import PathAccess.Text.Quoted
import PathAccess.Value.Basic
/-!
# Values in messages

Two written forms. The quoted form shows a value inside a message: texts between quotes, lists in
square brackets, mappings in braces. The plain form differs only for a text on its own, which stands
as it is.
-/

namespace PathAccess

/-- A date as a message shows it. -/
def Date.quoted (d : Date) : String :=
  "datetime.date(" ++ ", ".intercalate ([d.year, d.month, d.day].map toString) ++ ")"

/-- A length of time as a message shows it, in whole days and the seconds that remain. -/
def quotedDuration (microseconds : Int) : String :=
  let seconds := microseconds.fdiv 1000000
  let days := seconds.fdiv 86400
  let rest := seconds.fmod 86400
  let parts := (if days == 0 then [] else ["days=" ++ toString days])
    ++ (if rest == 0 then [] else ["seconds=" ++ toString rest])
  "datetime.timedelta(" ++ ", ".intercalate parts ++ ")"

/-- A moment as a message shows it. Seconds and their fraction are left out where they are zero. -/
def Moment.quoted (m : Moment) : String :=
  let clock := if m.micro == 0 then (if m.second == 0 then [] else [m.second]) else [m.second, m.micro]
  let numbers := [m.date.year, m.date.month, m.date.day, m.hour, m.minute] ++ clock
  let zone := match m.offset with
    | none => []
    | some 0 => ["tzinfo=datetime.timezone.utc"]
    | some o => ["tzinfo=datetime.timezone(" ++ quotedDuration o ++ ")"]
  "datetime.datetime(" ++ ", ".intercalate (numbers.map toString ++ zone) ++ ")"

namespace Scalar

/-- The scalar as a message shows it, a text between quotes. -/
def quoted : Scalar → String
  | null => "None"
  | bool b => if b then "True" else "False"
  | int n => toString n
  | real x => x.text
  | text s => Text.quoted s
  | date d => d.quoted
  | moment m => m.quoted

/-- The scalar as a text: a text is itself, days and moments have a form of their own, and anything else is
shown. -/
def plain : Scalar → String
  | text s => s
  | date d => d.text
  | moment m => m.text
  | s => s.quoted

/-- The word for the kind of scalar. -/
def kindName : Scalar → String
  | null => "NoneType"
  | bool _ => "bool"
  | int _ => "int"
  | real _ => "float"
  | text _ => "str"
  | date _ => "date"
  | moment _ => "datetime"

end Scalar

namespace Value

mutual

/-- The value as a message shows it. -/
def quoted : Value → String
  | scalar s => s.quoted
  | list xs => "[" ++ ", ".intercalate (quotedItems xs) ++ "]"
  | map es => "\x7b" ++ ", ".intercalate (quotedEntries es) ++ "\x7d"

/-- The quoted forms of the elements of a list. -/
def quotedItems : List Value → List String
  | [] => []
  | x :: xs => quoted x :: quotedItems xs

/-- The quoted forms of the entries of a mapping. -/
def quotedEntries : List (Scalar × Value) → List String
  | [] => []
  | (k, v) :: es => (k.quoted ++ ": " ++ quoted v) :: quotedEntries es

end

/-- The value as a text: a text is itself, anything else is shown. -/
def plain : Value → String
  | scalar s => s.plain
  | v => v.quoted

/-- The word for the kind of value. -/
def kindName : Value → String
  | scalar s => s.kindName
  | list _ => "list"
  | map _ => "dict"

end Value

end PathAccess
