/-!
# Problems of a configuration

A configuration is checked as a whole: every field is looked at, and all problems are reported together, each
with its place, in the order in which the fields are declared. `Checked` is the outcome of looking at a
part. Where two parts are looked at side by side their problems are joined; what depends on the value of a part
is looked at only if that part has no problems.
-/

namespace PathAccess.Config

/-- What is wrong with a value. -/
inductive ProblemKind where
  /-- The value is no text. -/
  | notText
  /-- The text is empty. -/
  | tooShort
  /-- The value is no whole number. -/
  | notWhole
  /-- The text is not that of a whole number. -/
  | unreadableWhole
  /-- The number has a fraction. -/
  | fractional
  /-- The number is not finite. -/
  | infinite
  /-- The number is less than zero. -/
  | negative
  /-- The value is no truth value. -/
  | notTruth
  /-- The text or number is not one that stands for a truth value. -/
  | unreadableTruth
  /-- The value is no list. -/
  | notList
  /-- The value is no mapping by name. -/
  | notMapping
  /-- The value is no section. -/
  | notSection
  /-- The value is no path. -/
  | notPath
  /-- A key of a section is no text. -/
  | badKey
  /-- The value breaks the given rule. -/
  | rule (reason : String)
  deriving DecidableEq

namespace ProblemKind

/-- The word for a kind of problem. -/
def code : ProblemKind → String
  | notText => "string_type"
  | tooShort => "string_too_short"
  | notWhole => "int_type"
  | unreadableWhole => "int_parsing"
  | fractional => "int_from_float"
  | infinite => "finite_number"
  | negative => "greater_than_equal"
  | notTruth => "bool_type"
  | unreadableTruth => "bool_parsing"
  | notList => "list_type"
  | notMapping => "dict_type"
  | notSection => "model_type"
  | notPath => "path_type"
  | badKey => "invalid_key"
  | rule _ => "value_error"

/-- What a problem says. -/
def message : ProblemKind → String
  | notText => "Input should be a valid string"
  | tooShort => "String should have at least 1 character"
  | notWhole => "Input should be a valid integer"
  | unreadableWhole => "Input should be a valid integer, unable to parse string as an integer"
  | fractional => "Input should be a valid integer, got a number with a fractional part"
  | infinite => "Input should be a finite number"
  | negative => "Input should be greater than or equal to 0"
  | notTruth => "Input should be a valid boolean"
  | unreadableTruth => "Input should be a valid boolean, unable to interpret input"
  | notList => "Input should be a valid list"
  | notMapping => "Input should be a valid dictionary"
  | notSection => "Input should be a valid dictionary of settings"
  | notPath => "Input is not a valid path"
  | badKey => "Keys should be strings"
  | rule reason => "Value error, " ++ reason

end ProblemKind

/-- A problem and the keys that lead to it. -/
structure Problem where
  /-- The keys, from the outermost on. -/
  keys : List String
  /-- What is wrong. -/
  kind : ProblemKind
  deriving DecidableEq

namespace Problem

/-- The place of a problem: its keys with dots between them. -/
def place (p : Problem) : String :=
  ".".intercalate p.keys

/-- A problem on lines of its own: where it is, and what is wrong there. -/
def text (p : Problem) : String :=
  p.place ++ "\n  " ++ p.kind.message ++ " [type=" ++ p.kind.code ++ "]"

end Problem

/-- A value, or the problems that were found instead. -/
inductive Checked (α : Type) where
  /-- The value, which has no problems. -/
  | ok (a : α)
  /-- The problems, of which there is at least one. -/
  | bad (first : Problem) (others : List Problem)

namespace Checked

variable {α β : Type}

/-- A single problem, at the place that is looked at. -/
def fail (kind : ProblemKind) : Checked α :=
  bad ⟨[], kind⟩ []

/-- The problems. -/
def problems : Checked α → List Problem
  | ok _ => []
  | bad p ps => p :: ps

/-- Applies a function to the value. -/
def map (f : α → β) : Checked α → Checked β
  | ok a => ok (f a)
  | bad p ps => bad p ps

/-- Applies a function to a value where both are checked side by side. -/
def apply (f : Checked (α → β)) (a : Checked α) : Checked β :=
  match f, a with
  | ok f, ok a => ok (f a)
  | ok _, bad p ps => bad p ps
  | bad p ps, a => bad p (ps ++ a.problems)

instance : Applicative Checked where
  pure := ok
  map := map
  seq f a := apply f (a ())

/-- Checks what depends on the value, if there is one. -/
def andThen (a : Checked α) (f : α → Checked β) : Checked β :=
  match a with
  | ok a => f a
  | bad p ps => bad p ps

/-- A value that has to satisfy a rule. -/
def require (a : Checked α) (test : α → Bool) (kind : ProblemKind) : Checked α :=
  a.andThen fun a => if test a then ok a else fail kind

/-- Places what was checked under a key. -/
def under (key : String) : Checked α → Checked α
  | ok a => ok a
  | bad p ps =>
    let move (p : Problem) : Problem := { p with keys := key :: p.keys }
    bad (move p) (ps.map move)

/-- Checks the elements of a list side by side. -/
def all : List (Checked α) → Checked (List α)
  | [] => ok []
  | a :: as => List.cons <$> a <*> all as

end Checked

end PathAccess.Config
