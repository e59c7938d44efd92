import PathAccess.Text.Blank
import PathAccess.Text.Case
import PathAccess.Text.Numeral
import PathAccess.Value.Display
/-!
# Access levels

A **grade** is what a tree can hold: an explicit denial, or one of five positive grades. A **level** is
what a principal has at a path: a grade, or no access because nothing was decided. Denial and absence
differ, and only the first can be stored, so a level is an optional grade and no invariant about stored
levels is needed anywhere.

Levels are ordered by their number, from the denial (-1) over no access (0) up to the full grant (5).
-/

namespace PathAccess

/-- An explicit entry of a tree. -/
inductive Grade where
  /-- An explicit denial. -/
  | revoked
  /-- May read. -/
  | read
  /-- May read and hand out the right to read. -/
  | grantRead
  /-- May read and write. -/
  | write
  /-- May read and write, and hand out both rights. -/
  | grantWrite
  /-- May do everything, and hand out every right. -/
  | grant
  deriving DecidableEq

/-- The access of a principal at a path: a grade, or none when nothing was decided. -/
abbrev Level := Option Grade

namespace Grade

/-- All grades, in ascending order. -/
def all : List Grade := [revoked, read, grantRead, write, grantWrite, grant]

/-- The number under which a grade is stored. -/
def toInt : Grade → Int
  | revoked => -1
  | read => 1
  | grantRead => 2
  | write => 3
  | grantWrite => 4
  | grant => 5

/-- The word for a grade in listings and records. -/
def name : Grade → String
  | revoked => "revoked"
  | read => "read"
  | grantRead => "grant-read"
  | write => "write"
  | grantWrite => "grant-write"
  | grant => "grant"

end Grade

namespace Level

/-- No access, because nothing was decided. -/
abbrev noAccess : Level := none

/-- All levels, in ascending order. -/
def all : List Level :=
  [some .revoked, noAccess, some .read, some .grantRead, some .write, some .grantWrite, some .grant]

/-- The number of a level: that of its grade, or zero. -/
def toInt : Level → Int
  | none => 0
  | some g => g.toInt

/-- The word for a level in listings and records. -/
def name : Level → String
  | none => "no-access"
  | some g => g.name

/-- The level with a given number. -/
def ofInt? (n : Int) : Option Level :=
  all.find? (toInt · == n)

/-- Whether holding the level satisfies a requirement. -/
def allows (held required : Level) : Bool :=
  toInt required ≤ toInt held

/-- Whether the level allows reading. -/
def canRead (l : Level) : Bool := allows l (some .read)

/-- Whether the level allows writing. -/
def canWrite (l : Level) : Bool := allows l (some .write)

/-- Whether the level comes with the right to hand something out. -/
def canGrant (l : Level) : Bool :=
  l == some .grantRead || l == some .grantWrite || l == some .grant

/-- Whether an actor that holds `actor` at a path may hand out `requested` there. Reading, denying and
taking away can be done with any of the three granting grades; writing and the right to hand out reading
need one of the upper two; the two highest grades need the highest. -/
def mayGrant (actor requested : Level) : Bool :=
  match requested with
  | none | some .revoked | some .read => canGrant actor
  | some .grantRead | some .write => actor == some .grantWrite || actor == some .grant
  | some .grantWrite | some .grant => actor == some .grant

/-! ### Reading a level -/

/-- Why a value is no level. -/
inductive ParseError where
  /-- A number or a truth value that is no level. -/
  | number (v : Value)
  /-- A text, or another value read as text, that names no level. -/
  | unknownName (v : Value)
  /-- A value where a level's number was expected. -/
  | notALevel (v : Value)
  /-- No access where a grade was expected. -/
  | notAGrade

/-- The words under which a level can be asked for. -/
def names : List (String × Level) := [
  ("grant", some .grant), ("grant-grant", some .grant), ("grant-read", some .grantRead),
  ("grant-write", some .grantWrite), ("no-access", none), ("none", none), ("read", some .read),
  ("revoked", some .revoked), ("write", some .write)]

/-- The symbols of the levels, an alternative to the words. -/
def symbols : List (String × Level) := [
  ("REVOKED", some .revoked), ("NO_ACCESS", none), ("READ", some .read),
  ("GRANT_READ", some .grantRead), ("WRITE", some .write), ("GRANT_WRITE", some .grantWrite),
  ("GRANT_GRANT", some .grant)]

/-- The message of a failed reading. -/
def ParseError.message : ParseError → String
  | number v => "Invalid access level: " ++ v.quoted
  | unknownName v =>
    "Invalid access level: " ++ v.quoted ++ ". Valid: " ++ (Value.texts (Entries.keys names)).quoted
  | notALevel v => v.quoted ++ " is not a valid AccessLevel"
  | notAGrade => "NO_ACCESS cannot be stored in an access tree"

/-- The level whose number a value is equal to. -/
def ofNumber (v : Value) : Except ParseError Level :=
  match all.find? fun l => v.equal (.int (toInt l)) with
  | some l => .ok l
  | none => .error (.notALevel v)

/-- The grade of a level that can be stored. -/
def toGrade : Level → Except ParseError Grade
  | some g => .ok g
  | none => .error .notAGrade

/-- Reads a level from a text: a word in any case, a symbol in any case with a hyphen for an underscore,
or a number. -/
def ofText? (s : String) : Option Level :=
  let s := Text.strip s
  Entries.find? names (Text.lower s)
    <|> Entries.find? symbols ((Text.upper s).map fun c => if c == '-' then '_' else c)
    <|> (Text.int? s).bind ofInt?

/-- Reads a level from a number, or from the text of any other value. A truth value is refused, although
it is equal to a number. -/
def parse (v : Value) : Except ParseError Level :=
  match v with
  | .scalar (.bool _) => .error (.number v)
  | .scalar (.int n) =>
    match ofInt? n with
    | some l => .ok l
    | none => .error (.number v)
  | _ =>
    match ofText? v.plain with
    | some l => .ok l
    | none => .error (.unknownName v)

end Level

end PathAccess
