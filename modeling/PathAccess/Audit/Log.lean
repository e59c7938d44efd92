import PathAccess.Audit.Event
import PathAccess.Json.Printer
import PathAccess.Json.Reader
import PathAccess.Text.Blank
/-!
# The audit log

A text with one record a line, in JSON, to which records are only added. What is in the log is what its lines
hold, in order; blank lines and lines that are no JSON are passed over.

A search asks every record for a field, which only a mapping has, so a line with JSON of another kind makes a
search fail, while it is counted and listed like any other.
-/

namespace PathAccess

/-- The line of a record. -/
def recordLine (r : Entries String Value) : String :=
  Json.line (.record r) ++ "\n"

/-- The lines of a text, whatever ends them. -/
def textLines (s : String) : List String :=
  (Text.splitAt '\n' s).flatMap (Text.splitAt '\r')

/-- Why a search fails: something in the log is no record, but of this kind. -/
structure SearchError where
  /-- The word for the kind. -/
  kind : String

/-- The message of a failed search. -/
def SearchError.message (e : SearchError) : String :=
  "'" ++ e.kind ++ "' object has no attribute 'get'"

/-- What is in an audit log. -/
structure AuditLog where
  /-- The values in its lines, oldest first. -/
  records : List Value

namespace AuditLog

/-- The log in a text. -/
def ofText (s : String) : AuditLog :=
  ⟨(textLines s).filterMap fun line =>
    let line := Text.strip line
    if line.isEmpty then none else Json.read? line⟩

variable (l : AuditLog)

/-- The number of records. -/
def count : Nat := l.records.length

/-- The most recent records, at most `n` of them. -/
def last (n : Int) : List Value :=
  l.records.drop (l.records.length - n.toNat)

/-- A field of a record; a field that is not there is absent. -/
def fieldOf (name : String) (r : Value) : Except SearchError Value :=
  match r with
  | .map _ => .ok ((r.field? name).getD .null)
  | r => .error ⟨r.kindName⟩

/-- The records that satisfy a test. -/
def search (test : Value → Except SearchError Bool) : Except SearchError (List Value) :=
  l.records.filterM test

/-- Whether a record has given values in its fields. -/
def hasFields (r : Value) : List (String × Value) → Except SearchError Bool
  | [] => .ok true
  | (name, v) :: rest => do
    if (← fieldOf name r).equal v then hasFields r rest else return false

/-- The records with given values in their fields. -/
def query (fields : List (String × Value)) : Except SearchError (List Value) :=
  l.search (hasFields · fields)

/-- The records of a kind of event. -/
def byEvent (kind : String) : Except SearchError (List Value) :=
  l.query [("event", .text kind)]

/-- The records in which a principal is the subject or the actor. -/
def byPrincipal (name : String) : Except SearchError (List Value) :=
  l.search fun r => do
    return (← fieldOf "principal" r).equal (.text name) || (← fieldOf "actor" r).equal (.text name)

/-- Whether a path is the one of a directory or lies below it. -/
def isAtOrBelow (directory path : String) : Bool :=
  directory == "/" || path == directory || (directory ++ "/").toList.isPrefixOf path.toList

/-- The records whose path is the given one or lies below it, segment by segment. -/
def byPath (prefixPath : String) : Except SearchError (List Value) :=
  l.search fun r => do
    match ← fieldOf "path" r with
    | .scalar (.text path) => return isAtOrBelow ("/" ++ Text.stripChar '/' prefixPath) path
    | _ => return false

/-- The moment at which a record was written, if it has one. -/
def momentOf (r : Value) : Except SearchError (Option Moment) := do
  match ← fieldOf "timestamp" r with
  | .scalar (.text s) => return Moment.ofText? s
  | _ => return none

/-- The records from one moment to another, both included. -/
def between (first last : Moment) : Except SearchError (List Value) :=
  l.search fun r => do
    return (← momentOf r).any fun m => first.instant ≤ m.instant && m.instant ≤ last.instant

end AuditLog

end PathAccess
