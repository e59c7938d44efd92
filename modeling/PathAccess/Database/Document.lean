import PathAccess.Database.Basic
/-!
# Stored documents

A database is kept as a document with two fields: the version of the format, and the trees of all
principals. A document without a version counts as one of the current version, and one without trees
as one of an empty database.
-/

namespace PathAccess

/-- The version of the format. -/
def documentVersion : String := "1"

/-- What is wrong with a document. -/
inductive DocumentFault where
  /-- It is no mapping. -/
  | notAMapping
  /-- It has another version. -/
  | unsupportedVersion (version : String)
  /-- Its trees are no database. -/
  | badTrees (e : DatabaseError)
  /-- Its text cannot be read, for the given reason. -/
  | unreadable (reason : String)
  /-- Its text holds a value that does not exist, for the given reason. -/
  | impossible (reason : String)

/-- Why a document is no database, with the place it comes from. -/
structure DocumentError where
  /-- The place. -/
  source : String
  /-- What is wrong. -/
  fault : DocumentFault

/-- The message of a failed reading. -/
def DocumentError.message (e : DocumentError) : String :=
  let placed (reason : String) : String := e.source ++ ": " ++ reason
  match e.fault with
  | .notAMapping => placed "expected a mapping at top level"
  | .unsupportedVersion v => placed ("unsupported document version " ++ Text.quoted v)
  | .badTrees e => placed e.message
  | .unreadable reason => placed ("invalid YAML: " ++ reason)
  | .impossible reason => reason

namespace Database

/-- The document of a database. -/
def toDocument (db : Database) : Value :=
  .record [("version", .text documentVersion), ("access_map", db.toValue)]

/-- Reads a database from a document's mapping. -/
def ofMapping (rules : PrincipalRules) (document : Value) : Except DocumentFault Database :=
  let version := ((document.field? "version").map (·.plain)).getD documentVersion
  if version != documentVersion then .error (.unsupportedVersion version)
  else
    let trees := (document.field? "access_map").getD .null
    match ofValue rules (if trees.isVoid then .map [] else trees) with
    | .ok db => .ok db
    | .error e => .error (.badTrees e)

/-- Reads a database from the document at a place. -/
def ofDocument (rules : PrincipalRules) (source : String) (document : Value) :
    Except DocumentError Database :=
  match document with
  | .map _ =>
    match ofMapping rules document with
    | .ok db => .ok db
    | .error fault => .error ⟨source, fault⟩
  | _ => .error ⟨source, .notAMapping⟩

end Database

end PathAccess
