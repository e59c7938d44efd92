import PathAccess.Database.Document
/-!
# Durable storage

A store holds the document of the database that was saved last, and can be told to refuse saving. A
refused save changes nothing.
-/

namespace PathAccess

/-- Why a database could not be saved. -/
inductive SaveError where
  /-- The store refuses to save. -/
  | refused
  /-- The file at this path could not be written, for the given reason. -/
  | unwritable (path cause : String)

/-- The message of a failed save. -/
def SaveError.message : SaveError → String
  | refused => "Failed to save the access database: store is failing saves"
  | unwritable path cause => "Failed to save the access database to " ++ path ++ ": " ++ cause

/-- A place where one database is kept. -/
structure Store where
  /-- The document that was saved last, if there is one. -/
  document : Option Value := none
  /-- The rules for the databases that are read. -/
  rules : PrincipalRules := {}
  /-- The name of the place in messages. -/
  source : String := "<memory>"
  /-- Why saving fails, as long as it does. -/
  fault : Option SaveError := none
  /-- How often a database was saved. -/
  saves : Nat := 0

namespace Store

/-- The stored database, if there is one. -/
def load (s : Store) : Except DocumentError (Option Database) :=
  match s.document with
  | none => .ok none
  | some document => (Database.ofDocument s.rules s.source document).map some

/-- Saves a database. -/
def save (s : Store) (db : Database) : Except SaveError Store :=
  match s.fault with
  | some e => .error e
  | none => .ok { s with document := some db.toDocument, saves := s.saves + 1 }

end Store

end PathAccess
