import PathAccess.Disk.Basic
import PathAccess.Store
import PathAccess.Yaml.Printer
import PathAccess.Yaml.Reader
/-!
# A database in a file

The document of a database as a YAML file. An empty file holds an empty database, and a file that is not there
none at all. Saving replaces the file as a whole or fails and leaves everything as it was, however the document is
written.
-/

namespace PathAccess

/-- The text of a file that holds a document. -/
def textOfDocument (document : Value) : String :=
  Yaml.print true document

/-- The document in a text. -/
def documentOfText (source text : String) : Except DocumentError Value :=
  match Yaml.read text with
  | .error (.impossibleValue reason) => .error ⟨source, .impossible reason⟩
  | .error e => .error ⟨source, .unreadable e.message⟩
  | .ok v => .ok (if v.isVoid then .map [] else v)

/-- A file that holds a database. -/
structure FileStore where
  /-- The path of the file, in normal form. -/
  path : String
  /-- The rules for the databases that are read. -/
  rules : PrincipalRules := {}
  /-- How a document is written. -/
  print : Value → String := textOfDocument

namespace FileStore

variable (s : FileStore)

/-- The document in the file, if the file is there. -/
def document (d : Disk) : Except DocumentError (Option Value) :=
  match d.content? s.path with
  | none => .ok none
  | some text => (documentOfText s.path text).map some

/-- The database in the file, if the file is there. -/
def load (d : Disk) : Except DocumentError (Option Database) := do
  match ← s.document d with
  | none => return none
  | some document => return some (← Database.ofDocument s.rules s.path document)

/-- Saves a document, and gives the error if that fails, and the disk afterwards. -/
def saveDocument (d : Disk) (fault : Option DiskFault) (document : Value) : Except SaveError Unit × Disk :=
  match d.replace fault s.path (s.print document) with
  | (.ok _, d) => (.ok (), d)
  | (.error cause, d) => (.error (.unwritable s.path cause), d)

/-- Saves a database; see `saveDocument`. -/
def save (d : Disk) (fault : Option DiskFault) (db : Database) : Except SaveError Unit × Disk :=
  s.saveDocument d fault db.toDocument

/-- Why nothing can be saved, as the disk is. -/
def fault? (d : Disk) (fault : Option DiskFault) : Option SaveError :=
  match (s.saveDocument d fault .null).1 with
  | .ok _ => none
  | .error e => some e

end FileStore

end PathAccess
