import PathAccess.Principal
import PathAccess.Tree.Data
/-!
# The access database

The trees of all principals, by name, in the order in which they came in. Two databases are equal when
they hold equal trees under the same names, in any order.
-/

namespace PathAccess

/-- The trees of principals. -/
structure Database where
  /-- The trees by the names of their owners. -/
  trees : Entries String Tree := []
  /-- The rules by which the names are told apart. -/
  rules : PrincipalRules := {}

/-- Why plain data is no database. -/
inductive DatabaseError where
  /-- The data is no mapping but another kind of value. -/
  | notAMapping (kind : String)
  /-- The data of one principal is no tree. -/
  | badTree (e : TreeError)

/-- The message of a failed reading. -/
def DatabaseError.message : DatabaseError → String
  | notAMapping kind => "Access map must be a mapping, got " ++ kind
  | badTree e => e.message

namespace Database

variable (db : Database)

/-- The tree of a principal. -/
def find? (name : String) : Option Tree :=
  Entries.find? db.trees name

/-- Whether a principal has a tree. -/
def has (name : String) : Bool :=
  Entries.has db.trees name

/-- The names of the principals, in order. -/
def principals : List String :=
  Entries.keys db.trees

/-- Sets the tree of a principal. -/
def set (name : String) (t : Tree) : Database :=
  { db with trees := Entries.set db.trees name t }

/-- Removes the tree of a principal. -/
def remove (name : String) : Database :=
  { db with trees := Entries.remove db.trees name }

/-- The tree of a principal, an empty one if there is none. -/
def treeOf (name : String) : Tree :=
  (db.find? name).getD {}

/-- Gives a principal an empty tree if it has none. -/
def ensure (name : String) : Database :=
  if db.has name then db else db.set name {}

/-- Removes the tree of a principal if it holds nothing. -/
def discardIfEmpty (name : String) : Database :=
  match db.find? name with
  | some t => if t.isEmpty then db.remove name else db
  | none => db

/-- The tree that applies to everyone. -/
def defaultTree : Tree :=
  db.treeOf defaultPrincipal

/-! ### Groups and memberships -/

/-- Every group: the built-in ones, then those with a tree. -/
def allGroups : List String :=
  db.principals.foldl
    (fun groups name =>
      if db.rules.isGroup name && !groups.contains name then groups ++ [name] else groups)
    db.rules.staticGroups

/-- The groups that a principal was explicitly added to. -/
def memberships (name : String) : List String :=
  (db.treeOf name).groups

/-- Replaces the explicit groups of a principal. Without any, a tree that holds nothing else goes. -/
def setMemberships (name : String) (groups : List String) : Database :=
  if groups.isEmpty then
    match db.find? name with
    | some t => (db.set name { t with groups := [] }).discardIfEmpty name
    | none => db
  else db.set name { db.treeOf name with groups }

/-! ### Plain data -/

/-- The trees as a mapping from names to stored trees. -/
def toValue : Value :=
  .record (db.trees.map fun (name, t) => (name, t.toValue))

/-- Reads the trees of all principals; a name is the text of its key. -/
def treesOfValue (trees : Entries String Tree) :
    List (Scalar × Value) → Except TreeError (Entries String Tree)
  | [] => .ok trees
  | (key, v) :: es => do
    treesOfValue (Entries.set trees key.plain (← Tree.ofValue key.plain v)) es

/-- Reads a database. -/
def ofValue (rules : PrincipalRules) : Value → Except DatabaseError Database
  | .map es =>
    match treesOfValue [] es with
    | .ok trees => .ok { trees, rules }
    | .error e => .error (.badTree e)
  | v => .error (.notAMapping v.kindName)

/-- Equality of databases, the order of principals and of children apart. -/
def same (other : Database) : Bool :=
  db.trees.length == other.trees.length && db.trees.all fun (name, t) =>
    match other.find? name with
    | some u => t.same u
    | none => false

end Database

end PathAccess
