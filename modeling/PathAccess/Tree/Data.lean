import PathAccess.Tree.Basic
/-!
# Trees as plain data

The stored form of a tree is a nested mapping: a whole number is a leaf, a mapping a branch. In each
branch come first `.`, then `*`, then the children in order; the memberships of a tree come last, under
`?`, and only if there are some. Reading accepts the entries of a mapping in any order and turns keys
into texts.
-/

namespace PathAccess

/-- Why plain data is no tree. Places are paths inside the tree. -/
inductive TreeError where
  /-- The data of this owner is no mapping but another kind of value. -/
  | notAMapping (owner kind : String)
  /-- The memberships of this owner are no list of names. -/
  | badGroups (owner : String)
  /-- Memberships below the root. -/
  | nestedGroups (place : String)
  /-- A level that is no whole number. -/
  | notAnInteger (place : String) (v : Value)
  /-- A whole number that is no level. -/
  | unknownLevel (place : String) (n : Int)
  /-- No access, which cannot be stored. -/
  | storedNoAccess (place : String)

/-- The message of a failed reading. -/
def TreeError.message : TreeError → String
  | notAMapping owner kind => "Tree for " ++ Text.quoted owner ++ " must be a mapping, got " ++ kind
  | badGroups owner => "Group list for " ++ Text.quoted owner ++ " must be a list of names"
  | nestedGroups place =>
    "Group list is only allowed at the tree root, found at " ++ Text.quoted place
  | notAnInteger place v =>
    "Access level at " ++ Text.quoted place ++ " must be an integer, got " ++ v.quoted
  | unknownLevel place n => "Unknown access level " ++ toString n ++ " at " ++ Text.quoted place
  | storedNoAccess place => "NO_ACCESS (0) cannot be stored, found at " ++ Text.quoted place

namespace Grade

/-- Reads a stored grade. A truth value is no number here. -/
def ofValue (place : String) : Value → Except TreeError Grade
  | .scalar (.int n) =>
    match Level.ofInt? n with
    | some (some g) => .ok g
    | some none => .error (.storedNoAccess place)
    | none => .error (.unknownLevel place n)
  | v => .error (.notAnInteger place v)

end Grade

namespace Node

/-- The place of a leaf, from the path of its directory form: without slashes at the end, unless it is
the root. -/
def leafPlace (path : String) : String :=
  let cs := (path.toList.reverse.dropWhile (· == '/')).reverse
  if cs.isEmpty then "/" else String.ofList cs

mutual

/-- Reads the node at a path, which ends in a slash. -/
def ofValue (path : String) : Value → Except TreeError Node
  | .map es => (entriesOfValue path {} es).map Branch.toNode
  | .scalar s => (Grade.ofValue (leafPlace path) (.scalar s)).map leaf
  | .list xs => (Grade.ofValue (leafPlace path) (.list xs)).map leaf

/-- Adds entries to the branch read so far. -/
def entriesOfValue (path : String) (b : Branch) : List (Scalar × Value) → Except TreeError Branch
  | [] => .ok b
  | (key, v) :: es =>
    let name := key.plain
    if name == ownKey then do
      entriesOfValue path { b with own := some (← Grade.ofValue (path ++ name) v) } es
    else if name == restKey then do
      entriesOfValue path { b with rest := some (← Grade.ofValue (path ++ name) v) } es
    else if name == groupsKey then .error (.nestedGroups path)
    else do
      entriesOfValue path (b.setChild name (← ofValue (path ++ name ++ "/") v)) es

end

/-- The fields of a stored branch, from its modifiers and its stored children. A child with the name of a
modifier takes the place of that modifier. -/
def fieldsOf (own rest : Option Grade) (children : List (String × Value)) : Entries String Value :=
  Entries.ofPairs ((own.map fun g => (ownKey, Value.int g.toInt)).toList
    ++ (rest.map fun g => (restKey, Value.int g.toInt)).toList ++ children)

mutual

/-- The stored form of a node. -/
def toValue : Node → Value
  | leaf g => .int g.toInt
  | branch own rest children => .record (fieldsOf own rest (childrenToValue children))

/-- The stored forms of children. -/
def childrenToValue : List (String × Node) → List (String × Value)
  | [] => []
  | (k, n) :: cs => (k, toValue n) :: childrenToValue cs

end

end Node

namespace Tree

/-- Whether an entry's key is the text under which memberships are stored. -/
def isGroupsEntry : Scalar × Value → Bool
  | (.text s, _) => s == groupsKey
  | _ => false

/-- Reads the memberships of a tree: a list of names, or nothing. -/
def groupsOfValue (owner : String) : Option Value → Except TreeError (List String)
  | none | some (.scalar .null) => .ok []
  | some v =>
    match v.toTexts? with
    | some names => .ok names
    | none => .error (.badGroups owner)

/-- Reads the tree of an owner. -/
def ofValue (owner : String) : Value → Except TreeError Tree
  | .map es => do
    let groups ← groupsOfValue owner (Entries.find? es (.text groupsKey))
    let root ← Node.entriesOfValue "/" {} (es.filter (!isGroupsEntry ·))
    return { root, groups }
  | v => .error (.notAMapping owner v.kindName)

/-- The fields of a stored tree: those of its root, and the memberships if there are some. -/
def fields (t : Tree) : Entries String Value :=
  let fields := Node.fieldsOf t.root.own t.root.rest (Node.childrenToValue t.root.children)
  if t.groups.isEmpty then fields else Entries.set fields groupsKey (.texts t.groups)

/-- The stored form of a tree. -/
def toValue (t : Tree) : Value :=
  .record t.fields

end Tree

end PathAccess
