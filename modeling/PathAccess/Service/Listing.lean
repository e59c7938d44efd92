import PathAccess.Service.Basic
import PathAccess.Tree.Overlay
/-!
# Listing the trees of a principal

The trees that apply to a principal, to be looked at: each that is not empty, all of them as stored, or
their combined effect as one tree. A player without a tree and with at most one group is shown the default
tree instead.
-/

namespace PathAccess

/-- How trees are listed. -/
inductive ListingMode where
  /-- Every tree that is not empty. -/
  | detailed
  /-- The combined effect, as one tree. -/
  | effective
  /-- Every tree, as stored. -/
  | raw
  deriving DecidableEq

namespace ListingMode

/-- The word for a mode. -/
def name : ListingMode → String
  | detailed => "detailed"
  | effective => "effective"
  | raw => "raw"

/-- All modes. -/
def all : List ListingMode := [detailed, effective, raw]

/-- The mode of a word. -/
def ofName? (s : String) : Option ListingMode :=
  all.find? (·.name == s)

end ListingMode

/-- The trees of a principal, as listed. -/
structure Listing where
  /-- The name that was asked for. -/
  principal : String
  /-- The name whose trees are shown. -/
  listedAs : String
  /-- How the trees are listed. -/
  mode : ListingMode
  /-- The trees with their owners, highest priority first. -/
  sections : List OwnedTree
  /-- Whether the default tree is shown because the principal has none. -/
  fallback : Bool

/-- The sections of a listing, from the trees that apply. -/
def listingSections (listedAs : String) (trees : List OwnedTree) : ListingMode → List OwnedTree
  | .effective => [⟨listedAs, Tree.flatten (trees.map (·.tree))⟩]
  | .detailed => trees.filter fun t => !t.tree.root.isEmpty
  | .raw => trees

namespace Call

/-- Whether a principal is shown the default tree. It is an error if it is neither known nor a system name. -/
def fallsBack (name : String) : Call Bool := do
  let s ← get
  if s.rules.isFake name || s.db.has name then return false
  else if 1 < (← resolveGroups name).groups.length then return false
  else if s.rules.isGroup name then
    throw (.unknownPrincipal name "no such group in the database")
  else if !s.playerExists name then throw (.unknownPrincipal name "no such player")
  else return true

/-- Lists the trees of a principal. Without a mode, the default tree is shown by its effect and any other
in detail. -/
def list (name : String) (mode : Option ListingMode) : Call Listing := do
  let fallback ← fallsBack name
  let listedAs := if fallback then defaultPrincipal else name
  let mode := mode.getD (if listedAs == defaultPrincipal then .effective else .detailed)
  let (trees, _) ← treesFor listedAs
  return ⟨name, listedAs, mode, listingSections listedAs trees mode, fallback⟩

end Call

end PathAccess
