import PathAccess.Entries
import PathAccess.Level
/-!
# Access trees

An access tree is sparse over path segments. A **leaf** is one grade for a segment and everything below
it. A **branch** has named children and two optional modifiers: the grade of the directory itself, shown
as `.`, and the grade of every child that is not named, shown as `*`. A tree is a branch at the path root
together with the explicit group memberships of its owner, shown as `?`.

A branch stands on its own as a structure, because the root of a tree is always one. Inside a tree it is
a node with the same three parts, and `Branch.toNode` goes from the one to the other.
-/

namespace PathAccess

/-- A position of an access tree. -/
inductive Node where
  /-- One grade for the whole subtree. -/
  | leaf (grade : Grade)
  /-- A directory: its own grade, the grade of children that are not named, and the named children. -/
  | branch (own rest : Option Grade) (children : List (String × Node))

/-- A directory of an access tree. -/
structure Branch where
  /-- The grade of the directory itself. -/
  own : Option Grade := none
  /-- The grade of every child that is not named. -/
  rest : Option Grade := none
  /-- The named children. -/
  children : Entries String Node := []

/-- The tree of one principal. -/
structure Tree where
  /-- The directory at the path root. -/
  root : Branch := {}
  /-- The names of the groups that the owner was explicitly added to, in order. -/
  groups : List String := []

/-! ### Reserved names -/

/-- The name under which a branch's own grade appears. -/
def ownKey : String := "."

/-- The name under which the grade of unnamed children appears. -/
def restKey : String := "*"

/-- The name under which a tree's memberships appear. -/
def groupsKey : String := "?"

/-- Whether a name stands for one of the two modifiers of a branch. -/
def isModifier (name : String) : Bool :=
  name == ownKey || name == restKey

/-- Whether a name is none that a child can have: a modifier, or the memberships. -/
def isReserved (name : String) : Bool :=
  isModifier name || name == groupsKey

/-- Why a node cannot stand at a name: a modifier of that name takes a leaf only. -/
structure ModifierError where
  /-- The name of the modifier. -/
  name : String

/-- The message of a refused node. -/
def ModifierError.message (e : ModifierError) : String :=
  Text.quoted e.name ++ " modifier must be a scalar level"

/-! ### Branches -/

namespace Branch

/-- The branch as a node. -/
def toNode (b : Branch) : Node :=
  .branch b.own b.rest b.children

/-- The node at a name, a modifier counting as a leaf. -/
def find? (b : Branch) (name : String) : Option Node :=
  if name == ownKey then b.own.map .leaf
  else if name == restKey then b.rest.map .leaf
  else Entries.find? b.children name

/-- Sets the node at a child's name. -/
def setChild (b : Branch) (name : String) (n : Node) : Branch :=
  { b with children := Entries.set b.children name n }

/-- Removes the child of a name. -/
def removeChild (b : Branch) (name : String) : Branch :=
  { b with children := Entries.remove b.children name }

/-- Sets the node at a name, modifiers included. -/
def set (b : Branch) (name : String) (n : Node) : Except ModifierError Branch :=
  if isModifier name then
    match n with
    | .leaf g => .ok (if name == ownKey then { b with own := some g } else { b with rest := some g })
    | .branch .. => .error ⟨name⟩
  else .ok (b.setChild name n)

/-- Removes what stands at a name, modifiers included. -/
def remove (b : Branch) (name : String) : Branch :=
  if name == ownKey then { b with own := none }
  else if name == restKey then { b with rest := none }
  else b.removeChild name

/-- The names at which something stands: the children in order, then the modifiers. -/
def names (b : Branch) : List String :=
  Entries.keys b.children ++ (if b.own.isSome then [ownKey] else [])
    ++ (if b.rest.isSome then [restKey] else [])

/-- Whether a branch holds nothing. -/
def isEmpty (b : Branch) : Bool :=
  b.children.isEmpty && b.own.isNone && b.rest.isNone

/-- The grade of the leaf that a branch is equivalent to: that of both modifiers, if they agree and no
child is named. -/
def folded? (b : Branch) : Option Grade :=
  if b.children.isEmpty && b.own == b.rest then b.own else none

/-- The shortest form of a branch inside a tree: nothing if it is empty, a leaf if it is equivalent to
one, and the branch itself otherwise. -/
def compact (b : Branch) : Option Node :=
  if b.isEmpty then none
  else match b.folded? with
    | some g => some (.leaf g)
    | none => some b.toNode

end Branch

namespace Node

/-- The branch that a node is, if it is one. -/
def toBranch? : Node → Option Branch
  | leaf _ => none
  | branch own rest children => some ⟨own, rest, children⟩

/-- Whether a node is the leaf of a given grade. -/
def isLeafOf (g : Grade) : Node → Bool
  | leaf h => h == g
  | branch .. => false

end Node

/-! ### Equality

Two trees are equal as mappings when they hold the same children, in any order; the order of the
memberships counts. -/

namespace Node

mutual

/-- Equality of nodes, the order of children apart. -/
def same : Node → Node → Bool
  | leaf g, leaf h => g == h
  | branch own rest cs, branch own' rest' ds =>
    own == own' && rest == rest' && cs.length == ds.length && sameChildren cs ds
  | _, _ => false

/-- Whether each of the first children has its equal among the second. -/
def sameChildren : List (String × Node) → List (String × Node) → Bool
  | [], _ => true
  | (k, n) :: cs, ds =>
    (match Entries.find? ds k with
      | some m => same n m
      | none => false) && sameChildren cs ds

end

end Node

namespace Branch

/-- Equality of branches, the order of children apart. -/
def same (b c : Branch) : Bool :=
  b.toNode.same c.toNode

end Branch

namespace Tree

/-- Whether a tree holds neither paths nor memberships. -/
def isEmpty (t : Tree) : Bool :=
  t.root.isEmpty && t.groups.isEmpty

/-- Equality of trees, the order of children apart. -/
def same (t u : Tree) : Bool :=
  t.root.same u.root && t.groups == u.groups

end Tree

end PathAccess
