import PathAccess.Tree.Basic
/-!
# Granting and revoking

Setting and removing one entry of a tree. Both keep the tree small as they go: a leaf on the way down is
split into a branch whose two modifiers carry its grade, which changes nothing that can be observed, and
on the way back a branch below the root that has become empty is removed, and one that has become
equivalent to a leaf is folded into it.

A branch that still names a child is neither empty nor equivalent to a leaf. So a branch is brought to
its shortest form at every step of the way back, and the effect reaches up exactly as far as branches
vanish.
-/

namespace PathAccess

/-- What revoking an entry did. -/
inductive RevokeOutcome where
  /-- Nothing is stored there, and the tree is as it was. -/
  | notFound
  /-- The entry is gone. -/
  | removed
  /-- The entry is gone, and it was the last: neither paths nor memberships are left. -/
  | principalRemoved
  deriving DecidableEq

/-- The word for an outcome. -/
def RevokeOutcome.name : RevokeOutcome → String
  | notFound => "not_found"
  | removed => "removed"
  | principalRemoved => "principal_removed"

namespace Branch

/-- The branch at a child's name: the child if it is a branch, a leaf split into a branch with both
modifiers, or an empty branch if there is no child. -/
def below (b : Branch) (name : String) : Branch :=
  match Entries.find? b.children name with
  | some (.branch own rest children) => ⟨own, rest, children⟩
  | some (.leaf g) => ⟨some g, some g, []⟩
  | none => {}

/-- Sets or removes a child. -/
def putChild (b : Branch) (name : String) : Option Node → Branch
  | some n => b.setChild name n
  | none => b.removeChild name

/-- Sets one entry of a branch. The grade of unnamed children takes over the leaves that agree with it,
and a child that would agree with it is not stored. -/
def grantEntry (b : Branch) (name : String) (g : Grade) : Branch :=
  if name == restKey then
    { b with rest := some g, children := b.children.filter fun (_, n) => !n.isLeafOf g }
  else if name == ownKey then { b with own := some g }
  else if b.rest == some g then b.removeChild name
  else b.setChild name (.leaf g)

/-- Sets the entry at a path to a grade. A branch whose modifier is set stays a branch. -/
def grant (b : Branch) (path : List String) (g : Grade) : Branch :=
  match path with
  | [] => b
  | [name] => b.grantEntry name g
  | name :: path =>
    let child := (b.below name).grant path g
    let keep := match path with
      | [last] => isModifier last
      | _ => false
    b.putChild name (if keep then some child.toNode else child.compact)

/-- Removes the entry at a path; nothing if there is none. -/
def revoke? (b : Branch) (path : List String) : Option Branch :=
  match path with
  | [] => none
  | [name] => if (b.find? name).isSome then some (b.remove name) else none
  | name :: path =>
    match Entries.find? b.children name with
    | some (.branch own rest children) =>
      (revoke? ⟨own, rest, children⟩ path).map fun child => b.putChild name child.compact
    | _ => none

end Branch

/-- Why an entry cannot be set. -/
inductive GrantError where
  /-- The path is empty. -/
  | emptyPath
  /-- The level is no access, which is not stored. -/
  | noAccess

/-- The message of a refused grant. -/
def GrantError.message : GrantError → String
  | emptyPath => "Cannot grant on an empty path"
  | noAccess => "NO_ACCESS is not a grantable level; use revoke()"

namespace Tree

/-- Sets the entry at a path to a grade. -/
def grant (t : Tree) (path : List String) (g : Grade) : Tree :=
  { t with root := t.root.grant path g }

/-- Sets the entry at a path to a level, if the path is one and the level can be stored. -/
def grant? (t : Tree) (path : List String) (l : Level) : Except GrantError Tree :=
  if path.isEmpty then .error .emptyPath
  else match l with
    | none => .error .noAccess
    | some g => .ok (t.grant path g)

/-- Removes the entry at a path. -/
def revoke (t : Tree) (path : List String) : RevokeOutcome × Tree :=
  match t.root.revoke? path with
  | none => (.notFound, t)
  | some root =>
    let t := { t with root }
    (if t.isEmpty then .principalRemoved else .removed, t)

end Tree

end PathAccess
