import PathAccess.Service.Basic
/-!
# Resetting a principal

The default tree is restored to the default schema; the tree of anyone else is deleted, so that only groups
and the default are left. This is for archwizards, against those of lower rank; admins may restore the
default tree, and system names are not reset.
-/

namespace PathAccess

/-- What a reset did. -/
inductive ResetOutcome where
  /-- The tree is gone. -/
  | reset
  /-- The default tree is the default schema again. -/
  | defaultRestored
  deriving DecidableEq

/-- The word for an outcome. -/
def ResetOutcome.name : ResetOutcome → String
  | reset => "reset"
  | defaultRestored => "default_restored"

/-- Why a reset was refused. -/
inductive ResetRefusal where
  /-- The target has no tree. -/
  | notFound (target : String)
  /-- The actor may not restore the default tree. -/
  | defaultProtected
  /-- The target is a system name. -/
  | systemName (target : String)
  /-- The target is a player that the actor may not reset. -/
  | playerProtected (actor target : String)
  /-- The target is a group, and the actor no archwizard. -/
  | groupProtected

namespace ResetRefusal

/-- The word for a refusal. -/
def code : ResetRefusal → String
  | notFound _ => "not_found"
  | _ => "not_authorized"

/-- The message of a refusal. -/
def message : ResetRefusal → String
  | notFound target => Text.quoted target ++ " has no access entry"
  | defaultProtected => "Only archwizards can restore the default tree"
  | systemName target => Text.quoted target ++ " cannot be reset"
  | playerProtected actor target => Text.quoted actor ++ " may not reset " ++ Text.quoted target
  | groupProtected => "Only archwizards can reset groups"

end ResetRefusal

/-- The answer to a reset. -/
structure ResetResult where
  /-- The principal. -/
  target : String
  /-- What happened. -/
  verdict : Except ResetRefusal ResetOutcome

namespace Call

/-- Why an actor may not reset a target that has a tree. -/
def resetProblem? (s : Service) (acting target : String) : Option ResetRefusal :=
  let archwizard := s.isArchwizard acting
  if target == defaultPrincipal then
    if archwizard || s.rules.isAdmin acting then none else some .defaultProtected
  else match s.rules.kindOf target with
    | .fake => some (.systemName target)
    | .player =>
      if archwizard && (s.privilegeOf target < s.privilegeOf acting || acting == target) then none
      else some (.playerProtected acting target)
    | .group => if archwizard then none else some .groupProtected

/-- Resets a target to the default access on behalf of an actor. -/
def reset (acting target : String) : Call ResetResult := do
  let s ← get
  match s.db.find? target with
  | none => return ⟨target, .error (.notFound target)⟩
  | some previous =>
    match resetProblem? s acting target with
    | some refusal => return ⟨target, .error refusal⟩
    | none =>
      let restored := target == defaultPrincipal
      modify fun s => { s with db := if restored then s.db.resetDefault else s.db.remove target }
      audit (.reset acting target (some previous.toValue))
      persist
      return ⟨target, .ok (if restored then .defaultRestored else .reset)⟩

end Call

end PathAccess
