import PathAccess.Service.Basic
/-!
# Changing memberships

An actor adds a player to a group, or removes one. Only stored memberships can be removed, not those that
come with a tier or an affiliation; a player of junior rank or above stays in a built-in group, and only
an archwizard adds someone to one.
-/

namespace PathAccess

/-- What a change of membership did. -/
inductive MembershipOutcome where
  /-- The player is a member now. -/
  | added
  /-- The player is no explicit member any more. -/
  | removed
  deriving DecidableEq

/-- The word for an outcome. -/
def MembershipOutcome.name : MembershipOutcome → String
  | added => "added"
  | removed => "removed"

/-- Why a change of membership was refused. -/
inductive MembershipRefusal where
  /-- The target is no player. -/
  | invalidMember (target : String)
  /-- The target is a member already. -/
  | alreadyAMember (target group : String)
  /-- The target is no member. -/
  | notAMember (target group : String)
  /-- The membership comes with a tier or an affiliation. -/
  | derivedMembership (target group : String)
  /-- There is no such group. -/
  | unknownGroup (group : String)
  /-- The target's rank comes with the built-in group. -/
  | boundByRank (target group : String)
  /-- The actor is no archwizard, and the group is built in. -/
  | insufficientPrivilege (group : String)

namespace MembershipRefusal

/-- The word for a refusal. -/
def code : MembershipRefusal → String
  | invalidMember _ => "invalid_member"
  | alreadyAMember .. => "already_a_member"
  | notAMember .. => "not_a_member"
  | derivedMembership .. => "derived_membership"
  | unknownGroup _ => "unknown_group"
  | boundByRank .. | insufficientPrivilege _ => "insufficient_privilege"

/-- The message of a refusal. -/
def message : MembershipRefusal → String
  | invalidMember target => Text.quoted target ++ " cannot be a group member"
  | alreadyAMember target group =>
    Text.quoted target ++ " is already a member of " ++ Text.quoted group
  | notAMember target group => Text.quoted target ++ " is not a member of " ++ Text.quoted group
  | derivedMembership target group =>
    Text.quoted target ++ " is a member of " ++ Text.quoted group ++ " by tier or affiliation"
  | unknownGroup group => "No such group " ++ Text.quoted group
  | boundByRank target group =>
    Text.quoted target ++ " cannot be removed from static group " ++ Text.quoted group
  | insufficientPrivilege group =>
    "Only archwizards can add members to static group " ++ Text.quoted group

end MembershipRefusal

/-- The answer to a change of membership. -/
structure MembershipResult where
  /-- The player. -/
  target : String
  /-- The group. -/
  group : String
  /-- What happened. -/
  verdict : Except MembershipRefusal MembershipOutcome
  /-- The player's groups afterwards; none if the change was refused. -/
  groups : List String := []

namespace Call

/-- Why a player cannot leave a group that it belongs to. -/
def leavingProblem? (s : Service) (r : GroupResolution) (target group : String) :
    Option MembershipRefusal :=
  if !r.groups.contains group then some (.notAMember target group)
  else if s.rules.isStaticGroup group && s.tiers.juniorArchLevel ≤ s.privilegeOf target then
    some (.boundByRank target group)
  else if !r.explicit.contains group then some (.derivedMembership target group)
  else none

/-- Why an actor cannot add a player to a group. -/
def joiningProblem? (s : Service) (r : GroupResolution) (acting target group : String) :
    Option MembershipRefusal :=
  if r.groups.contains group then some (.alreadyAMember target group)
  else if !s.rules.isGroup group || !s.db.has group then some (.unknownGroup group)
  else if s.rules.isStaticGroup group && !s.isArchwizard acting then
    some (.insufficientPrivilege group)
  else none

/-- Replaces the stored memberships of a player and saves the database; the player's groups afterwards. -/
def storeMemberships (target : String) (groups : List String) : Call (List String) := do
  modify fun s => { s with db := s.db.setMemberships target groups }
  persist
  let s ← get
  let (r, db) := s.db.resolveGroups s.groupSources target
  set { s with db }
  return r.groups

/-- Adds a player to a group, or removes it, on behalf of an actor. -/
def changeMembership (acting target group : String) (add : Bool) : Call MembershipResult := do
  if (← get).rules.kindOf target != .player then
    return { target, group, verdict := .error (.invalidMember target) }
  else
    let r ← resolveGroups target
    let s ← get
    let problem := if add then joiningProblem? s r acting target group
      else leavingProblem? s r target group
    match problem with
    | some refusal => return { target, group, verdict := .error refusal }
    | none =>
      let remaining := if add then r.explicit ++ [group] else r.explicit.filter (· != group)
      let groups ← storeMemberships target remaining
      return { target, group, verdict := .ok (if add then .added else .removed), groups }

end Call

end PathAccess
