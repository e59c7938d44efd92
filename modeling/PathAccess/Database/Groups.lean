import PathAccess.Database.Basic
import PathAccess.Directory
/-!
# Group membership

The groups of a player, in the order of their priority in evaluation: the explicit memberships in stored
order, the group that comes with the privilege level, and the groups of outside affiliations. A derived
group counts only if it has a tree, and once.

An explicit membership in a group that has no tree any more is stale. Resolving the groups of a player
prunes what is stale from the stored memberships.
-/

namespace PathAccess

/-- Where privilege levels and affiliations are looked up. Without the first nobody has a tier, without
the second nobody has affiliations. -/
structure GroupSources where
  /-- The directory of privilege levels. -/
  identity : Option Directory := none
  /-- The directory of affiliations. -/
  affiliations : Option Directory := none
  /-- The tiers. -/
  tiers : TierPolicy := {}

/-- The groups of a principal. -/
structure GroupResolution where
  /-- All groups, highest priority first. -/
  groups : List String := []
  /-- The stored memberships that are left. -/
  explicit : List String := []
  /-- The stored memberships that were stale. -/
  pruned : List String := []
  deriving DecidableEq

namespace GroupResolution

/-- The groups that are no stored membership. -/
def derived (r : GroupResolution) : List String :=
  r.groups.filter fun g => !r.explicit.contains g

/-- Whether something was pruned. -/
def changed (r : GroupResolution) : Bool :=
  !r.pruned.isEmpty

end GroupResolution

namespace Database

variable (db : Database)

/-- Adds a derived group at the end, if it has a tree and is not there yet. -/
def addDerived (groups : List String) (group : String) : List String :=
  if db.has group && !groups.contains group then groups ++ [group] else groups

/-- The groups that come with the tier and the affiliations of a player, in order of priority. -/
def derivedGroups (s : GroupSources) (name : String) : List String :=
  (s.identity.bind fun d => s.tiers.group? (d.levelOf name)).toList
    ++ ((s.affiliations.map (·.affiliationsOf name)).getD []).map db.rules.groupForAffiliation

/-- The groups of a principal. Only a player with a name has any. -/
def groupsOf (s : GroupSources) (name : String) : GroupResolution :=
  if name == "" || !db.rules.isPlayer name then {}
  else
    let (explicit, pruned) := (db.memberships name).partition db.has
    { groups := (db.derivedGroups s name).foldl db.addDerived explicit, explicit, pruned }

/-- Resolves the groups of a principal and prunes what is stale. -/
def resolveGroups (s : GroupSources) (name : String) : GroupResolution × Database :=
  let r := db.groupsOf s name
  (r, if r.changed then db.setMemberships name r.explicit else db)

end Database

end PathAccess
