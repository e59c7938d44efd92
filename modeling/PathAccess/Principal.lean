import PathAccess.Text.Case
/-!
# Principals

Every principal owns at most one tree, under its name. Three kinds of principals share the names: a
**group** has a name with an upper-case letter, a **fake user** is one of a fixed set of system names, and
every other name is a **player**.
-/

namespace PathAccess

/-- The kinds of principals. -/
inductive PrincipalKind where
  /-- Someone who plays, and can be a member of groups. -/
  | player
  /-- A group of players. -/
  | group
  /-- A system name that owns a tree and has no part in groups. -/
  | fake
  deriving DecidableEq

/-- The word for a kind of principal. -/
def PrincipalKind.name : PrincipalKind → String
  | player => "player"
  | group => "group"
  | fake => "fake"

/-- The name of the principal whose tree is the default for everyone. -/
def defaultPrincipal : String := "*"

/-- Whether a name is that of a group: lower case would change it. -/
def isGroupName (name : String) : Bool :=
  name != Text.lower name

/-- The rules by which names are told apart. -/
structure PrincipalRules where
  /-- The system names. -/
  fakeUsers : List String := [defaultPrincipal, "backbone", "root"]
  /-- The built-in groups, whose members only the privileged can change. -/
  staticGroups : List String :=
    ["Arch_full", "Arch_docs", "Arch_qc", "Arch_junior", "Arch_law", "Arch_web"]
  /-- Those who may grant whatever level they hold themselves. -/
  admins : List String := ["moreldir", "kralk", "cryzeck"]
  /-- What makes the name of a group out of the name of an affiliation, put in front of it. -/
  affiliationStem : String := "Arch_"
  deriving DecidableEq

namespace PrincipalRules

variable (r : PrincipalRules)

/-- Whether a name is a system name. -/
def isFake (name : String) : Bool :=
  r.fakeUsers.contains name

/-- The kind of a name. -/
def kindOf (name : String) : PrincipalKind :=
  if r.isFake name then .fake else if isGroupName name then .group else .player

/-- Whether a name is that of a group and no system name. -/
def isGroup (name : String) : Bool :=
  r.kindOf name == .group

/-- Whether a name is that of a player. -/
def isPlayer (name : String) : Bool :=
  r.kindOf name == .player

/-- Whether a name is that of a built-in group. -/
def isStaticGroup (name : String) : Bool :=
  r.staticGroups.contains name

/-- Whether a name is that of an admin. -/
def isAdmin (name : String) : Bool :=
  r.admins.contains name

/-- The name of the group for an affiliation. -/
def groupForAffiliation (affiliation : String) : String :=
  r.affiliationStem ++ affiliation

end PrincipalRules

/-! ### Privilege tiers -/

/-- The privilege levels that come with a group, and the groups. -/
structure TierPolicy where
  /-- From this level on a player is an archwizard and belongs to the full group. -/
  archwizardLevel : Int := 45
  /-- From this level on, and below archwizard, a player belongs to the junior group. -/
  juniorArchLevel : Int := 40
  /-- The one level that is left out of the junior group. -/
  elderLevel : Int := 42
  /-- The group of archwizards. -/
  fullGroup : String := "Arch_full"
  /-- The group of the junior tier. -/
  juniorGroup : String := "Arch_junior"
  deriving DecidableEq

namespace TierPolicy

variable (p : TierPolicy)

/-- Whether a privilege level is that of an archwizard. -/
def isArchwizard (level : Int) : Bool :=
  p.archwizardLevel ≤ level

/-- The group that comes with a privilege level. -/
def group? (level : Int) : Option String :=
  if p.isArchwizard level then some p.fullGroup
  else if p.juniorArchLevel ≤ level && level != p.elderLevel then some p.juniorGroup
  else none

end TierPolicy

end PathAccess
