import PathAccess.Audit.Event
import PathAccess.Database.Groups
import PathAccess.Database.Seed
import PathAccess.Evaluation
import PathAccess.Path
import PathAccess.Store
/-!
# The authorization service

One value holds everything that calls read and change: the database, the store that keeps it, the
directory of players, and the events for the audit trail. A call is a function of that value which gives
a result or an error, and the value afterwards; an error does not take back what was changed before it.

Even reading can change the database: looking up the groups of a player prunes memberships in groups that
are gone, and what was pruned is saved at once.
-/

namespace PathAccess

/-- The well-known directories. -/
structure Layout where
  /-- The parent of the homes of groups. -/
  domainRoot : String := "d"
  /-- The parent of the homes of players. -/
  playerRoot : String := "players"
  /-- The parent of character records, which their owner's own session may write. -/
  characterRoot : String := "characters"
  /-- The directory of a home that everyone may read. -/
  openDir : String := "open"
  deriving DecidableEq

/-- The state of the authorization service. -/
structure Service where
  /-- The database in use. -/
  db : Database
  /-- Where the database is kept, if anywhere. -/
  store : Option Store := none
  /-- The directory of players, their privilege levels and working directories. -/
  identity : Option Directory := none
  /-- The directory of outside affiliations. -/
  affiliations : Option Directory := none
  /-- The rules for names. -/
  rules : PrincipalRules := {}
  /-- The privilege tiers. -/
  tiers : TierPolicy := {}
  /-- The well-known directories. -/
  layout : Layout := {}
  /-- The rules by which events are kept; without them nothing is remembered. -/
  auditRules : Option PrincipalRules := none
  /-- The events for the audit trail, oldest first. -/
  events : List AuditEvent := []

/-- Why a call has no result. -/
inductive ServiceError where
  /-- A path could not be resolved. -/
  | invalidPath (e : Path.InvalidPath)
  /-- The database was changed, but could not be saved. -/
  | unsaved (e : SaveError)
  /-- A stored document is no database. -/
  | badDocument (e : DocumentError)
  /-- Nothing is known under a name, for the given reason. -/
  | unknownPrincipal (name reason : String)

/-- The message of a failed call. -/
def ServiceError.message : ServiceError → String
  | invalidPath e => e.message
  | unsaved e => e.message
  | badDocument e => e.message
  | unknownPrincipal name reason => "No such principal " ++ Text.quoted name ++ ": " ++ reason

/-- A call of the service. -/
abbrev Call := ExceptT ServiceError (StateM Service)

namespace Service

/-- The result of a call and the service after it. -/
def run {α : Type} (s : Service) (call : Call α) : Except ServiceError α × Service :=
  (ExceptT.run call).run s

variable (s : Service)

/-! ### What the service is set up with -/

/-- What paths are resolved against. -/
def resolver : Path.Resolver where
  domainRoot := s.layout.domainRoot
  playerRoot := s.layout.playerRoot
  directory := s.identity

/-- The directories of the rules about homes. -/
def homes : Homes where
  roots := [s.layout.domainRoot, s.layout.playerRoot]
  openDir := s.layout.openDir

/-- Where groups are looked up. -/
def groupSources : GroupSources where
  identity := s.identity
  affiliations := s.affiliations
  tiers := s.tiers

/-- Whether a player exists. -/
def playerExists (name : String) : Bool :=
  s.identity.any (·.exists? name)

/-- The privilege level of a player. -/
def privilegeOf (name : String) : Int :=
  (s.identity.map (·.levelOf name)).getD 0

/-- Whether a principal's privilege is that of an archwizard. -/
def isArchwizard (name : String) : Bool :=
  s.tiers.isArchwizard (s.privilegeOf name)

/-! ### Setting up -/

/-- A service over the stored database, or over a seeded one, which is saved, if none is stored. -/
def start : Except ServiceError Service :=
  match s.store with
  | none => .ok { s with db := .seeded s.rules }
  | some store =>
    match store.load with
    | .error e => .error (.badDocument e)
    | .ok (some db) => .ok { s with db }
    | .ok none =>
      let db := Database.seeded s.rules
      match store.save db with
      | .ok store => .ok { s with db, store := some store }
      | .error e => .error (.unsaved e)

end Service

namespace Call

/-- Takes up the stored database again; `false` if none is stored. -/
def reload : Call Bool := do
  match (← get).store with
  | none => return false
  | some store =>
    match store.load with
    | .error e => throw (.badDocument e)
    | .ok none => return false
    | .ok (some db) =>
      modify ({ · with db })
      return true

/-- Saves the database. -/
def persist : Call Unit := do
  let s ← get
  match s.store with
  | none => return
  | some store =>
    match store.save s.db with
    | .ok store => set { s with store := some store }
    | .error e => throw (.unsaved e)

/-- Hands an event to the audit trail. Writing the record is taken not to fail: where it did, a call that has
changed the database would end before saving it. -/
def audit (e : AuditEvent) : Call Unit :=
  modify fun s =>
    if s.auditRules.any (e.isKept ·) then { s with events := s.events ++ [e] } else s

/-- The groups of a principal. What is stale is pruned, and the database then saved. -/
def resolveGroups (name : String) : Call GroupResolution := do
  let s ← get
  let (r, db) := s.db.resolveGroups s.groupSources name
  set { s with db }
  if r.changed then persist
  return r

/-- The trees that apply to a principal, highest priority first, and whether the first is its own: its own
tree, those of its groups, and the default tree. The own tree is the one found before groups were resolved,
with its memberships as they are afterwards. -/
def treesFor (name : String) : Call (List OwnedTree × Bool) := do
  let before := (← get).db
  let own := before.find? name
  if name == defaultPrincipal then return ([⟨name, before.defaultTree⟩], own.isSome)
  else
    let r ← resolveGroups name
    let db := (← get).db
    let own := own.map fun t => if r.changed then { t with groups := r.explicit } else t
    let trees := (own.map fun t => (⟨name, t⟩ : OwnedTree)).toList
      ++ r.groups.filterMap (fun group => (db.find? group).map (⟨group, ·⟩))
      ++ [⟨defaultPrincipal, db.defaultTree⟩]
    return (trees, own.isSome)

/-- The level of a principal at a resolved path. -/
def evaluate (segments : List String) (name : String) : Call Evaluation := do
  let (trees, hasOwn) ← treesFor name
  return evaluateFor (← get).homes trees segments name hasOwn

/-- Resolves a path for an acting principal. -/
def resolvePath (path : Value) (acting cwd : Option String) : Call (List String) := do
  match (← get).resolver.resolve path acting cwd false with
  | .ok segments => return segments
  | .error e => throw (.invalidPath e)

end Call

end PathAccess
