import PathAccess.Service.Basic
import PathAccess.Tree.Edit
/-!
# Granting and removing access

An actor sets the entry of a target at a path, or removes it by granting no access. The path must be one
that a tree can store, the target must exist, and the actor must hold a level there that may hand out what
is asked for; admins may do so in any case. A grant that changes nothing is refused, and only an archwizard
or an admin makes a new group by granting to it.
-/

namespace PathAccess

/-- What a grant did. -/
inductive GrantOutcome where
  /-- The entry is set. -/
  | granted
  /-- The entry is set, in the first tree of a new group. -/
  | groupCreated
  /-- The entry is gone. -/
  | removed
  /-- The entry is gone, and with it the target's tree. -/
  | principalRemoved
  deriving DecidableEq

/-- The word for an outcome. -/
def GrantOutcome.name : GrantOutcome → String
  | granted => "granted"
  | groupCreated => "group_created"
  | removed => "removed"
  | principalRemoved => "principal_removed"

/-- Why a grant was refused. -/
inductive GrantRefusal where
  /-- The path could not be resolved. -/
  | unresolvedPath (e : Path.InvalidPath)
  /-- The path is the root. -/
  | rootPath
  /-- A reserved name stands before the last segment. -/
  | reservedSegment
  /-- The last segment is the name of memberships. -/
  | membershipSegment
  /-- The target is no group, and no such player exists. -/
  | unknownPlayer (target : String)
  /-- The actor's level at the path does not suffice. -/
  | notAuthorized (actor : String) (held : Level) (path : String) (requested : Level)
  /-- There is nothing to remove. -/
  | notFound (target path : String)
  /-- The target has that level there already. -/
  | alreadyAtLevel (target path : String) (level : Level)
  /-- The target is a group without a tree, and the actor may not make one. -/
  | unknownGroup (target : String)

namespace GrantRefusal

/-- The word for a refusal. -/
def code : GrantRefusal → String
  | unresolvedPath _ | rootPath | reservedSegment | membershipSegment => "invalid_path"
  | unknownPlayer _ => "unknown_principal"
  | notAuthorized .. => "not_authorized"
  | notFound .. => "not_found"
  | alreadyAtLevel .. => "already_at_level"
  | unknownGroup _ => "unknown_group"

/-- The message of a refusal. -/
def message : GrantRefusal → String
  | unresolvedPath e => e.message
  | rootPath => "the root itself cannot be granted"
  | reservedSegment => "'.', '*' and '?' may only appear as the final segment"
  | membershipSegment => "'?' is reserved for group memberships"
  | unknownPlayer target => "There is no such player: " ++ Text.quoted target
  | notAuthorized actor held path requested =>
    Text.quoted actor ++ " holds " ++ Level.name held ++ " at " ++ path ++ " and may not grant "
      ++ Level.name requested
  | notFound target path => Text.quoted target ++ " has no explicit access at " ++ path
  | alreadyAtLevel target path level =>
    Text.quoted target ++ " already has " ++ Level.name level ++ " at " ++ path
  | unknownGroup target =>
    "No such group " ++ Text.quoted target ++ "; only archwizards can create groups"

end GrantRefusal

/-- The answer to a grant. -/
structure GrantResult where
  /-- The principal whose tree was to change. -/
  target : String
  /-- The canonical path; nothing if the path was invalid. -/
  path : Option String
  /-- The level that was to be granted. -/
  level : Level
  /-- What happened. -/
  verdict : Except GrantRefusal GrantOutcome

/-- Why a resolved path is none that an entry can stand at. -/
def grantPathProblem? (segments : List String) : Option GrantRefusal :=
  match segments.getLast? with
  | none => some .rootPath
  | some last =>
    if segments.dropLast.any isReserved then some .reservedSegment
    else if last == groupsKey then some .membershipSegment
    else none

/-- What stands at a path of a branch, modifiers included. -/
def Branch.entry? (b : Branch) : List String → Option Node
  | [] => none
  | [name] => b.find? name
  | name :: path =>
    match Entries.find? b.children name with
    | some (.branch own rest children) => entry? ⟨own, rest, children⟩ path
    | _ => none

namespace Call

/-- Whether a grant would change nothing: the target has the level at the path, and in the case of a group
its own tree says so at that very place. -/
def alreadyAtLevel (target : String) (kind : PrincipalKind) (segments : List String) (g : Grade) :
    Call Bool := do
  if (← evaluate segments target).level != some g then return false
  else if kind != .group then return true
  else return (((← get).db.find? target).bind (·.root.entry? segments)).any (·.isLeafOf g)

/-- Removes the entry of a target at a path. -/
def removeEntry (acting target : String) (segments : List String) (resolved : String) :
    Call (Except GrantRefusal GrantOutcome) := do
  let db := (← get).db
  let (outcome, t) := match db.find? target with
    | some t => t.revoke segments
    | none => (RevokeOutcome.notFound, {})
  match outcome with
  | .notFound => return .error (.notFound target resolved)
  | .removed =>
    modify ({ · with db := db.set target t })
    audit (.removed acting target resolved)
    persist
    return .ok .removed
  | .principalRemoved =>
    modify ({ · with db := db.remove target })
    audit (.removed acting target resolved)
    persist
    return .ok .principalRemoved

/-- Sets the entry of a target at a path, the actor being entitled to it. -/
def setEntry (acting target : String) (segments : List String) (resolved : String) (g : Grade) :
    Call (Except GrantRefusal GrantOutcome) := do
  let kind := (← get).rules.kindOf target
  if ← alreadyAtLevel target kind segments g then
    return .error (.alreadyAtLevel target resolved (some g))
  else
    let s ← get
    let created := kind == .group && !s.db.has target
    if created && !(s.isArchwizard acting || s.rules.isAdmin acting) then
      return .error (.unknownGroup target)
    else
      modify fun s => { s with db := s.db.set target ((s.db.treeOf target).grant segments g) }
      audit (.granted acting target resolved g)
      persist
      return .ok (if created then .groupCreated else .granted)

/-- Grants on a resolved path. -/
def grantAt (acting target : String) (segments : List String) (level : Level) :
    Call (Except GrantRefusal GrantOutcome) := do
  match grantPathProblem? segments with
  | some problem => return .error problem
  | none =>
    let s ← get
    let kind := s.rules.kindOf target
    if kind != .group && !s.playerExists target && !(s.rules.isAdmin acting && kind == .fake) then
      return .error (.unknownPlayer target)
    else
      let resolved := Path.render segments
      let held := (← evaluate (segments.filter (· != ownKey)) acting).level
      if !Level.mayGrant held level && !s.rules.isAdmin acting then
        return .error (.notAuthorized acting held resolved level)
      else match level with
        | none => removeEntry acting target segments resolved
        | some g => setEntry acting target segments resolved g

/-- Grants a target a level at a path on behalf of an actor; no access removes the entry there. Only a
removal keeps dots in the path, so that a directory's own entry can be removed. -/
def grant (acting target : String) (path : Value) (level : Level) (cwd : Option String) :
    Call GrantResult := do
  match (← get).resolver.resolve path (some acting) cwd level.isNone with
  | .error e => return ⟨target, none, level, .error (.unresolvedPath e)⟩
  | .ok segments =>
    return ⟨target, some (Path.render segments), level, ← grantAt acting target segments level⟩

end Call

end PathAccess
