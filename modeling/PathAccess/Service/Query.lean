import PathAccess.Service.Basic
/-!
# Asking for access

The level of a principal at a path, and the decision whether it meets a requirement. A refusal is no
error: it comes back as a result and goes to the audit trail.
-/

namespace PathAccess

/-- The answer to a check. -/
structure CheckResult where
  /-- Whether the level meets the requirement. -/
  allowed : Bool
  /-- The canonical path; nothing if the path was invalid. -/
  path : Option String
  /-- The level of the principal there. -/
  level : Level
  /-- The level that was asked for. -/
  required : Level
  /-- What decided. -/
  source : Option String

namespace Call

/-- The canonical form of a path. -/
def canonicalPath (path : Value) (acting cwd : Option String) : Call String := do
  return Path.render (← resolvePath path acting cwd)

/-- The groups of a principal, highest priority first. -/
def groupsOf (name : String) : Call (List String) := do
  return (← resolveGroups name).groups

/-- The level of a principal at a path, and its source. -/
def effectiveLevel (path : Value) (principal : String) (cwd : Option String) : Call Evaluation := do
  evaluate (← resolvePath path (some principal) cwd) principal

/-- Whether a path is the principal's own character record, which its own session may write: the part of
the last segment before its first dot is the principal's name. -/
def isOwnRecord (s : Service) (segments : List String) (principal : String) (required : Level) : Bool :=
  Level.allows (some .write) required && 3 ≤ segments.length
    && segments.head? == some s.layout.characterRoot
    && (segments.getLast?.map fun last => (Text.splitAt '.' last).head?) == some (some principal)

/-- Decides whether a principal holds at least a level at a path. -/
def check (path : Value) (principal : String) (required : Level) (cwd : Option String)
    (ownSession : Bool) : Call CheckResult := do
  let s ← get
  match s.resolver.resolve path (some principal) cwd false with
  | .error _ =>
    audit (.denied principal path.plain required none)
    return ⟨false, none, none, required, none⟩
  | .ok segments =>
    let resolved := Path.render segments
    if ownSession && isOwnRecord s segments principal required then
      return ⟨true, some resolved, some .write, required, some ruledSource⟩
    else
      let e ← evaluate segments principal
      let allowed := Level.allows e.level required
      if !allowed then audit (.denied principal resolved required e.level)
      return ⟨allowed, some resolved, e.level, required, e.source⟩

end Call

end PathAccess
