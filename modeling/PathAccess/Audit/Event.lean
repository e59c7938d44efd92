import PathAccess.Principal
import PathAccess.Tree.Data
/-!
# Audited events

What the audit trail remembers: refused checks, changes to the trees of players, and resets. Changes to
the trees of groups are not remembered, and refusals of system names are not either.
-/

namespace PathAccess

/-- Something that the audit trail may remember. -/
inductive AuditEvent where
  /-- A check fell short of the required level. -/
  | denied (principal path : String) (required actual : Level)
  /-- An actor set an entry of a principal's tree. -/
  | granted (actor principal path : String) (grade : Grade)
  /-- An actor removed an entry of a principal's tree. -/
  | removed (actor principal path : String)
  /-- An actor reset a principal's tree; the tree before is kept. -/
  | reset (actor principal : String) (previous : Option Value)

namespace AuditEvent

/-- The event of a change to the entry at a path: set to a grade, or removed. -/
def change (actor principal path : String) : Level → AuditEvent
  | some g => granted actor principal path g
  | none => removed actor principal path

/-- Whether an event is remembered. -/
def isKept (rules : PrincipalRules) : AuditEvent → Bool
  | denied principal .. => !rules.isFake principal
  | granted _ principal .. => rules.isPlayer principal
  | removed _ principal _ => rules.isPlayer principal
  | reset .. => true

/-- The word for the kind of event. -/
def kind : AuditEvent → String
  | denied .. => "access_denied"
  | granted .. => "access_granted"
  | removed .. => "access_removed"
  | reset .. => "access_reset"

/-- The fields that tell one event of a kind from another. -/
def fields : AuditEvent → Entries String Value
  | denied principal path required actual => [
      ("principal", .text principal), ("path", .text path), ("required", .text (Level.name required)),
      ("actual", .text (Level.name actual))]
  | granted actor principal path grade => [
      ("actor", .text actor), ("principal", .text principal), ("path", .text path),
      ("level", .text grade.name)]
  | removed actor principal path => [
      ("actor", .text actor), ("principal", .text principal), ("path", .text path)]
  | reset actor principal previous => [
      ("actor", .text actor), ("principal", .text principal), ("previous", previous.getD .null)]

end AuditEvent

/-- The record of an event: its fields, then when it was written, by which session, and of which kind. These
three win over fields of the same name, but keep the place of such a field. -/
def auditRecord (now session kind : String) (fields : Entries String Value) : Entries String Value :=
  Entries.set (Entries.set (Entries.set fields "timestamp" (.text now)) "session_id" (.text session))
    "event" (.text kind)

/-- The record of an audited event. -/
def AuditEvent.record (now session : String) (e : AuditEvent) : Entries String Value :=
  auditRecord now session e.kind e.fields

end PathAccess
