import PathAccess.Config.Field
import PathAccess.Principal
import PathAccess.Service.Basic
/-!
# Configurations

Where the database and the audit log are kept, which directories and names have a special meaning, and which
players there are. Every section and every field can be left out.
-/

namespace PathAccess

namespace Config

/-- Where the database is kept. -/
structure StoreSettings where
  /-- The path of the file. -/
  path : String := "access_db.yaml"

/-- What is done with events. -/
structure AuditSettings where
  /-- Whether they are written to the audit log. -/
  enabled : Bool := true
  /-- The path of the audit log. -/
  logPath : String := "access_audit.jsonl"
  /-- The session in the records; if there is none, a new one is made up. -/
  session : Option String := none

/-- The players that are known without an outside directory. -/
abbrev Roster := Entries String (Section Player)

end Config

open Config

/-- A configuration. -/
structure Config where
  /-- The version of the form of the configuration. -/
  version : String := "1"
  /-- Where the database is kept. -/
  store : Section StoreSettings := ⟨{}, []⟩
  /-- What is done with events. -/
  audit : Section AuditSettings := ⟨{}, []⟩
  /-- The well-known directories. -/
  layout : Section Layout := ⟨{}, []⟩
  /-- The rules for names. -/
  principals : Section PrincipalRules := ⟨{}, []⟩
  /-- The privilege tiers. -/
  tiers : Section TierPolicy := ⟨{}, []⟩
  /-- The players. -/
  identity : Section Roster := ⟨[], []⟩
  /-- Whatever else is in the configuration. -/
  others : Entries String Value := []

namespace Config

/-! ### Reading -/

/-- The store section. -/
def readStore : Value → Checked (Section StoreSettings) :=
  readSection ["path"] fun items =>
    let d : StoreSettings := {}
    StoreSettings.mk <$> field items "path" d.path readPath

/-- The audit section. -/
def readAudit : Value → Checked (Section AuditSettings) :=
  readSection ["enabled", "log_path", "session_id"] fun items =>
    let d : AuditSettings := {}
    AuditSettings.mk
      <$> field items "enabled" d.enabled readTruth
      <*> field items "log_path" d.logPath readPath
      <*> field items "session_id" d.session readOptionalText

/-- The layout section. -/
def readLayout : Value → Checked (Section Layout) :=
  readSection ["domain_root", "player_root", "character_root", "open_dir"] fun items =>
    let d : Layout := {}
    Layout.mk
      <$> field items "domain_root" d.domainRoot readName
      <*> field items "player_root" d.playerRoot readName
      <*> field items "character_root" d.characterRoot readName
      <*> field items "open_dir" d.openDir readName

/-- The system names, one of which is the default principal. -/
def readFakeUsers (v : Value) : Checked (List String) :=
  (readList readText v).require (·.contains defaultPrincipal)
    (.rule ("fake_users must include the default principal " ++ Text.quoted defaultPrincipal))

/-- The built-in groups, which have names of groups. -/
def readStaticGroups (v : Value) : Checked (List String) :=
  (readList readText v).andThen fun names =>
    match names.find? (!isGroupName ·) with
    | some name => .fail (.rule ("Static group '" ++ name ++ "' must contain an upper-case letter"))
    | none => .ok names

/-- The section of principals. -/
def readPrincipals : Value → Checked (Section PrincipalRules) :=
  readSection ["fake_users", "static_groups", "admins", "affiliation_prefix"] fun items =>
    let d : PrincipalRules := {}
    PrincipalRules.mk
      <$> field items "fake_users" d.fakeUsers readFakeUsers
      <*> field items "static_groups" d.staticGroups readStaticGroups
      <*> field items "admins" d.admins (readList readText)
      <*> field items "affiliation_prefix" d.affiliationStem readText

/-- The section of tiers. The junior tier does not begin above the full one. -/
def readTiers (v : Value) : Checked (Section TierPolicy) :=
  let tiers := readSection
    ["archwizard_level", "junior_arch_level", "elder_level", "full_group", "junior_group"]
    (fun items =>
      let d : TierPolicy := {}
      TierPolicy.mk
        <$> field items "archwizard_level" d.archwizardLevel readCount
        <*> field items "junior_arch_level" d.juniorArchLevel readCount
        <*> field items "elder_level" d.elderLevel readCount
        <*> field items "full_group" d.fullGroup readText
        <*> field items "junior_group" d.juniorGroup readText) v
  tiers.require (fun s => decide (s.settings.juniorArchLevel ≤ s.settings.archwizardLevel))
    (.rule "junior_arch_level must not exceed archwizard_level")

/-- A player. -/
def readPlayer : Value → Checked (Section Player) :=
  readSection ["level", "affiliations", "cwd"] fun items =>
    let d : Player := {}
    Player.mk
      <$> field items "level" d.level readCount
      <*> field items "affiliations" d.affiliations (readList readText)
      <*> field items "cwd" d.cwd readOptionalText

/-- The section of players. -/
def readIdentity : Value → Checked (Section Roster) :=
  readSection ["players"] fun items => field items "players" [] (readMapping readPlayer)

/-- The configuration of a mapping. -/
def ofItems (items : Items) : Checked Config :=
  let d : Config := {}
  Config.mk
    <$> field items "version" d.version readText
    <*> field items "store" d.store readStore
    <*> field items "audit" d.audit readAudit
    <*> field items "layout" d.layout readLayout
    <*> field items "principals" d.principals readPrincipals
    <*> field items "tiers" d.tiers readTiers
    <*> field items "identity" d.identity readIdentity
    <*> otherItems items ["version", "store", "audit", "layout", "principals", "tiers", "identity"]

/-! ### Writing -/

/-- The fields of the store section. -/
def StoreSettings.fields (s : StoreSettings) : List (String × Value) :=
  [("path", .text s.path)]

/-- The fields of the audit section. -/
def AuditSettings.fields (s : AuditSettings) : List (String × Value) :=
  [("enabled", .bool s.enabled), ("log_path", .text s.logPath), ("session_id", (s.session.map .text).getD .null)]

/-- The fields of the layout section. -/
def layoutFields (l : Layout) : List (String × Value) :=
  [("domain_root", .text l.domainRoot), ("player_root", .text l.playerRoot),
    ("character_root", .text l.characterRoot), ("open_dir", .text l.openDir)]

/-- The fields of the section of principals. -/
def principalFields (r : PrincipalRules) : List (String × Value) :=
  [("fake_users", .texts r.fakeUsers), ("static_groups", .texts r.staticGroups), ("admins", .texts r.admins),
    ("affiliation_prefix", .text r.affiliationStem)]

/-- The fields of the section of tiers. -/
def tierFields (p : TierPolicy) : List (String × Value) :=
  [("archwizard_level", .int p.archwizardLevel), ("junior_arch_level", .int p.juniorArchLevel),
    ("elder_level", .int p.elderLevel), ("full_group", .text p.fullGroup), ("junior_group", .text p.juniorGroup)]

/-- The fields of a player. -/
def playerFields (p : Player) : List (String × Value) :=
  [("level", .int p.level), ("affiliations", .texts p.affiliations), ("cwd", (p.cwd.map .text).getD .null)]

/-- The fields of the section of players. -/
def rosterFields (r : Roster) : List (String × Value) :=
  [("players", .record (r.map fun (name, p) => (name, p.toValue playerFields)))]

variable (c : Config)

/-- The mapping of a configuration, with all fields. -/
def toValue : Value :=
  .record ([("version", .text c.version), ("store", c.store.toValue StoreSettings.fields),
    ("audit", c.audit.toValue AuditSettings.fields), ("layout", c.layout.toValue layoutFields),
    ("principals", c.principals.toValue principalFields), ("tiers", c.tiers.toValue tierFields),
    ("identity", c.identity.toValue rosterFields)] ++ c.others)

/-- The directory of the configured players. -/
def directory (current : Option String) : Directory where
  players := c.identity.settings.map fun (name, p) => (name, p.settings)
  current := current

end Config

end PathAccess
