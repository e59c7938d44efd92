import PathAccess.Command.Report
import PathAccess.Disk.FileStore
/-!
# Running a command

A command reads the configuration, the database and the audit log from the disk, and leaves changed ones there.
The service works on a database in memory; when it is done, what it saved last is written, and the events for
the audit trail are added to the log, whether or not the database could be saved.
-/

namespace PathAccess

/-- What a command depends on besides the disk. -/
structure Environment where
  /-- The moment of the command. -/
  now : Moment
  /-- The session for records if none is configured. -/
  session : String
  /-- The width of a page. -/
  width : Nat := 80
  /-- What goes wrong when a file is replaced. -/
  fault : Option DiskFault := none

namespace Command

variable (env : Environment)

/-! ### The configuration -/

/-- The configuration in force: the one in the file, or all defaults if there is no file. -/
def configOn (d : Disk) (path : String) : Except ConfigError Config :=
  if d.exists? path then Config.load d path else .ok {}

/-- The file of the configured database. -/
def storeOf (c : Config) : FileStore where
  path := c.store.settings.path
  rules := c.principals.settings

/-! ### The service -/

/-- The service that a configuration sets up, with an acting principal. -/
def openService (d : Disk) (c : Config) (actor : Option String) : Except ServiceError Service :=
  let file := storeOf c
  match file.document d with
  | .error e => .error (.badDocument e)
  | .ok document =>
    let directory := c.directory actor
    Service.start {
      db := {}
      store := some { document, rules := file.rules, source := file.path, fault := file.fault? d env.fault }
      identity := some directory
      affiliations := some directory
      rules := file.rules
      tiers := c.tiers.settings
      layout := c.layout.settings
      auditRules := if c.audit.settings.enabled then some file.rules else none }

/-- The lines for the audit log from the events of a service. -/
def auditLines (c : Config) (s : Service) : String :=
  let session := (c.audit.settings.session.filter (· != "")).getD env.session
  String.join (s.events.map fun e => recordLine (e.record env.now.stamp session))

/-- The disk with what a service leaves there: the document that was saved last, and the lines for the audit
log. -/
def leave (c : Config) (s : Service) (d : Disk) : Disk :=
  let d := match s.store with
    | some { document := some document, saves := _ + 1, .. } => ((storeOf c).saveDocument d env.fault document).2
    | _ => d
  if s.events.isEmpty then d
  else
    let path := c.audit.settings.logPath
    ((d.makeDirectory (FilePath.parent path)).toOption.getD d).append path (auditLines env c s)

/-- Runs a call of the configured service, and reports on its result. -/
def serve {α : Type} (d : Disk) (configPath : String) (actor : Option String) (call : Call α)
    (report : Service → α → Report) : Report × Disk :=
  match configOn d configPath with
  | .error e => (.ofConfigError e, d)
  | .ok c =>
    match openService env d c actor with
    | .error e => (.ofStartError e, d)
    | .ok s =>
      let (result, s) := s.run call
      let said := match result with
        | .ok a => report s a
        | .error e => .ofCallError e
      (said, leave env c s d)

/-! ### Commands without the service -/

/-- The first configuration: the default settings, and one player with the privilege of an archwizard. -/
def starter : Value :=
  let c : Config := {}
  .record [
    ("version", .text c.version),
    ("store", .record c.store.settings.fields),
    ("audit", .record [("enabled", .bool true), ("log_path", .text c.audit.settings.logPath)]),
    ("layout", .record (Config.layoutFields c.layout.settings)),
    ("principals", .record (Config.principalFields c.principals.settings)),
    ("tiers", .record (Config.tierFields c.tiers.settings)),
    ("identity", .record [("players", .record [
      ("admin", .record [("level", .int c.tiers.settings.archwizardLevel)])])])]

/-- Writes the first configuration, and the first database if there is none or it is forced. -/
def initialise (d : Disk) (path : String) (force : Bool) : Report × Disk :=
  if d.exists? path && !force then
    (.refusal [Report.mark "red" "Refusing to overwrite" ++ " " ++ path ++ " (use --force)."], d)
  else
    let d := ((d.makeDirectory (FilePath.parent path)).toOption.getD d).write path (textOfDocument starter)
    let file := storeOf {}
    let done (line : String) : Report := { out := [
      .styled (Report.mark "green" "Initialised" ++ " access config: " ++ Report.mark "bold" path),
      .styled ("  " ++ line ++ " access database: " ++ Report.mark "cyan" file.path)] }
    if !force && d.exists? file.path then (done "Kept existing", d)
    else
      match file.save d env.fault (Database.seeded file.rules) with
      | (.ok _, d) => (done "Seeded", d)
      | (.error e, d) => (.unsaved e, d)

/-- Shows the canonical form of a path. -/
def showPath (d : Disk) (configPath path principal : String) (cwd : Option String) (keepDots : Bool) : Report :=
  match configOn d configPath with
  | .error e => .ofConfigError e
  | .ok c =>
    let resolver : Path.Resolver := {
      domainRoot := c.layout.settings.domainRoot
      playerRoot := c.layout.settings.playerRoot
      directory := some (c.directory (some principal)) }
    match resolver.resolve (.text path) (some principal) cwd keepDots with
    | .ok segments => { out := [.literal (Path.render segments)] }
    | .error e => .invalidPath e

/-- Shows the most recent records of the audit log. -/
def showRecords (d : Disk) (configPath : String) (last : Int) (event : Option String) : Report :=
  match configOn d configPath with
  | .error e => .ofConfigError e
  | .ok c =>
    let log := AuditLog.ofText ((d.content? c.audit.settings.logPath).getD "")
    let found := match event with
      | some kind => log.byEvent kind
      | none => .ok log.records
    match found with
    | .ok records => .ofRecords ((AuditLog.mk records).last last) log.count
    | .error e => .failed [e.message]

/-! ### All commands -/

/-- Runs a command. -/
def run (d : Disk) (configPath : String) : Command → Report × Disk
  | .version => (.ofVersion, d)
  | .init force => initialise env d configPath force
  | .resolve path principal cwd keepDots => (showPath d configPath path principal cwd keepDots, d)
  | .check path principal required cwd ownSession =>
    serve env d configPath (some principal) (Call.check (.text path) principal required cwd ownSession) fun _ r =>
      .ofCheck path r
  | .level path principal cwd =>
    serve env d configPath (some principal) (Call.effectiveLevel (.text path) principal cwd) fun _ e =>
      .ofLevel principal e
  | .grant target granted path actor cwd =>
    serve env d configPath (some actor) (Call.grant actor target (.text path) granted cwd) fun _ r => .ofGrant r
  | .member target group actor add =>
    serve env d configPath (some actor) (Call.changeMembership actor target group add) fun _ r => .ofMembership r
  | .groups (some name) =>
    serve env d configPath none (Call.groupsOf name) fun s groups => .ofGroups (some name) s.db groups
  | .groups none =>
    serve env d configPath none (return (← get).db.allGroups) fun s groups => .ofGroups none s.db groups
  | .list name mode format => serve env d configPath none (Call.list name mode) fun _ l => .ofListing format l
  | .reset target actor =>
    serve env d configPath (some actor) (Call.reset actor target) fun _ r => .ofReset target r.verdict
  | .auditTrail last event => (showRecords d configPath last event, d)

end Command

/-- What a command line prints, and the number it exits with. -/
structure Output where
  /-- The number. -/
  exit : Nat
  /-- What was asked for. -/
  out : String
  /-- Why it was refused, or failed. -/
  err : String

/-- Runs a command line. -/
def runWords (env : Environment) (d : Disk) (words : List String) : Output × Disk :=
  let (report, d) := match CommandLine.read d words with
    | .ok line => Command.run env d line.configPath line.command
    | .error stop => (.ofStop stop, d)
  (⟨report.exit.number, pageText env.width report.out, pageText env.width report.err⟩, d)

end PathAccess
