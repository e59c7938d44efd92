import PathAccess.Audit.Log
import PathAccess.Command.Basic
import PathAccess.Config.Load
import PathAccess.Page.Basic
import PathAccess.Service.Reset
import PathAccess.Service.Grant
import PathAccess.Service.Membership
import PathAccess.Service.Query
/-!
# What a command says

The pages that a command prints and the number it exits with: zero for success, one for a refusal, two if
something is wrong with the command line, the configuration or the storage. Refusals and failures are printed
apart from what was asked for.
-/

namespace PathAccess

/-- How a command ends. -/
inductive ExitCode where
  /-- It did what it was asked for. -/
  | success
  /-- It was refused, or the answer is no. -/
  | refused
  /-- It could not be done. -/
  | failure
  deriving DecidableEq

/-- The number of an exit code. -/
def ExitCode.number : ExitCode → Nat
  | success => 0
  | refused => 1
  | failure => 2

/-- What a command prints, and how it ends. -/
structure Report where
  /-- How the command ends. -/
  exit : ExitCode := .success
  /-- What was asked for. -/
  out : List Block := []
  /-- Why it was refused, or failed. -/
  err : List Block := []

namespace Report

/-- A text in a style. -/
def mark (style s : String) : String :=
  "[" ++ style ++ "]" ++ s ++ "[/" ++ style ++ "]"

/-- A refusal. -/
def refusal (lines : List String) : Report where
  exit := .refused
  err := lines.map .styled

/-- A failure. -/
def failed (lines : List String) : Report where
  exit := .failure
  err := lines.map .styled

/-! ### The tool itself -/

/-- The version of the tool. -/
def toolVersion : String := "0.1.0"

/-- How the tool is used. -/
def usage : String :=
  "Usage: accesstree [OPTIONS] COMMAND [ARGS]..."

/-- The help text. -/
def help : Report where
  out := [.verbatim (usage ++ "\n\nOptions:\n  -c, --config FILE\n  --version\n  --help\n\nCommands:\n"
    ++ "\n".intercalate (Command.byName.map fun (name, _) => "  " ++ name))]

/-- What is said if a command line names no command to run. -/
def ofStop : Stop → Report
  | .help => help
  | .version => { out := [.verbatim ("accesstree, version " ++ toolVersion)] }
  | .mistake e => { exit := .failure, err := [.verbatim (usage ++ "\n\nError: " ++ e.message)] }

/-- What the version command says. -/
def ofVersion : Report where
  out := [.panel (some "Version") (mark "bold" "accesstree" ++ "  v" ++ mark "cyan" toolVersion
    ++ "\nHierarchical path-based authorization engine.")]

/-! ### Errors -/

/-- What is said of a configuration that cannot be used. -/
def ofConfigError (e : ConfigError) : Report :=
  failed [mark "red" "Invalid configuration:" ++ " " ++ e.message]

/-- What is said if the database cannot be saved. -/
def alarm (e : SaveError) : String :=
  mark "bold red" "PANIC:" ++ " " ++ e.message

/-- What is said if a change could not be saved. -/
def unsaved (e : SaveError) : Report :=
  failed [alarm e, mark "yellow" "The change is applied in memory only."]

/-- What is said of an invalid path. -/
def invalidPath (e : Path.InvalidPath) : Report :=
  refusal [mark "red" e.message]

/-- What is said if the service cannot be set up. -/
def ofStartError : ServiceError → Report
  | .unsaved e => failed [alarm e]
  | .invalidPath e => invalidPath e
  | e => failed [mark "red" "Unreadable access database:" ++ " " ++ e.message]

/-- What is said of a name that is unknown; for one of a group also how a group comes about. -/
def unknownPrincipal (e : ServiceError) (name : String) : Report :=
  refusal (mark "red" e.message :: if isGroupName name then
    ["Archwizards can create a group: accesstree grant <Group> <level> <path>"] else [])

/-- What is said if a call of the service has no result. -/
def ofCallError (e : ServiceError) : Report :=
  match e with
  | .unsaved e => unsaved e
  | .invalidPath e => invalidPath e
  | .unknownPrincipal name _ => unknownPrincipal e name
  | .badDocument _ => ofStartError e

/-- What is said of a change that is refused. -/
def refusedChange (code message : String) : Report :=
  refusal [mark "red" ("Refused (" ++ code ++ "):") ++ " " ++ message]

/-! ### Answers -/

/-- The answer to a check of a path. -/
def ofCheck (path : String) (r : CheckResult) : Report where
  exit := if r.allowed then .success else .refused
  out := [
    .panel (some "Access Check Result") (if r.allowed then mark "green" "ALLOWED" else mark "red" "DENIED"),
    .literal ("  Path: " ++ r.path.getD path),
    .styled ("  Required: " ++ mark "cyan" (Level.name r.required)),
    .styled ("  Effective: " ++ mark "cyan" (Level.name r.level))]
    ++ (r.source.map fun source => .styled ("  Decided by: " ++ mark "magenta" source)).toList

/-- The answer to a question for a principal's level. -/
def ofLevel (principal : String) (e : Evaluation) : Report where
  out := [.table {
    columns := [{ header := "Field" }, { header := "Value" }]
    hasHeaders := false
    rows := [["Path", Path.render e.segments], ["Principal", principal], ["Level", Level.name e.level],
      ["Source", e.source.getD "(none)"]] }]

/-- The answer to a grant. -/
def ofGrant (r : GrantResult) : Report :=
  match r.verdict with
  | .error e => refusedChange e.code e.message
  | .ok outcome =>
    let place := " at " ++ r.path.getD ""
    let line := match outcome with
      | .removed | .principalRemoved => mark "green" "Removed" ++ " access of " ++ mark "bold" r.target ++ place
      | .granted | .groupCreated =>
        mark "green" "Granted" ++ " " ++ mark "bold" r.target ++ " " ++ mark "cyan" (Level.name r.level) ++ place
    { out := [.styled line, .styled ("  Outcome: " ++ mark "cyan" outcome.name)] }

/-- The answer to a change of a membership. -/
def ofMembership (r : MembershipResult) : Report :=
  match r.verdict with
  | .error e => refusedChange e.code e.message
  | .ok outcome =>
    let (verb, link) := match outcome with
      | .added => ("Added", " to ")
      | .removed => ("Removed", " from ")
    let groups := if r.groups.isEmpty then "(none)" else ", ".intercalate r.groups
    { out := [.styled (mark "green" verb ++ " " ++ mark "bold" r.target ++ link ++ r.group),
        .styled ("  Groups now: " ++ mark "cyan" groups)] }

/-- The list of groups, and which of them have a tree. -/
def ofGroups (name : Option String) (db : Database) (groups : List String) : Report where
  out := [.table {
    title := some (match name with
      | some name => "Groups of " ++ name
      | none => "All Groups")
    columns := [{ header := "#" }, { header := "Group" }, { header := "Exists" }]
    rows := groups.zipIdx.map fun (group, i) =>
      [toString (i + 1), group, if db.has group then mark "green" "yes" else mark "yellow" "no"] }]
    ++ if groups.isEmpty then [.styled (mark "yellow" "No groups.")] else []

/-- The listing of a principal's trees. -/
def ofListing (format : ListingFormat) (l : Listing) : Report where
  out := [.verbatim (l.render format)]

/-- The answer to a reset. -/
def ofReset (target : String) (verdict : Except ResetRefusal ResetOutcome) : Report :=
  match verdict with
  | .error e => refusedChange e.code e.message
  | .ok _ => { out := [.styled (mark "green" "Reset" ++ " " ++ mark "bold" target ++ " to default access.")] }

/-! ### The audit log -/

/-- A field of a record as a text, or nothing if it is not there. -/
def fieldText (r : Value) (name : String) : String :=
  ((r.field? name).map Value.plain).getD ""

/-- The moment of a record, to the second and with a blank between day and time. -/
def timeText (r : Value) : String :=
  String.ofList (((fieldText r "timestamp").toList.take 19).map fun c => if c == 'T' then ' ' else c)

/-- The fields of a record that are shown together, in their order. -/
def detailText (r : Value) : String :=
  let shown : List (Scalar × Value) := match r with
    | .map es => es.filter fun (k, _) => ["actor", "level", "required", "actual"].contains k.plain
    | _ => []
  ", ".intercalate (shown.map fun (k, v) => k.plain ++ "=" ++ v.plain)

/-- The row of a record. -/
def recordRow (r : Value) : List String :=
  [timeText r, fieldText r "event", fieldText r "principal", fieldText r "path", detailText r]

/-- The records of an audit log that are shown, and the number of all. -/
def ofRecords (records : List Value) (total : Nat) : Report where
  out :=
    if records.isEmpty then [.styled (mark "yellow" "No audit entries found.")]
    else [
      .table {
        title := some ("Last " ++ toString records.length ++ " Audit Events")
        columns := [{ header := "Timestamp", wraps := false }, { header := "Event" }, { header := "Principal" },
          { header := "Path" }, { header := "Details" }]
        rows := records.map recordRow },
      .styled ("  Total audit records: " ++ mark "cyan" (toString total))]

end Report

end PathAccess
