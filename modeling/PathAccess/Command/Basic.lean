import PathAccess.Command.Arguments
import PathAccess.Disk.Basic
import PathAccess.Level
import PathAccess.Listing.Render
import PathAccess.Text.Numeral
/-!
# Commands

What can be asked for on a command line, and how the words of the line say it.
-/

namespace PathAccess

/-- A command. -/
inductive Command where
  /-- Shows the version. -/
  | version
  /-- Writes a first configuration and database; if forced, in place of existing ones. -/
  | init (force : Bool)
  /-- Shows the canonical form of a path, with its dots if they are kept. -/
  | resolve (path principal : String) (cwd : Option String) (keepDots : Bool)
  /-- Decides whether a principal holds a level at a path. -/
  | check (path principal : String) (required : Level) (cwd : Option String) (ownSession : Bool)
  /-- Shows the level of a principal at a path. -/
  | level (path principal : String) (cwd : Option String)
  /-- Grants a level at a path, or removes the entry there. -/
  | grant (target : String) (level : Level) (path actor : String) (cwd : Option String)
  /-- Adds a player to a group, or removes it. -/
  | member (target group actor : String) (add : Bool)
  /-- Lists all groups, or those of a principal. -/
  | groups (name : Option String)
  /-- Lists the trees of a principal. -/
  | list (name : String) (mode : Option ListingMode) (format : ListingFormat)
  /-- Resets a principal. -/
  | reset (target actor : String)
  /-- Shows the most recent records of the audit log, of one kind of event if one is given. -/
  | auditTrail (last : Int) (event : Option String)

namespace Command

/-! ### Options -/

/-- The option that asks for help. -/
def helpOption : CommandOption := { names := ["--help"], hasValue := false }

/-- The options of the tool itself, in front of a command. -/
def toolOptions : List CommandOption :=
  [{ names := ["--config", "-c"] }, { names := ["--version"], hasValue := false }, helpOption]

/-- The option for a working directory. -/
def cwdOption : CommandOption := { names := ["--cwd"] }

/-- The option for the principal that is asked about. -/
def asOption : CommandOption := { names := ["--as"] }

/-- The option for the principal that acts. -/
def actorOption : CommandOption := { names := ["--actor"] }

/-- An option without a value. -/
def flagOption (name : String) : CommandOption := { names := [name], hasValue := false }

/-! ### Reading the words of a command -/

/-- Turns a mistake into a stop. -/
def orStop {α : Type} : Except UsageError α → Except Stop α
  | .ok a => .ok a
  | .error e => .error (.mistake e)

/-- Reads the words of a command, and stops if help is asked for. -/
def readWords (known : List CommandOption) (words : List String) : Except Stop Words := do
  let ws ← orStop (Words.read (helpOption :: known) false {} words)
  if ws.has "--help" then throw .help else return ws

/-- The level in a word. -/
def readLevel (parameter word : String) : Except UsageError Level :=
  match Level.parse (.text word) with
  | .ok l => .ok l
  | .error e => .error (.badValue parameter e.message)

/-- One of some choices. -/
def readChoice {α : Type} (ofName? : String → Option α) (option word : String) : Except UsageError α :=
  match ofName? word with
  | some a => .ok a
  | none => .error (.badValue option (Text.quoted word ++ " is not one of the choices."))

/-- The whole number in a word. -/
def readNumber (option word : String) : Except UsageError Int :=
  match Text.int? (Text.strip word) with
  | some n => .ok n
  | none => .error (.badValue option (Text.quoted word ++ " is not a valid integer."))

/-- Reads the rest of a line whose first word asks for a path to be resolved. -/
def readResolve (words : List String) : Except Stop Command := do
  let ws ← readWords [asOption, cwdOption, flagOption "--dots"] words
  let [path] := ws.arguments | orStop (.error (ws.mismatch ["PATH"]))
  return .resolve path (← orStop (ws.required "--as")) (ws.value? "--cwd") (ws.has "--dots")

/-- Reads the rest of a line whose first word asks for a check. -/
def readCheck (words : List String) : Except Stop Command := do
  let ws ← readWords [asOption, { names := ["--level"] }, cwdOption, flagOption "--session"] words
  let [path] := ws.arguments | orStop (.error (ws.mismatch ["PATH"]))
  let principal ← orStop (ws.required "--as")
  let required ← orStop (do readLevel "--level" (← ws.required "--level"))
  return .check path principal required (ws.value? "--cwd") (ws.has "--session")

/-- Reads the rest of a line whose first word asks for a level. -/
def readLevelCommand (words : List String) : Except Stop Command := do
  let ws ← readWords [asOption, cwdOption] words
  let [path] := ws.arguments | orStop (.error (ws.mismatch ["PATH"]))
  return .level path (← orStop (ws.required "--as")) (ws.value? "--cwd")

/-- Reads the rest of a line whose first word grants. -/
def readGrant (words : List String) : Except Stop Command := do
  let ws ← readWords [actorOption, cwdOption] words
  let [target, word, path] := ws.arguments | orStop (.error (ws.mismatch ["TARGET", "LEVEL", "PATH"]))
  let granted ← orStop (readLevel "LEVEL" word)
  return .grant target granted path (← orStop (ws.required "--actor")) (ws.value? "--cwd")

/-- Reads the rest of a line whose first words change a membership. -/
def readMember (add : Bool) (words : List String) : Except Stop Command := do
  let ws ← readWords [actorOption] words
  let [target, group] := ws.arguments | orStop (.error (ws.mismatch ["TARGET", "GROUP"]))
  return .member target group (← orStop (ws.required "--actor")) add

/-- Reads the rest of a line whose first word lists groups. An empty name is none. -/
def readGroups (words : List String) : Except Stop Command := do
  let ws ← readWords [] words
  match ws.arguments with
  | [] => return .groups none
  | [name] => return .groups (if name == "" then none else some name)
  | _ => orStop (.error (ws.mismatch ["NAME"]))

/-- Reads the rest of a line whose first word lists trees. -/
def readList (words : List String) : Except Stop Command := do
  let ws ← readWords [{ names := ["--mode"] }, { names := ["--format", "-f"] }] words
  let [name] := ws.arguments | orStop (.error (ws.mismatch ["NAME"]))
  let mode ← orStop ((ws.value? "--mode").mapM (readChoice ListingMode.ofName? "--mode"))
  let format ← orStop ((ws.value? "--format").mapM (readChoice ListingFormat.ofName? "--format"))
  return .list name mode (format.getD .rich)

/-- Reads the rest of a line whose first word resets. -/
def readReset (words : List String) : Except Stop Command := do
  let ws ← readWords [actorOption] words
  let [target] := ws.arguments | orStop (.error (ws.mismatch ["TARGET"]))
  return .reset target (← orStop (ws.required "--actor"))

/-- Reads the rest of a line whose first words show the audit log. An empty kind of event is none. -/
def readAuditTrail (words : List String) : Except Stop Command := do
  let ws ← readWords [{ names := ["--last", "-n"] }, { names := ["--event"] }] words
  if !ws.arguments.isEmpty then orStop (.error (ws.mismatch []))
  let last ← orStop ((ws.value? "--last").mapM (readNumber "--last"))
  return .auditTrail (last.getD 20) ((ws.value? "--event").filter (· != ""))

/-- Reads the rest of a line whose first word asks for the version. -/
def readVersion (words : List String) : Except Stop Command := do
  let ws ← readWords [] words
  if !ws.arguments.isEmpty then orStop (.error (ws.mismatch []))
  return .version

/-- Reads the rest of a line whose first word sets up the files. -/
def readInit (words : List String) : Except Stop Command := do
  let ws ← readWords [flagOption "--force"] words
  if !ws.arguments.isEmpty then orStop (.error (ws.mismatch []))
  return .init (ws.has "--force")

/-- Reads words that begin with the second word of a command, one of those given. -/
def readSecond (commands : List (String × (List String → Except Stop Command))) (words : List String) :
    Except Stop Command := do
  let ws ← orStop (Words.read [helpOption] true {} words)
  if ws.has "--help" then throw .help
  match ws.arguments with
  | [] => throw (.mistake .missingCommand)
  | name :: rest =>
    match commands.lookup name with
    | some readRest => readRest rest
    | none => throw (.mistake (.unknownCommand name))

/-- The commands by their first word. -/
def byName : List (String × (List String → Except Stop Command)) := [
  ("version", readVersion),
  ("init", readInit),
  ("resolve", readResolve),
  ("check", readCheck),
  ("level", readLevelCommand),
  ("grant", readGrant),
  ("group", readSecond [("add", readMember true), ("remove", readMember false)]),
  ("groups", readGroups),
  ("show", readList),
  ("reset", readReset),
  ("audit", readSecond [("show", readAuditTrail)])]

end Command

/-- A command line: which configuration it uses, and what it asks for. -/
structure CommandLine where
  /-- The path of the configuration, in normal form. -/
  configPath : String
  /-- The command. -/
  command : Command

namespace CommandLine

/-- The path of the configuration if none is given. -/
def defaultConfigPath : String := "access.yaml"

/-- Reads a command line, on a disk on which the configuration must not be a directory. -/
def read (d : Disk) (words : List String) : Except Stop CommandLine := do
  let ws ← Command.orStop (Words.read Command.toolOptions true {} words)
  if ws.has "--version" then throw .version
  if ws.has "--help" then throw .help
  let path := (ws.value? "--config").getD defaultConfigPath
  let configPath := FilePath.normal path
  if path != "" && d.isDirectory configPath then
    throw (.mistake (.badValue "--config" ("File " ++ Text.quoted path ++ " is a directory.")))
  match ws.arguments with
  | [] => throw (.mistake .missingCommand)
  | name :: rest =>
    match Command.byName.lookup name with
    | some readRest => return ⟨configPath, ← readRest rest⟩
    | none => throw (.mistake (.unknownCommand name))

end CommandLine

end PathAccess
