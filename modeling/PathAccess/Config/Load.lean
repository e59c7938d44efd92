import PathAccess.Config.Basic
import PathAccess.Disk.Basic
import PathAccess.Yaml.Reader
/-!
# Loading a configuration

A configuration is a YAML text with a mapping in it. A text with nothing in it stands for all defaults.
-/

namespace PathAccess

/-- Why there is no configuration. -/
inductive ConfigError where
  /-- There is no file at this path. -/
  | missing (path : String)
  /-- The text is no YAML, for the given reason. -/
  | unreadable (source reason : String)
  /-- The text holds a value that does not exist, for the given reason. -/
  | impossible (reason : String)
  /-- The text holds something else than a mapping. -/
  | notMapping (source : String)
  /-- The mapping has problems. -/
  | invalid (source : String) (first : Config.Problem) (others : List Config.Problem)

/-- The message of an error. -/
def ConfigError.message : ConfigError → String
  | missing path => "Access config not found: " ++ path
  | unreadable source reason => source ++ ": invalid YAML: " ++ reason
  | impossible reason => reason
  | notMapping source => source ++ ": expected a mapping at top level"
  | invalid source p ps =>
    let count := ps.length + 1
    source ++ ": " ++ toString count ++ " validation error" ++ (if count == 1 then "" else "s") ++ "\n"
      ++ "\n".intercalate ((p :: ps).map Config.Problem.text)

namespace Config

/-- The configuration in a text. -/
def ofText (source text : String) : Except ConfigError Config :=
  match Yaml.read text with
  | .error (.impossibleValue reason) => .error (.impossible reason)
  | .error e => .error (.unreadable source e.message)
  | .ok v =>
    match (if v.isVoid then .map [] else v) with
    | .map items =>
      match ofItems items with
      | .ok c => .ok c
      | .bad p ps => .error (.invalid source p ps)
    | _ => .error (.notMapping source)

/-- The configuration in a file. -/
def load (d : Disk) (path : String) : Except ConfigError Config :=
  match d.content? path with
  | none => .error (.missing path)
  | some text => ofText path text

end Config

end PathAccess
