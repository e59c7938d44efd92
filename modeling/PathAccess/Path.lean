import PathAccess.Directory
import PathAccess.Text.Blank
import PathAccess.Text.Case
import PathAccess.Value.Display
/-!
# Paths

A textual path becomes the list of segments that a tree is walked along. A path that begins with `~` is
expanded to a home directory, an absolute path is used as it is, and any other is taken from a working
directory.

The text is then split at slashes and collapsed from right to left: empty parts vanish, and each `..`
skips the nearest part to its left that would be kept. A `..` with nothing to skip vanishes. A part `.`
vanishes too, unless dots are kept so that a branch's own entry can be addressed.
-/

namespace PathAccess

namespace Path

/-- Collapses parts that are given last first; `skip` is the number of parts still to be skipped. The
result is last first as well. -/
def collapseReversed (keepDots : Bool) (skip : Nat) : List String → List String
  | [] => []
  | part :: parts =>
    if part == "" then collapseReversed keepDots skip parts
    else if part == ".." then collapseReversed keepDots (skip + 1) parts
    else if part == "." && !keepDots then collapseReversed keepDots skip parts
    else if skip = 0 then part :: collapseReversed keepDots 0 parts
    else collapseReversed keepDots (skip - 1) parts

/-- Collapses the parts of a path into its segments. -/
def collapse (parts : List String) (keepDots : Bool) : List String :=
  (collapseReversed keepDots 0 parts.reverse).reverse

/-- The segments as an absolute path. -/
def render (segments : List String) : String :=
  "/" ++ "/".intercalate segments

/-- Why a path has no segments: it is no text, or an empty one. -/
structure InvalidPath where
  /-- The value that was given as a path. -/
  path : Value

/-- The message of a refused path. -/
def InvalidPath.message (e : InvalidPath) : String :=
  "Invalid path " ++ e.path.quoted ++ ": path must be a non-empty string"

/-- The name that paths are resolved for when nobody acts. -/
def nobody : String := "nobody"

/-- Whether a principal has no home directory. -/
def isHomeless (name : String) : Bool :=
  name == "root" || name == "backbone"

/-- What paths are resolved against: the first segments of home directories, and the directory of
players, if there is one, for the acting principal and the working directories. -/
structure Resolver where
  /-- The first segment of a group's home. -/
  domainRoot : String := "d"
  /-- The first segment of a player's home. -/
  playerRoot : String := "players"
  /-- The directory of players. -/
  directory : Option Directory := none

namespace Resolver

variable (r : Resolver)

/-- The home directory that a name stands for after `~`: a domain if it begins with an upper-case letter
from `A` to `Z`. -/
def homeOfTilde (name : String) : String :=
  match name.toList with
  | c :: _ =>
    if 'A' ≤ c && c ≤ 'Z' then "/" ++ r.domainRoot ++ "/" ++ name
    else "/" ++ r.playerRoot ++ "/" ++ name
  | [] => "/" ++ r.playerRoot ++ "/" ++ name

/-- The home directory of a principal: a domain if the name begins with an upper-case character. -/
def homeOf (name : String) : String :=
  match name.toList with
  | c :: _ =>
    if Text.isUpper c then "/" ++ r.domainRoot ++ "/" ++ name
    else "/" ++ r.playerRoot ++ "/" ++ name
  | [] => "/" ++ r.playerRoot ++ "/" ++ name

/-- The working directory for a relative path: the given one, or that of the acting principal in the
directory of players, or none. -/
def workingDirectory (acting cwd : Option String) : String :=
  match cwd with
  | some dir => dir
  | none => ((do (← r.directory).workingDirectory (← acting)).getD "")

/-- The principal that a path is resolved for: the given one, or else the current one of the directory. An
empty name stands for nobody, who may still have a working directory. -/
def actor (acting : Option String) : Option String :=
  (acting <|> r.directory.bind (·.current)).map fun name => if name == "" then nobody else name

/-- The absolute form of a path's text, before it is split. -/
def join (path : List Char) (acting cwd : Option String) : String :=
  let text := String.ofList path
  match path with
  | '~' :: rest =>
    match rest with
    | [] => bareHome []
    | '/' :: _ => bareHome rest
    | _ => r.homeOfTilde (String.ofList rest)
  | '/' :: _ => "/" ++ String.ofList (path.dropWhile (· == '/'))
  | _ => if cwd == some "/" then "/" ++ text else r.workingDirectory acting cwd ++ "/" ++ text
where
  /-- The acting principal's own home followed by `rest`; without a home only the path below it. -/
  bareHome (rest : List Char) : String :=
    let name := acting.getD nobody
    if isHomeless name then String.ofList (rest.drop 1)
    else "/" ++ r.playerRoot ++ "/" ++ name ++ String.ofList rest

/-- The segments of a path, for an acting principal and a working directory if these are given. -/
def resolve (path : Value) (acting cwd : Option String) (keepDots : Bool) :
    Except InvalidPath (List String) :=
  match path with
  | .scalar (.text s) =>
    if s.isEmpty then .error ⟨path⟩
    else .ok (collapse (Text.splitAt '/' (r.join s.toList (r.actor acting) cwd)) keepDots)
  | _ => .error ⟨path⟩

/-- The canonical form of a path. -/
def canonical (path : Value) (acting cwd : Option String) : Except InvalidPath String :=
  (r.resolve path acting cwd false).map render

end Resolver

end Path

end PathAccess
