import PathAccess.Command.Run
import Std.Time.DateTime.Timestamp
/-!
# The program

The outer layer: it reads the files that a command line may need, runs the command line on them, and writes the
files that are different afterwards. If a file cannot be written, the command line is run once more with that
as a fault, so that its report is the one for the fault.
-/

namespace PathAccess.Program

/-- What is found at a path. -/
inductive Found where
  /-- Nothing. -/
  | nothing
  /-- A file with its content. -/
  | file (content : String)
  /-- A directory. -/
  | directory

/-- Looks what is at a path. -/
def look (path : String) : IO Found := do
  try
    return .file (← IO.FS.readFile path)
  catch
    | .noFileOrDirectory .. => return .nothing
    | _ => return .directory

/-- Adds what is found at some paths, each in the directory before it, as far as there is a directory. -/
def gatherAlong (d : Disk) : List String → IO Disk
  | [] => return d
  | path :: paths => do
    match ← look path with
    | .nothing => return d
    | .file content => return d.write path content
    | .directory => gatherAlong { d with directories := d.directories ++ [path] } paths

/-- Adds what is found at a path and at the directories around it. -/
def gather (d : Disk) (path : String) : IO Disk :=
  gatherAlong d (FilePath.ancestors path ++ [path])

/-- The files that a command line may need. -/
def diskFor (words : List String) : IO Disk := do
  match CommandLine.read {} words with
  | .error _ => return {}
  | .ok line =>
    let d ← gather {} line.configPath
    let c := (Command.configOn d line.configPath).toOption.getD {}
    let first : Config := {}
    [c.store.settings.path, c.audit.settings.logPath, first.store.settings.path].foldlM gather d

/-- Writes a file: what is added to it at its end, and anything else as a whole. -/
def put (before : Option String) (path content : String) : IO Unit := do
  IO.FS.createDirAll (FilePath.parent path)
  match before with
  | some old =>
    if old.toList.isPrefixOf content.toList then
      let handle ← IO.FS.Handle.mk path .append
      handle.putStr (String.ofList (content.toList.drop old.length))
      return
  | none => pure ()
  let temporary := path ++ ".tmp"
  IO.FS.writeFile temporary content
  IO.FS.rename temporary path

/-- Writes the files that are different. -/
def putAll (before after : Disk) : IO Unit :=
  after.files.forM fun (path, content) =>
    if before.content? path == some content then pure () else put (before.content? path) path content

/-- A number in hexadecimal digits, with two digits. -/
def hexByte (n : Nat) : List Char :=
  let digits := Nat.toDigits 16 (n % 256)
  List.replicate (2 - digits.length) '0' ++ digits

/-- The name of a session made out of sixteen random bytes. -/
def sessionOf (bytes : List Nat) : String :=
  let marked := bytes.mapIdx fun i n =>
    if i == 6 then 0x40 + n % 16 else if i == 8 then 0x80 + n % 64 else n
  let digits := marked.flatMap hexByte
  let part (first count : Nat) : String := String.ofList ((digits.drop first).take count)
  "-".intercalate [part 0 8, part 8 4, part 12 4, part 16 4, part 20 12]

/-- What a command depends on besides the files. -/
def environment : IO Environment := do
  let now ← Std.Time.Timestamp.now
  let bytes ← IO.getRandomBytes 16
  let columns := (← IO.getEnv "COLUMNS").bind Text.int?
  return {
    now := Moment.ofUnixMicros (now.toNanosecondsSinceUnixEpoch.val / 1000).toNat
    session := sessionOf (bytes.toList.map UInt8.toNat)
    width := (columns.map Int.toNat).getD 80 }

/-- Runs a command line on the files that there are. -/
def runCommandLine (words : List String) : IO Output := do
  let env ← environment
  let before ← diskFor words
  let (output, after) := runWords env before words
  try
    putAll before after
    return output
  catch e =>
    let (output, after) := runWords { env with fault := some { step := .moveIntoPlace, cause := toString e } } before words
    putAll before after
    return output

end PathAccess.Program

open PathAccess in
/-- Runs the command line of the program. -/
def main (words : List String) : IO UInt32 := do
  let output ← Program.runCommandLine words
  IO.print output.out
  IO.eprint output.err
  return UInt32.ofNat output.exit
