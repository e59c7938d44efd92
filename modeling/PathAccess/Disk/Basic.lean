import PathAccess.Disk.FilePath
import PathAccess.Entries
import PathAccess.Text.Quoted
/-!
# The disk

Files with their contents, and directories. A file is replaced in four steps, so that there is never half a
file under its name: the directory is made, a temporary file is created in it, the content is written there,
and the temporary file takes the name of the file. Any one step can fail, and writing may then have got some of
the content into the temporary file. Two steps fail on their own: no directory can be made where a file is, and
no file takes the name of a directory. Whenever the steps end, a temporary file that still has its own name is
removed.
-/

namespace PathAccess

/-- The files and directories. Paths are in normal form. -/
structure Disk where
  /-- The contents of the files. -/
  files : Entries String String := []
  /-- The directories that were made; those of files count without being listed. -/
  directories : List String := []

/-- The steps of replacing a file. -/
inductive DiskStep where
  /-- Making the directory. -/
  | makeDirectory
  /-- Creating a temporary file. -/
  | createTemporary
  /-- Writing the content. -/
  | writeTemporary
  /-- Moving the temporary file to the name of the file. -/
  | moveIntoPlace
  deriving DecidableEq

/-- A step that fails, and why. -/
structure DiskFault where
  /-- The step. -/
  step : DiskStep
  /-- The reason. -/
  cause : String
  /-- How many characters get into the temporary file, if it is writing that fails. -/
  written : Nat := 0

/-- The fault of a full disk. -/
def DiskFault.full : DiskFault where
  step := .moveIntoPlace
  cause := "[Errno 28] No space left on device"

namespace Disk

/-- The content of a file. -/
def content? (d : Disk) (path : String) : Option String :=
  Entries.find? d.files path

/-- Whether there is a file. -/
def isFile (d : Disk) (path : String) : Bool :=
  Entries.has d.files path

/-- All directories. -/
def allDirectories (d : Disk) : List String :=
  (d.directories ++ d.directories.flatMap FilePath.ancestors
    ++ (Entries.keys d.files).flatMap FilePath.ancestors).eraseDups

/-- Whether there is a directory. The working directory and the root are there. -/
def isDirectory (d : Disk) (path : String) : Bool :=
  path == "." || path == "/" || path == "//" || d.allDirectories.contains path

/-- Whether there is something at a path. -/
def exists? (d : Disk) (path : String) : Bool :=
  d.isFile path || d.isDirectory path

/-- The paths of all files and directories, sorted. -/
def list (d : Disk) : List String :=
  (Entries.keys d.files ++ d.allDirectories).mergeSort fun a b => decide (a ≤ b)

/-- Writes a file. -/
def write (d : Disk) (path content : String) : Disk :=
  { d with files := Entries.set d.files path content }

/-- Adds text at the end of a file, which is created if it is not there. -/
def append (d : Disk) (path text : String) : Disk :=
  d.write path ((d.content? path).getD "" ++ text)

/-- Removes a file. -/
def remove (d : Disk) (path : String) : Disk :=
  { d with files := Entries.remove d.files path }

/-- Makes a directory and those around it. No directory can be where a file is. -/
def makeDirectory (d : Disk) (path : String) : Except String Disk :=
  if d.isDirectory path then .ok d
  else if d.isFile path then .error ("[Errno 17] File exists: " ++ Text.quoted path)
  else if (FilePath.ancestors path).any d.isFile then
    .error ("[Errno 20] Not a directory: " ++ Text.quoted path)
  else .ok { d with directories := d.directories ++ [path] }

/-- A path beside the given one at which there is no file: its name is longer than all paths. -/
def temporaryPath (d : Disk) (path : String) : String :=
  let length := ((Entries.keys d.files).map String.length).foldl Nat.max 0
  FilePath.below (FilePath.parent path)
    ("." ++ FilePath.name path ++ "." ++ String.ofList (List.replicate length 'x') ++ ".tmp")

end Disk

/-- A file that is being replaced. -/
structure Replacing where
  /-- The disk as it is. -/
  disk : Disk
  /-- The temporary file, as long as it has its own name. -/
  temporary : Option String := none

namespace Replacing

variable (path content : String)

/-- Takes a step that does not fail for a fault. -/
def step (r : Replacing) : DiskStep → Except String Replacing
  | .makeDirectory => (r.disk.makeDirectory (FilePath.parent path)).map ({ r with disk := · })
  | .createTemporary =>
    let temporary := r.disk.temporaryPath path
    .ok { disk := r.disk.write temporary "", temporary := some temporary }
  | .writeTemporary =>
    match r.temporary with
    | some temporary => .ok { r with disk := r.disk.write temporary content }
    | none => .ok r
  | .moveIntoPlace =>
    match r.temporary with
    | some temporary =>
      if r.disk.isDirectory path then
        .error ("[Errno 21] Is a directory: " ++ Text.quoted temporary ++ " -> " ++ Text.quoted path)
      else
        let moved := (r.disk.content? temporary).getD ""
        .ok { disk := (r.disk.remove temporary).write path moved }
    | none => .ok r

/-- What is left where a fault strikes. -/
def struck (r : Replacing) (f : DiskFault) : Replacing :=
  match f.step, r.temporary with
  | .writeTemporary, some temporary =>
    { r with disk := r.disk.write temporary (String.ofList (content.toList.take f.written)) }
  | _, _ => r

/-- Takes steps up to the first that fails, and gives the reason if one does. -/
def run (fault : Option DiskFault) (r : Replacing) : List DiskStep → Except String Unit × Replacing
  | [] => (.ok (), r)
  | s :: steps =>
    match fault.filter (·.step == s) with
    | some f => (.error f.cause, r.struck content f)
    | none =>
      match r.step path content s with
      | .error cause => (.error cause, r)
      | .ok r => run fault r steps

/-- The disk without the temporary file. -/
def cleared (r : Replacing) : Disk :=
  match r.temporary with
  | some temporary => if r.disk.isFile temporary then r.disk.remove temporary else r.disk
  | none => r.disk

end Replacing

/-- All steps of replacing a file, in order. -/
def DiskStep.all : List DiskStep :=
  [.makeDirectory, .createTemporary, .writeTemporary, .moveIntoPlace]

/-- Replaces the content of a file, and gives the reason if that fails, and the disk afterwards. -/
def Disk.replace (d : Disk) (fault : Option DiskFault) (path content : String) :
    Except String Unit × Disk :=
  let (result, r) := Replacing.run path content fault { disk := d } DiskStep.all
  (result, r.cleared)

end PathAccess
