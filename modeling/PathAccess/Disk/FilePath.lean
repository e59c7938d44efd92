import PathAccess.Text.Blank
/-!
# Paths of files

Paths with slashes between their parts. A path is brought to a normal form: no empty parts and no dots that
stand for the directory itself, while two dots stay. A path from the root begins with one slash, or with two
if it is written with exactly two.
-/

namespace PathAccess.FilePath

/-- What a path begins with: nothing, one slash, or two. -/
def root (s : String) : String :=
  match (s.toList.takeWhile (· == '/')).length with
  | 0 => ""
  | 2 => "//"
  | _ => "/"

/-- The parts of a path. -/
def parts (s : String) : List String :=
  (Text.splitAt '/' s).filter fun part => part != "" && part != "."

/-- The path of a root and parts; a dot if there is nothing. -/
def ofParts (root : String) (parts : List String) : String :=
  if root == "" && parts.isEmpty then "." else root ++ "/".intercalate parts

/-- The normal form of a path. -/
def normal (s : String) : String :=
  ofParts (root s) (parts s)

/-- The directory of a path in normal form. -/
def parent (s : String) : String :=
  ofParts (root s) (parts s).dropLast

/-- The last part of a path. -/
def name (s : String) : String :=
  (parts s).getLastD ""

/-- A path below a directory. -/
def below (directory name : String) : String :=
  if directory == "." then name
  else if directory.endsWith "/" then directory ++ name
  else directory ++ "/" ++ name

/-- The directories of a path in normal form, from the outermost on, without the path itself. -/
def ancestors (s : String) : List String :=
  let ps := parts s
  (List.range (ps.length - 1)).map fun i => ofParts (root s) (ps.take (i + 1))

end PathAccess.FilePath
