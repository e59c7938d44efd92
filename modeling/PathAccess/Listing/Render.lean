import PathAccess.Json.Printer
import PathAccess.Page.Basic
import PathAccess.Service.Listing
import PathAccess.Tree.Rows
import PathAccess.Yaml.Printer
/-!
# Showing a listing

A listing as plain text, as JSON, or as a page with a table for each tree. Trees are numbered in order of
priority, unless the listing shows their combined effect.
-/

namespace PathAccess

/-- The forms in which a listing is shown. -/
inductive ListingFormat where
  /-- A page with tables. -/
  | rich
  /-- Plain text. -/
  | plain
  /-- JSON text. -/
  | json
  deriving DecidableEq

namespace ListingFormat

/-- The word for a form. -/
def name : ListingFormat → String
  | rich => "rich"
  | plain => "plain"
  | json => "json"

/-- The form of a word. -/
def ofName? (s : String) : Option ListingFormat :=
  [rich, plain, json].find? (·.name == s)

end ListingFormat

/-- The title of a tree. -/
def OwnedTree.title (t : OwnedTree) : String :=
  if t.owner == defaultPrincipal then "'*' (default privileges)"
  else (if isGroupName t.owner then "group '" else "user '") ++ t.owner ++ "'"

/-- The stored form of a tree, as text in ASCII. -/
def OwnedTree.storedText (t : OwnedTree) : String :=
  Yaml.print false t.tree.toValue

namespace Listing

variable (l : Listing)

/-- The trees with their titles and numbers. -/
def numbered : List (OwnedTree × String) :=
  l.sections.zipIdx.map fun (t, i) => (t, "#" ++ toString (i + 1) ++ " " ++ t.title)

/-- What stands above the listing. -/
def heading : String :=
  "Access privileges (" ++ l.mode.name ++ ") for " ++ (if isGroupName l.listedAs then "group" else "user")
    ++ ": " ++ l.listedAs
    ++ if l.fallback then
        " (no entry for " ++ Text.quoted l.principal ++ "; default privileges apply)"
      else ""

/-- A text filled up with blanks to a length. -/
def padded (length : Nat) (s : String) : String :=
  s ++ String.ofList (List.replicate (length - s.length) ' ')

/-- The lines of a tree in plain text. -/
def plainLines (t : OwnedTree) (title : String) : List String :=
  let body :=
    if l.mode == .raw then (Text.splitAt '\n' t.storedText).dropLast
    else t.tree.root.rows.map fun r => padded 40 r.path ++ " " ++ r.grade.name
  (if l.mode == .effective then [] else ["  " ++ title ++ ":"]) ++ body.map ("    " ++ ·)

/-- The listing as plain text. -/
def plain : String :=
  let rule := String.ofList (List.replicate 60 '-')
  "\n".intercalate ([rule, " " ++ l.heading, rule] ++ l.numbered.flatMap (fun (t, title) => l.plainLines t title)
    ++ [rule])

/-- A tree as data. -/
def sectionValue (t : OwnedTree) : Value :=
  .record [("owner", .text t.owner), ("tree", t.tree.toValue),
    ("entries", .list (t.tree.root.rows.map fun r =>
      .record [("path", .text r.path), ("level", .text r.grade.name)]))]

/-- The listing as data. -/
def toValue : Value :=
  .record [("principal", .text l.principal), ("listed_as", .text l.listedAs), ("mode", .text l.mode.name),
    ("fallback_to_default", .bool l.fallback), ("sections", .list (l.sections.map sectionValue))]

/-- The listing as JSON text. -/
def json : String :=
  Json.indented 0 l.toValue

/-- The parts of the page for a tree. -/
def treeBlocks (t : OwnedTree) (title : String) : List Block :=
  if l.mode == .raw then [.styled ("[bold]" ++ title ++ "[/bold]"), .literal t.storedText]
  else [.table {
    title := if l.mode == .detailed then some title else none
    columns := [{ header := "Path" }, { header := "Access" }]
    rows := t.tree.root.rows.map fun r => [r.path, r.grade.name] }]

/-- The listing as a page. -/
def blocks : List Block :=
  .panel none l.heading :: l.numbered.flatMap (fun (t, title) => l.treeBlocks t title)
    ++ if l.mode == .effective then []
      else [.styled "[dim]Listed in order of priority (earlier overrules later).[/dim]"]

/-- The listing in a form. -/
def render : ListingFormat → String
  | .rich => pageText 100 l.blocks
  | .plain => l.plain
  | .json => l.json

end Listing

end PathAccess
