import PathAccess.Page.Table
/-!
# Pages

What a command shows: texts, framed texts with a title, and tables, one below the other in a given width.
-/

namespace PathAccess

/-- A part of a page. -/
inductive Block where
  /-- Lines that are laid out already. -/
  | verbatim (s : String)
  /-- A text as it is. -/
  | literal (s : String)
  /-- A text with style marks. -/
  | styled (s : String)
  /-- A text with style marks, set apart, with a title. -/
  | panel (title : Option String) (s : String)
  /-- A table. -/
  | table (t : Table)

namespace Block

/-- The width that the frame of a panel takes, with a blank on either side. -/
def panelFrame : Nat := 4

/-- The lines of a part of a page. -/
def lines (pageWidth : Nat) : Block → List (List Char)
  | verbatim s =>
    let ls := Wrap.linesOf s.toList
    if ls.getLast? == some [] then ls.dropLast else ls
  | literal s => Wrap.wrap pageWidth .fold (Markup.shownLiterally s)
  | styled s => Wrap.wrap pageWidth .fold (Markup.shown s)
  | panel title s =>
    (title.map (·.toList)).toList ++ Wrap.wrap (pageWidth - panelFrame) .fold (Markup.shown s)
  | table t => t.lines pageWidth

end Block

/-- The text of a page of a width. -/
def pageText (pageWidth : Nat) (blocks : List Block) : String :=
  String.join ((blocks.flatMap (Block.lines pageWidth)).map fun line => String.ofList line ++ "\n")

end PathAccess
