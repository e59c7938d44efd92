import PathAccess.Decimal.Binary64
import PathAccess.Page.Markup
import PathAccess.Page.Wrap
/-!
# Tables

A table has a title, columns with headers, and rows of texts with style marks. Each column is as wide as its
widest text, with a blank on either side. If the columns together are too wide, the widest ones give way
first, and what no longer fits into a column is cut.
-/

namespace PathAccess

/-- A column of a table. -/
structure Column where
  /-- What stands above it. -/
  header : String
  /-- Whether its texts may be broken into lines. -/
  wraps : Bool := true

/-- A table. -/
structure Table where
  /-- What stands above the table. -/
  title : Option String := none
  /-- The columns. -/
  columns : List Column
  /-- Whether the headers are shown. -/
  hasHeaders : Bool := true
  /-- The rows, each with one text for each column. -/
  rows : List (List String)

namespace Table

/-- The blanks on both sides of a column. -/
def padding : Nat := 2

/-- The width that goes into the edges of a table and the lines between its columns. -/
def frame (columns : Nat) : Nat := columns + 1

/-- The sum of some widths. -/
def total (widths : List Nat) : Nat :=
  widths.foldl (· + ·) 0

/-- Takes a total off some values: in equal parts from those that are marked, from none more than its
limit. -/
def reduce (total shares : Nat) : List (Bool × Nat × Nat) → List Nat
  | [] => []
  | (isMarked, limit, value) :: rest =>
    if isMarked && 0 < limit && 0 < shares then
      let part := min limit (Binary64.roundDiv total shares)
      (value - part) :: reduce (total - part) (shares - 1) rest
    else value :: reduce total shares rest

/-- Takes a total off some values; see `reduce`. -/
def reduceBy (total : Nat) (marked : List Bool) (limits values : List Nat) : List Nat :=
  let entries := marked.zip (limits.zip values)
  reduce total (entries.filter fun (m, limit, _) => m && 0 < limit).length entries

/-- Makes the widest columns narrower, of those that may be, until all fit into a width, in at most so many
rounds. -/
def collapse (rounds max : Nat) (wraps : List Bool) (widths : List Nat) : List Nat :=
  match rounds with
  | 0 => widths
  | rounds + 1 =>
    let excess := total widths - max
    let free := (wraps.zip widths).filterMap fun (w, n) => if w then some n else none
    let widest := free.foldl Nat.max 0
    let second := (free.filter (· != widest)).foldl Nat.max 0
    if excess == 0 || widest == second then widths
    else
      let limit := min excess (widest - second)
      let marked := (wraps.zip widths).map fun (w, n) => w && n == widest
      collapse rounds max wraps (reduceBy excess marked (widths.map fun _ => limit) widths)

variable (t : Table)

/-- The cells of the table, the headers first, as they are shown. -/
def cells : List (List (List Char)) :=
  let headers := if t.hasHeaders then [t.columns.map (·.header)] else []
  (headers ++ t.rows).map (·.map Markup.shown)

/-- The width of a text with several lines. -/
def textWidth (cs : List Char) : Nat :=
  ((Wrap.linesOf cs).map Wrap.width).foldl Nat.max 0

/-- The widths of the columns without regard to each other, padding included, up to a limit for each. -/
def measured (limits : List Nat) : List Nat :=
  limits.zipIdx.map fun (limit, i) =>
    min limit ((t.cells.map fun row => textWidth (row[i]?.getD [])).foldl Nat.max 0 + padding)

/-- The widths of the columns, padding included, in a page of a width. -/
def columnWidths (pageWidth : Nat) : List Nat :=
  let max := pageWidth - frame t.columns.length
  let wraps := t.columns.map (·.wraps)
  let widths := t.measured (t.columns.map fun _ => max)
  if total widths ≤ max then widths
  else
    let widths := collapse (total widths) max wraps widths
    let widths :=
      if total widths ≤ max then widths
      else reduceBy (total widths - max) (widths.map fun _ => true) widths widths
    t.measured widths

/-- The lines of one row. -/
def rowLines (widths : List Nat) (row : List (List Char)) : List (List Char) :=
  let laidOut := (t.columns.zip (widths.zip row)).map fun (column, w, cell) =>
    if column.wraps then Wrap.wrap (w - padding) .ellipsis cell else Wrap.cutLines (w - padding) cell
  let height := (laidOut.map List.length).foldl Nat.max 0
  (List.range height).map fun i =>
    ((widths.zip laidOut).flatMap fun (w, lines) =>
      let line := lines[i]?.getD []
      ' ' :: line ++ List.replicate (w - Wrap.width line) ' ')

/-- The lines of the table in a page of a width. -/
def lines (pageWidth : Nat) : List (List Char) :=
  let widths := t.columnWidths pageWidth
  let title := match t.title with
    | some title => Wrap.wrap (total widths + frame t.columns.length) .fold (Markup.shown title)
    | none => []
  title ++ t.cells.flatMap (t.rowLines widths)

end Table

end PathAccess
