import PathAccess.Tree.Basic
/-!
# Trees as rows

A tree is shown with one row for each stored grade. The `*` of a branch stands at the directory's path
with a slash at its end, its `.` at that path followed by a dot, and a leaf at its own path. Children are
sorted by name.
-/

namespace PathAccess

/-- A stored grade and where it stands. -/
structure Row where
  /-- The path of the entry. -/
  path : String
  /-- The grade that is stored there. -/
  grade : Grade
  deriving DecidableEq

namespace Node

/-- The rows of all children, put together in the order of the names. -/
def sortRows (children : List (String × List Row)) : List Row :=
  (children.mergeSort fun a b => decide (a.1 ≤ b.1)).flatMap (·.2)

mutual

/-- The rows of a node at the path `base ++ name`. -/
def rows (base name : String) : Node → List Row
  | leaf g => [⟨base ++ name, g⟩]
  | branch own rest children =>
    let dir := base ++ name ++ "/"
    (rest.map (⟨dir, ·⟩)).toList ++ (own.map (⟨dir ++ ownKey, ·⟩)).toList
      ++ sortRows (childRows dir children)

/-- The rows of each child of the directory at `base`. -/
def childRows (base : String) : List (String × Node) → List (String × List Row)
  | [] => []
  | (name, n) :: cs => (name, rows base name n) :: childRows base cs

end

end Node

/-- The rows of a tree's root. -/
def Branch.rows (b : Branch) : List Row :=
  b.toNode.rows "" ""

end PathAccess
