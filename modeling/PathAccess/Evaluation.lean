import PathAccess.Tree.Basic
/-!
# Evaluation

What level applies to a path, for a list of trees in order of priority.

Evaluation is lazy and goes segment by segment. Each tree has a **cursor**: the node reached so far,
nothing once the tree is exhausted, and a standing level that holds for what the tree does not name. At
each segment the trees are tried in order, and the first that decides settles the segment. The trees
after it are not consulted, so their cursors stay where they were and lag behind the path.

Two rules about home directories come after that, unless the requester's own tree decided.
-/

namespace PathAccess

/-- How far one tree has been walked. -/
structure Cursor where
  /-- The node reached, or nothing once the walk of this tree is over. -/
  node : Option Node
  /-- The level that stands for whatever is not named from here on. -/
  standing : Level

/-- One segment of the walk of one tree. On the last segment the `.` of a branch applies, on any other its
`*`. A branch is only asked for its `.` when something stands already; when nothing does, its `*` is the
level. -/
def Cursor.step (c : Cursor) (segment : String) (final : Bool) : Cursor :=
  match c.node with
  | none => c
  | some (.leaf g) => ⟨none, some g⟩
  | some (.branch _ rest children) =>
    match Entries.find? children segment with
    | none => ⟨none, rest <|> c.standing⟩
    | some (.leaf g) => ⟨none, some g⟩
    | some (.branch own' rest' children') =>
      let named := if final && c.standing.isSome then own' else rest'
      ⟨some (.branch own' rest' children'), named <|> c.standing⟩

/-- The cursor at the root of a tree. -/
def Tree.cursor (t : Tree) : Cursor :=
  ⟨some t.root.toNode, t.root.rest⟩

/-- One segment of the walk of all trees: the cursors up to the first one that decides move, and its
position comes with the result. -/
def Cursor.stepAll (segment : String) (final : Bool) : List Cursor → Option Nat × List Cursor
  | [] => (none, [])
  | c :: cs =>
    let c := c.step segment final
    if c.standing.isSome then (some 0, c :: cs)
    else
      let (winner, cs) := stepAll segment final cs
      (winner.map (· + 1), c :: cs)

/-- The state of a walk after one segment. -/
structure Step where
  /-- The segment. -/
  segment : String
  /-- The position of the tree that decided it. -/
  winner : Option Nat
  /-- The cursors of all trees. -/
  cursors : List Cursor

/-- The states of a walk from given cursors, one for each segment. -/
def Cursor.walk (cs : List Cursor) : List String → List Step
  | [] => []
  | segment :: rest =>
    let (winner, cs) := stepAll segment rest.isEmpty cs
    ⟨segment, winner, cs⟩ :: walk cs rest

/-- A tree with the name of its owner. -/
structure OwnedTree where
  /-- The owner. -/
  owner : String
  /-- The tree. -/
  tree : Tree

/-- The states of the walk of several trees along a path. -/
def trace (trees : List OwnedTree) (segments : List String) : List Step :=
  Cursor.walk (trees.map (·.tree.cursor)) segments

/-! ### Decisions -/

/-- The name that stands for a rule as the source of a level. -/
def ruledSource : String := "!"

/-- The level at a path and what decided it. -/
structure Evaluation where
  /-- The effective level. -/
  level : Level
  /-- The owner of the deciding tree, or the name that stands for a rule. -/
  source : Option String
  /-- The path. -/
  segments : List String

/-- Whether a rule decided. -/
def Evaluation.isRuled (e : Evaluation) : Bool :=
  e.source == some ruledSource

/-- The directories that the rules about homes speak of. -/
structure Homes where
  /-- The first segments under which homes lie. -/
  roots : List String := ["d", "players"]
  /-- The directory of a home that everyone may read. -/
  openDir : String := "open"

/-- The level that a rule gives: everything in the requester's own home, reading in anyone's open
directory. -/
def Homes.ruled? (h : Homes) (segments : List String) (requester : String) : Option Grade :=
  match segments with
  | first :: second :: rest =>
    if !h.roots.contains first then none
    else if second == requester then some .grant
    else if rest.head? == some h.openDir then some .read
    else none
  | _ => none

/-- The level at the path root: of the first tree whose root has a grade of its own or one for its
children. -/
def evaluateRoot : List OwnedTree → Evaluation
  | [] => ⟨none, none, []⟩
  | t :: ts =>
    match t.tree.root.own <|> t.tree.root.rest with
    | some g => ⟨some g, some t.owner, []⟩
    | none => evaluateRoot ts

/-- The position of the deciding tree and its level after the last of several states. -/
def decision? (steps : List Step) : Option (Nat × Level) := do
  let last ← steps.getLast?
  let winner ← last.winner
  return (winner, (← last.cursors[winner]?).standing)

/-- The level at a path by the trees alone. -/
def evaluateTrees (trees : List OwnedTree) (segments : List String) : Evaluation :=
  if segments.isEmpty then evaluateRoot trees
  else match decision? (trace trees segments) with
    | some (winner, level) => ⟨level, (trees[winner]?).map (·.owner), segments⟩
    | none => ⟨none, none, segments⟩

/-- The level at a path for a requester. The rules about homes come in unless the requester's own tree,
which is then the first, decided. -/
def evaluateFor (h : Homes) (trees : List OwnedTree) (segments : List String)
    (requester : String) (hasOwnTree : Bool) : Evaluation :=
  let byTrees := evaluateTrees trees segments
  let ownDecided := hasOwnTree && (decision? (trace trees segments)).map (·.1) == some 0
  if ownDecided then byTrees
  else match h.ruled? segments requester with
    | some g => ⟨some g, some ruledSource, segments⟩
    | none => byTrees

end PathAccess
