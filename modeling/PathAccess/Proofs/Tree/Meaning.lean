import Mathlib.Data.List.Infix
import PathAccess.Proofs.Evaluation.Priority
/-!
# The meaning of one tree

What one tree says about a path can be told without walking it. Named children lead from the root to
the node that a prefix of the path names (`Tree.nodeAt?`), and of the branches on the way each may set
`*`. The deepest of these is what **stands** at a prefix (`Tree.standingAt`). A leaf on the way decides.
Where the path leaves the tree, what stands there is the level. And where the whole path names a branch,
that branch is asked for its `.` or its `*`, depending on whether something stands above it.

These three cases are the rules of `Tree.Gives`. `evaluateTrees_singleton_iff_gives` says that evaluating
the tree alone gives a level exactly if the rules do: so one of them always applies, and no two give
different levels. The bridge is `levelFrom`, which carries what stands above a node. Going down a named
prefix replaces the node and adds what stands at the prefix (`levelFrom_append_cons`).
-/

namespace PathAccess

/-! ### The nodes that prefixes name -/

/-- The node that a path names from a node on, by named children. -/
def Node.nodeAt? (n : Node) : List String → Option Node
  | [] => some n
  | segment :: path =>
    match n with
    | .leaf _ => none
    | .branch _ _ children => (Entries.find? children segment).bind (·.nodeAt? path)

/-- The `*` of a node, if it is a branch that sets one. -/
def Node.rest? : Node → Option Grade
  | leaf _ => none
  | branch _ rest _ => rest

/-- The `*` of the branch that a path names from a node on. -/
def Node.restAt? (n : Node) (path : List String) : Option Grade :=
  (n.nodeAt? path).bind Node.rest?

/-- What stands at a path from a node on: the `*` of the deepest branch among the prefixes of the path, the
path itself included, that sets one. -/
def Node.standingAt (n : Node) (path : List String) : Level :=
  (path.inits.filterMap n.restAt?).getLast?

/-- The node that a path names in a tree. -/
def Tree.nodeAt? (t : Tree) (path : List String) : Option Node :=
  t.root.toNode.nodeAt? path

/-- What stands at a path in a tree. -/
def Tree.standingAt (t : Tree) (path : List String) : Level :=
  t.root.toNode.standingAt path

namespace Node

variable {n m : Node} {path : List String}

theorem nodeAt?_branch_cons (own rest : Option Grade) (children : List (String × Node))
    (segment : String) (path : List String) :
    (branch own rest children).nodeAt? (segment :: path) =
      (Entries.find? children segment).bind (·.nodeAt? path) := rfl

theorem nodeAt?_append (n : Node) (path path' : List String) :
    n.nodeAt? (path ++ path') = (n.nodeAt? path).bind (·.nodeAt? path') := by
  induction path generalizing n with
  | nil => rfl
  | cons segment path ih =>
    cases n with
    | leaf g => rfl
    | branch own rest children =>
      rw [List.cons_append, nodeAt?_branch_cons, nodeAt?_branch_cons, Option.bind_assoc]
      simp only [ih]

/-- **One name more**: a named child of a branch. -/
theorem nodeAt?_concat_eq_some_iff {name : String} :
    n.nodeAt? (path ++ [name]) = some m ↔ ∃ own rest children,
      n.nodeAt? path = some (branch own rest children) ∧ Entries.find? children name = some m := by
  rw [nodeAt?_append, Option.bind_eq_some_iff]
  constructor
  · rintro ⟨_ | ⟨own, rest, children⟩, hn, hm⟩
    · cases hm
    · obtain ⟨c, hc, hcm⟩ := Option.bind_eq_some_iff.1 hm
      obtain rfl : c = m := Option.some.inj hcm
      exact ⟨own, rest, children, hn, hc⟩
  · rintro ⟨own, rest, children, hn, hm⟩
    exact ⟨_, hn, Option.bind_eq_some_iff.2 ⟨m, hm, rfl⟩⟩

/-- A path that names no node leaves the tree: at a leaf, or at a branch that does not name the next
segment. -/
theorem exists_of_nodeAt?_eq_none (h : n.nodeAt? path = none) :
    ∃ pre name m, pre ++ [name] <+: path ∧ n.nodeAt? pre = some m ∧
      n.nodeAt? (pre ++ [name]) = none := by
  induction path using List.reverseRecOn with
  | nil => cases h
  | append_singleton path name ih =>
    cases hpath : n.nodeAt? path with
    | some m => exact ⟨path, name, m, List.prefix_refl _, hpath, h⟩
    | none =>
      obtain ⟨pre, name', m, hpre, hfound⟩ := ih hpath
      exact ⟨pre, name', m, hpre.trans (List.prefix_append _ _), hfound⟩

/-! ### What stands -/

theorem standingAt_nil (n : Node) : n.standingAt [] = n.rest? := by
  cases h : n.rest? <;> simp [standingAt, restAt?, nodeAt?, h]

/-- The `*` of the last of several paths below a named child that has one, or else that of the branch. -/
theorem getLast?_filterMap_restAt? {own rest : Option Grade} {children : List (String × Node)}
    {segment : String} {c : Node} (h : Entries.find? children segment = some c)
    (paths : List (List String)) :
    (([] :: paths.map (segment :: ·)).filterMap (branch own rest children).restAt?).getLast? =
      ((paths.filterMap c.restAt?).getLast? <|> rest) := by
  have hrest : ∀ pre, (branch own rest children).restAt? (segment :: pre) = c.restAt? pre := by
    intro pre
    rw [restAt?, restAt?, nodeAt?_branch_cons, h]
    rfl
  have hroot : (branch own rest children).restAt? [] = rest := rfl
  rw [List.filterMap_cons, List.filterMap_map, hroot]
  simp only [Function.comp_def, hrest]
  cases rest with
  | none => simp
  | some g => rw [List.getLast?_cons]; cases (paths.filterMap c.restAt?).getLast? <;> rfl

/-- What stands below a named child, or else at the branch itself. -/
theorem standingAt_branch_cons {own rest : Option Grade} {children : List (String × Node)}
    {segment : String} {c : Node} (h : Entries.find? children segment = some c)
    (path : List String) :
    (branch own rest children).standingAt (segment :: path) = (c.standingAt path <|> rest) := by
  rw [standingAt, standingAt, List.inits_cons, getLast?_filterMap_restAt? h]

/-- **Going down a named prefix** leads to the branch that it names, with what stands there above the
next segment. -/
theorem levelFrom_append_cons {own rest : Option Grade} {children : List (String × Node)}
    (h : n.nodeAt? path = some (branch own rest children)) (above : Level) (segment : String)
    (query : List String) :
    levelFrom (some n) above (path ++ segment :: query) =
      levelFrom (Entries.find? children segment) (n.standingAt path <|> above) query := by
  induction path generalizing n above with
  | nil =>
    obtain rfl : n = branch own rest children := Option.some.inj h
    rw [standingAt_nil]
    rfl
  | cons segment' path ih =>
    cases n with
    | leaf g => cases h
    | branch own' rest' children' =>
      obtain ⟨c, hc, hcm⟩ := Option.bind_eq_some_iff.1 h
      rw [List.cons_append, levelFrom_branch_cons, hc, ih hcm, standingAt_branch_cons hc]
      cases c.standingAt path <;> rfl

end Node

/-! ### The rules -/

namespace Tree

variable {t : Tree} {init : List String} {last : String}

/-- The rules for the level that a tree gives at a path, which ends in the name `last`. -/
inductive Gives (t : Tree) (init : List String) (last : String) : Level → Prop
  /-- A prefix of the path names a leaf: its grade. -/
  | leaf {pre : List String} {g : Grade} (above : pre <+: init ++ [last])
    (named : t.nodeAt? pre = some (.leaf g)) : Gives t init last (some g)
  /-- A prefix names a branch that does not name the next segment: what stands there. -/
  | unnamed {pre : List String} {name : String} {b : Branch}
    (above : pre ++ [name] <+: init ++ [last]) (named : t.nodeAt? pre = some b.toNode)
    (unnamed : t.nodeAt? (pre ++ [name]) = none) : Gives t init last (t.standingAt pre)
  /-- The path names a branch, and something stands above it: its `.`, or what stands. -/
  | own {b : Branch} {d : Grade} (named : t.nodeAt? (init ++ [last]) = some b.toNode)
    (standing : t.standingAt init = some d) : Gives t init last (b.own <|> some d)
  /-- The path names a branch, and nothing stands above it: its `*`, if it sets one. -/
  | rest {b : Branch} (named : t.nodeAt? (init ++ [last]) = some b.toNode)
    (standing : t.standingAt init = none) : Gives t init last b.rest

/-- The level at a path by what stands at one of its prefixes and what the branch there names. -/
theorem levelAt_append_cons {pre : List String} {b : Branch} (h : t.nodeAt? pre = some b.toNode)
    (segment : String) (query : List String) :
    t.levelAt (pre ++ segment :: query) =
      levelFrom (Entries.find? b.children segment) (t.standingAt pre) query := by
  have hlevel : t.levelAt (pre ++ segment :: query) =
      levelFrom (some t.root.toNode) none (pre ++ segment :: query) := by
    cases pre <;> rfl
  rw [hlevel, Node.levelFrom_append_cons h, Option.orElse_eq_orElse, Option.orElse_eq_or,
    Option.or_none]
  rfl

/-- The node that a longer path names is a named child, and the shorter path names its branch. -/
theorem exists_of_nodeAt?_concat {pre : List String} {name : String} {m : Node}
    (h : t.nodeAt? (pre ++ [name]) = some m) :
    ∃ b : Branch, t.nodeAt? pre = some b.toNode ∧ Entries.find? b.children name = some m := by
  obtain ⟨own, rest, children, hpre, hname⟩ := Node.nodeAt?_concat_eq_some_iff.1 h
  exact ⟨⟨own, rest, children⟩, hpre, hname⟩

/-- **A rule gives the level.** -/
theorem Gives.levelAt_eq {l : Level} (h : t.Gives init last l) : t.levelAt (init ++ [last]) = l := by
  cases h with
  | @leaf pre g above named =>
    -- The root is no leaf, so the leaf is the named child of a branch.
    obtain ⟨query, hquery⟩ := above
    rcases List.eq_nil_or_concat pre with rfl | ⟨pre, name, rfl⟩
    · cases named
    · rw [List.concat_eq_append] at named hquery
      obtain ⟨b, hb, hname⟩ := exists_of_nodeAt?_concat named
      rw [← hquery, List.append_assoc, List.singleton_append, levelAt_append_cons hb, hname,
        levelFrom_leaf]
  | @unnamed pre name b above named unnamed =>
    obtain ⟨query, hquery⟩ := above
    have hnone : Entries.find? b.children name = none := by
      by_contra hsome
      obtain ⟨m, hm⟩ := Option.ne_none_iff_exists'.1 hsome
      have hfound : t.nodeAt? (pre ++ [name]) = some m :=
        Node.nodeAt?_concat_eq_some_iff.2 ⟨_, _, _, named, hm⟩
      cases unnamed.symm.trans hfound
    rw [← hquery, List.append_assoc, List.singleton_append, levelAt_append_cons named, hnone,
      levelFrom_none]
  | @own b d named standing =>
    obtain ⟨b', hb', hlast⟩ := exists_of_nodeAt?_concat named
    rw [levelAt_append_cons hb', hlast, standing, levelFrom_toNode_nil]
    rfl
  | @rest b named standing =>
    obtain ⟨b', hb', hlast⟩ := exists_of_nodeAt?_concat named
    rw [levelAt_append_cons hb', hlast, standing, levelFrom_toNode_nil, Branch.answer]
    simp

variable (t init last) in
/-- **One of the rules always applies.** -/
theorem exists_gives : ∃ l, t.Gives init last l := by
  cases hpath : t.nodeAt? (init ++ [last]) with
  | none =>
    obtain ⟨pre, name, m, hpre, hm, hnone⟩ := Node.exists_of_nodeAt?_eq_none hpath
    cases m with
    | leaf g => exact ⟨_, .leaf ((List.prefix_append _ _).trans hpre) hm⟩
    | branch own rest children =>
      exact ⟨_, .unnamed (b := ⟨own, rest, children⟩) hpre hm hnone⟩
  | some m =>
    cases m with
    | leaf g => exact ⟨_, .leaf (List.prefix_refl _) hpath⟩
    | branch own rest children =>
      cases hstanding : t.standingAt init with
      | none => exact ⟨_, .rest (b := ⟨own, rest, children⟩) hpath hstanding⟩
      | some d => exact ⟨_, .own (b := ⟨own, rest, children⟩) hpath hstanding⟩

theorem gives_iff {l : Level} : t.Gives init last l ↔ t.levelAt (init ++ [last]) = l := by
  refine ⟨Gives.levelAt_eq, fun h ↦ ?_⟩
  obtain ⟨l', hl'⟩ := exists_gives t init last
  rwa [← h, hl'.levelAt_eq]

end Tree

/-- **The meaning of one tree.** At every path but the root, which has no last name, evaluating a tree alone
gives a level exactly if the rules give it. Its source is the tree's owner, unless the level is no access. -/
theorem evaluateTrees_singleton_iff_gives (owner : String) (t : Tree) (init : List String)
    (last : String) (l : Level) :
    t.Gives init last l ↔
      evaluateTrees [⟨owner, t⟩] (init ++ [last]) =
        ⟨l, l.map fun _ ↦ owner, init ++ [last]⟩ := by
  have heval : evaluateTrees [⟨owner, t⟩] (init ++ [last]) =
      ⟨t.levelAt (init ++ [last]), (t.levelAt (init ++ [last])).map fun _ ↦ owner,
        init ++ [last]⟩ := by
    rw [evaluateTrees_cons, evaluateTrees_nil]
    cases t.levelAt (init ++ [last]) <;> rfl
  rw [Tree.gives_iff, heval]
  constructor
  · rintro rfl
    rfl
  · intro h
    exact congrArg Evaluation.level h

end PathAccess
