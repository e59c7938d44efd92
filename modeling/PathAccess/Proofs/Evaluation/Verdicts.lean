import PathAccess.Proofs.Evaluation.Priority
/-!
# What an evaluation depends on

Each tree of a list that decides a path gives a **verdict** there, its owner with a level. The
evaluation is the first verdict, and so two lists with the same verdicts at a path are evaluated to
the same level and source (`evaluateFor_congr`), whatever their trees say elsewhere.

With a requester, one more thing is asked: whether it was the requester's own tree that decided.
-/

namespace PathAccess

/-- The levels that the trees of a list give at a path, each with the owner of its tree. -/
def verdicts (trees : List OwnedTree) (path : List String) : List (String × Grade) :=
  trees.filterMap fun t ↦ (t.tree.levelAt path).map (t.owner, ·)

theorem verdicts_append (trees trees' : List OwnedTree) (path : List String) :
    verdicts (trees ++ trees') path = verdicts trees path ++ verdicts trees' path :=
  List.filterMap_append

theorem verdicts_singleton (t : OwnedTree) (path : List String) :
    verdicts [t] path = ((t.tree.levelAt path).map (t.owner, ·)).toList := by
  cases h : t.tree.levelAt path <;> simp [verdicts, h]

/-- **An evaluation is the first verdict.** -/
theorem evaluateTrees_eq_head?_verdicts (trees : List OwnedTree) (path : List String) :
    evaluateTrees trees path =
      ⟨(verdicts trees path).head?.map (·.2), (verdicts trees path).head?.map (·.1), path⟩ := by
  induction trees with
  | nil => exact evaluateTrees_nil path
  | cons t trees ih =>
    rw [evaluateTrees_cons]
    cases h : t.tree.levelAt path with
    | none => simpa [verdicts, h] using ih
    | some g => simp [verdicts, h]

/-- Whether the first of the trees decides a path. The path root is decided without a walk. -/
theorem decision?_trace_eq_zero (t : OwnedTree) (trees : List OwnedTree) (path : List String) :
    ((decision? (trace (t :: trees) path)).map (·.1) == some 0) =
      (!path.isEmpty && (t.tree.levelAt path).isSome) := by
  rcases path with - | ⟨segment, path⟩
  · rfl
  · have hne : segment :: path ≠ [] := List.cons_ne_nil _ _
    rw [decision?_trace hne, List.map_cons]
    by_cases h : (t.tree.levelAt (segment :: path)).isSome
    · rw [Cursor.firstStanding_cons_of_isSome (by rwa [t.tree.standing_run_cursor hne])]
      simp [h]
    · have hnone := Option.not_isSome_iff_eq_none.1 h
      rw [Cursor.firstStanding_cons_of_none (by rwa [t.tree.standing_run_cursor hne]), hnone]
      cases Cursor.firstStanding (trees.map fun t ↦ t.tree.cursor.run (segment :: path)) <;> rfl

/-- Whether the requester's own tree, the first of a list if there is one, decides a path. -/
def ownDecides (trees : List OwnedTree) (path : List String) (hasOwnTree : Bool) : Bool :=
  hasOwnTree && (decision? (trace trees path)).map (·.1) == some 0

/-- Without a tree of one's own it decides nothing, just like one that says nothing there. -/
theorem ownDecides_eq (own : Option OwnedTree) (others : List OwnedTree) (path : List String) :
    ownDecides (own.toList ++ others) path own.isSome =
      (!path.isEmpty && (own.bind (·.tree.levelAt path)).isSome) := by
  cases own with
  | none => simp [ownDecides]
  | some t => exact decision?_trace_eq_zero t others path

/-- **Trees with the same verdicts at a path are evaluated alike** for a requester whose own tree
decides in both lists or in neither. -/
theorem evaluateFor_congr {trees trees' : List OwnedTree} {path : List String}
    {hasOwnTree hasOwnTree' : Bool} (homes : Homes) (requester : String)
    (hverdicts : verdicts trees path = verdicts trees' path)
    (hown : ownDecides trees path hasOwnTree = ownDecides trees' path hasOwnTree') :
    evaluateFor homes trees path requester hasOwnTree =
      evaluateFor homes trees' path requester hasOwnTree' := by
  have htrees : evaluateTrees trees path = evaluateTrees trees' path := by
    rw [evaluateTrees_eq_head?_verdicts, hverdicts, ← evaluateTrees_eq_head?_verdicts]
  change (if ownDecides trees path hasOwnTree then _ else _) =
    if ownDecides trees' path hasOwnTree' then _ else _
  rw [hown, htrees]

/-- The level for a requester is that of the trees, or that of a rule. -/
theorem level_evaluateFor (homes : Homes) (trees : List OwnedTree) (path : List String)
    (requester : String) (hasOwnTree : Bool) :
    (evaluateFor homes trees path requester hasOwnTree).level =
        (verdicts trees path).head?.map (·.2) ∨
      ∃ g, homes.ruled? path requester = some g ∧
        (evaluateFor homes trees path requester hasOwnTree).level = some g := by
  have htrees : (evaluateTrees trees path).level = (verdicts trees path).head?.map (·.2) := by
    rw [evaluateTrees_eq_head?_verdicts]
  rw [← htrees]
  unfold evaluateFor
  dsimp only
  split
  · exact Or.inl rfl
  · split <;> rename_i hruled
    · exact Or.inr ⟨_, hruled, rfl⟩
    · exact Or.inl rfl

end PathAccess
