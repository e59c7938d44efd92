import PathAccess.Proofs.Evaluation.Verdicts
/-!
# Trees that no evaluation tells apart

The level that a tree gives at a path is read with other trees before it and behind it, and with the rules
about homes on top if there is a requester. Two trees are **alike** at a path if none of this shows a
difference. For that it is enough to look at the trees alone (`Tree.alikeAt_iff`): they are alike where they
give the same level.
-/

namespace PathAccess

namespace Tree

variable {t u : Tree} {query : List String}

/-- No evaluation of the path tells the two trees apart. In every list of trees, at every place in it and
whoever their owner is, both lead to the same level and source, by the trees alone and for every
requester. -/
def AlikeAt (t u : Tree) (query : List String) : Prop :=
  ∀ (owner : String) (before after : List OwnedTree),
    evaluateTrees (before ++ ⟨owner, t⟩ :: after) query =
      evaluateTrees (before ++ ⟨owner, u⟩ :: after) query ∧
    ∀ (homes : Homes) (requester : String) (hasOwnTree : Bool),
      evaluateFor homes (before ++ ⟨owner, t⟩ :: after) query requester hasOwnTree =
        evaluateFor homes (before ++ ⟨owner, u⟩ :: after) query requester hasOwnTree

/-- A tree that gives the same level gives the same verdict in its place. -/
theorem verdicts_eq_of_levelAt_eq (h : t.levelAt query = u.levelAt query) (owner : String)
    (before after : List OwnedTree) :
    verdicts (before ++ ⟨owner, t⟩ :: after) query =
      verdicts (before ++ ⟨owner, u⟩ :: after) query := by
  simp only [verdicts, List.filterMap_append, List.filterMap_cons, h]

/-- If it is the first of the list, it decides where the other one does. -/
theorem ownDecides_eq_of_levelAt_eq (h : t.levelAt query = u.levelAt query) (owner : String)
    (before after : List OwnedTree) (hasOwnTree : Bool) :
    ownDecides (before ++ ⟨owner, t⟩ :: after) query hasOwnTree =
      ownDecides (before ++ ⟨owner, u⟩ :: after) query hasOwnTree := by
  cases before with
  | nil => simp only [ownDecides, List.nil_append, decision?_trace_eq_zero, h]
  | cons first before => simp only [ownDecides, List.cons_append, decision?_trace_eq_zero]

/-- **Trees are alike where they give the same level.** -/
theorem alikeAt_iff : t.AlikeAt u query ↔ t.levelAt query = u.levelAt query := by
  constructor
  · intro h
    have halone := congrArg Evaluation.level (h "" [] []).1
    rwa [List.nil_append, List.nil_append, evaluateTrees_singleton,
      evaluateTrees_singleton] at halone
  · intro h owner before after
    have hverdicts := verdicts_eq_of_levelAt_eq h owner before after
    constructor
    · rw [evaluateTrees_eq_head?_verdicts, hverdicts, ← evaluateTrees_eq_head?_verdicts]
    · intro homes requester hasOwnTree
      exact evaluateFor_congr homes requester hverdicts
        (ownDecides_eq_of_levelAt_eq h owner before after hasOwnTree)

/-- What a tree gives alone. The source is its owner, unless the level is no access. -/
theorem evaluateTrees_alone (t : Tree) (owner : String) (query : List String) :
    evaluateTrees [⟨owner, t⟩] query =
      ⟨t.levelAt query, (t.levelAt query).map fun _ ↦ owner, query⟩ := by
  rw [evaluateTrees_cons, evaluateTrees_nil]
  cases t.levelAt query <;> rfl

end Tree

end PathAccess
