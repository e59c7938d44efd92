import PathAccess.Proofs.Entries
import PathAccess.Tree.Edit
/-!
# The shortest form of a branch

On the way back from an edit a branch is put in its shortest form: nothing if it is empty, a leaf if its
modifiers agree and no child is named, and the branch itself otherwise. Of what the branch holds nothing is
lost, since there is one branch only that is empty and one for each leaf (`eq_of_isEmpty`, `eq_of_folded?`).
A branch with a child is its own shortest form (`compact_setChild`).
-/

namespace PathAccess

namespace Branch

variable {b : Branch}

theorem isEmpty_iff : b.isEmpty ↔ b.children = [] ∧ b.own = none ∧ b.rest = none := by
  simp [Branch.isEmpty, and_assoc]

theorem folded?_eq_some_iff {g : Grade} :
    b.folded? = some g ↔ b.children = [] ∧ b.own = some g ∧ b.rest = some g := by
  unfold Branch.folded?
  split <;> rename_i h
  · obtain ⟨hchildren, heq⟩ : b.children = [] ∧ b.own = b.rest := by simpa using h
    simp [hchildren, ← heq]
  · simp only [reduceCtorEq, false_iff]
    rintro ⟨hchildren, hown, hrest⟩
    exact h (by simp [hchildren, hown, hrest])

theorem eq_of_isEmpty (h : b.isEmpty) : b = {} := by
  obtain ⟨own, rest, children⟩ := b
  obtain ⟨rfl, rfl, rfl⟩ := isEmpty_iff.1 h
  rfl

theorem eq_of_folded? {g : Grade} (h : b.folded? = some g) : b = ⟨some g, some g, []⟩ := by
  obtain ⟨own, rest, children⟩ := b
  obtain ⟨rfl, rfl, rfl⟩ := folded?_eq_some_iff.1 h
  rfl

theorem compact_of_isEmpty (h : b.isEmpty) : b.compact = none := by
  rw [compact, if_pos h]

theorem compact_of_folded? {g : Grade} (h : b.folded? = some g) : b.compact = some (.leaf g) := by
  have hempty : ¬b.isEmpty := fun hempty ↦ by
    have hown := (isEmpty_iff.1 hempty).2.1
    cases hown.symm.trans (folded?_eq_some_iff.1 h).2.1
  rw [compact, if_neg hempty, h]

theorem compact_eq_toNode (hempty : b.isEmpty = false) (hfold : b.folded? = none) :
    b.compact = some b.toNode := by
  rw [compact, hempty, hfold]
  rfl

/-- What holds something does not vanish. -/
theorem exists_compact_eq_some (h : b.isEmpty = false) : ∃ n, b.compact = some n := by
  rw [compact, h]
  cases b.folded? <;> exact ⟨_, rfl⟩

/-- **A shortest form** is a leaf, or the branch if it has none that is shorter. -/
theorem eq_of_mem_compact {n : Node} (h : n ∈ b.compact) :
    (∃ g, n = .leaf g) ∨ n = b.toNode ∧ b.isEmpty = false ∧ b.folded? = none := by
  cases hempty : b.isEmpty with
  | true =>
    rw [compact_of_isEmpty hempty] at h
    exact nomatch h
  | false =>
    cases hfold : b.folded? with
    | none =>
      rw [compact_eq_toNode hempty hfold, Option.mem_some] at h
      exact Or.inr ⟨h.symm, rfl, rfl⟩
    | some g =>
      rw [compact_of_folded? hfold, Option.mem_some] at h
      exact Or.inl ⟨g, h.symm⟩

/-! ### Branches with a child -/

theorem isEmpty_setChild (b : Branch) (name : String) (n : Node) :
    (b.setChild name n).isEmpty = false := by
  have hchildren : Entries.set b.children name n ≠ [] := Entries.set_ne_nil _ _ _
  simp [isEmpty, setChild, hchildren]

theorem folded?_setChild (b : Branch) (name : String) (n : Node) :
    (b.setChild name n).folded? = none := by
  have hchildren : Entries.set b.children name n ≠ [] := Entries.set_ne_nil _ _ _
  simp [folded?, setChild, hchildren]

/-- A branch with a child has no shorter form. -/
theorem compact_setChild (b : Branch) (name : String) (n : Node) :
    (b.setChild name n).compact = some (b.setChild name n).toNode :=
  compact_eq_toNode (b.isEmpty_setChild name n) (b.folded?_setChild name n)

end Branch

end PathAccess
