import PathAccess.Proofs.Tree.WellFormed
/-!
# Trees as mappings

The children of a branch are kept as a list, and a list of entries is a mapping only if no name comes
twice. A tree is **keyed** if that holds at each of its branches. This is less than to be well formed,
since the names may be any, and it is all that an edit at ordinary names depends on.
-/

namespace PathAccess

/-- Distinct names of children, at every branch. -/
inductive Node.Keyed : Node → Prop
  | leaf (g : Grade) : Node.Keyed (.leaf g)
  | branch {own rest : Option Grade} {children : List (String × Node)}
      (distinct : (Entries.keys children).Nodup) (below : ∀ c ∈ children, Node.Keyed c.2) :
      Node.Keyed (.branch own rest children)

/-- A branch whose node is keyed. -/
structure Branch.Keyed (b : Branch) : Prop where
  /-- The children's names are distinct. -/
  distinct : (Entries.keys b.children).Nodup
  /-- The children are keyed. -/
  below : ∀ c ∈ b.children, c.2.Keyed

/-- A tree whose root is keyed. -/
def Tree.Keyed (t : Tree) : Prop :=
  t.root.Keyed

theorem Node.WellFormed.keyed {n : Node} (h : n.WellFormed) : n.Keyed := by
  induction h with
  | leaf g => exact .leaf g
  | branch distinct ordinary below ih => exact .branch distinct ih

theorem Branch.WellFormed.keyed {b : Branch} (h : b.WellFormed) : b.Keyed :=
  ⟨h.distinct, fun c hc ↦ (h.below c hc).keyed⟩

theorem Tree.WellFormed.keyed {t : Tree} (h : t.WellFormed) : t.Keyed :=
  Branch.WellFormed.keyed h

namespace Branch

variable {b : Branch}

theorem keyed_of_children_eq_nil (h : b.children = []) : b.Keyed :=
  (wellFormed_of_children_eq_nil h).keyed

/-- The branch on the way to an edit is keyed, whether it was there or is made. -/
theorem Keyed.below_branch (h : b.Keyed) (name : String) : (b.below name).Keyed := by
  unfold Branch.below
  split <;> rename_i hf
  · obtain _ | ⟨distinct, below⟩ := h.below _ (Entries.mem_of_find? hf)
    exact ⟨distinct, below⟩
  · exact keyed_of_children_eq_nil rfl
  · exact keyed_of_children_eq_nil rfl

end Branch

end PathAccess
