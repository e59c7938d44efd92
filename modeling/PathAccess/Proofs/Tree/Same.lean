import Mathlib.Data.List.Perm.Subperm
import PathAccess.Proofs.Tree.Frame
import PathAccess.Proofs.Tree.Keyed
/-!
# Equality of trees as mappings

Two trees are the same if they hold the same children, in whichever order. The test for it counts the children
of a branch and looks each one up in the other branch. For mappings this is what it should be: two branches
are the same exactly if their modifiers are equal and if at every name both have the same or both have
nothing (`Branch.same_iff`). Counting is where it matters that no name comes twice.
-/

namespace PathAccess

/-- The same node, or none on both sides. -/
abbrev Node.SameOption : Option Node → Option Node → Prop :=
  Option.Rel fun n m ↦ n.same m = true

namespace Node

theorem sameChildren_iff {cs ds : List (String × Node)} :
    sameChildren cs ds ↔ ∀ c ∈ cs, SameOption (some c.2) (Entries.find? ds c.1) := by
  induction cs with
  | nil => simp [sameChildren]
  | cons c cs ih =>
    obtain ⟨name, n⟩ := c
    rw [sameChildren, Bool.and_eq_true, ih, List.forall_mem_cons]
    cases Entries.find? ds name <;> simp

/-- A node is the same as itself. -/
theorem Keyed.same_self {n : Node} (h : n.Keyed) : n.same n := by
  induction h with
  | leaf g => simp [same]
  | @branch own rest children distinct below ih =>
    have hchildren : sameChildren children children = true := by
      refine sameChildren_iff.2 fun c hc ↦ ?_
      rw [Entries.find?_of_mem distinct hc]
      exact .some (ih c hc)
    simp [same, hchildren]

end Node

namespace Branch

variable {b c : Branch}

theorem same_eq_true_iff : b.same c ↔ b.own = c.own ∧ b.rest = c.rest ∧
    b.children.length = c.children.length ∧ Node.sameChildren b.children c.children = true := by
  simp [same, toNode, Node.same, and_assoc]

/-- What is found at a name is the same as itself. -/
theorem Keyed.sameOption_find? (hb : b.Keyed) (name : String) :
    Node.SameOption (Entries.find? b.children name) (Entries.find? b.children name) := by
  cases hf : Entries.find? b.children name with
  | none => exact .none
  | some n => exact .some (hb.below _ (Entries.mem_of_find? hf)).same_self

theorem Keyed.same_self (hb : b.Keyed) : b.same b :=
  Node.Keyed.same_self (.branch hb.distinct hb.below)

theorem mem_keys_iff_of_sameOption {name : String}
    (h : Node.SameOption (Entries.find? b.children name) (Entries.find? c.children name)) :
    name ∈ Entries.keys b.children ↔ name ∈ Entries.keys c.children := by
  rw [← not_iff_not, ← Entries.find?_eq_none_iff, ← Entries.find?_eq_none_iff]
  generalize Entries.find? b.children name = n at h
  generalize Entries.find? c.children name = m at h
  cases h <;> simp

/-- **Branches are the same** exactly if their modifiers are, and what is found at each name. -/
theorem same_iff (hb : b.Keyed) (hc : c.Keyed) :
    b.same c ↔ b.own = c.own ∧ b.rest = c.rest ∧
      ∀ name, Node.SameOption (Entries.find? b.children name) (Entries.find? c.children name) := by
  rw [same_eq_true_iff]
  refine and_congr_right fun _ ↦ and_congr_right fun _ ↦ ?_
  constructor
  · rintro ⟨hlength, hchildren⟩ name
    rw [Node.sameChildren_iff] at hchildren
    cases hf : Entries.find? b.children name with
    | some n => exact hchildren _ (Entries.mem_of_find? hf)
    | none =>
      -- Each name of the first is one of the second, which has no more.
      have hsubset : Entries.keys b.children ⊆ Entries.keys c.children := by
        intro name' hname'
        obtain ⟨child, hchild, rfl⟩ := List.mem_map.1 hname'
        have hrel := hchildren child hchild
        by_contra hnone
        rw [Entries.find?_eq_none_iff.2 hnone] at hrel
        cases hrel
      have hkeys : (Entries.keys b.children).length = (Entries.keys c.children).length := by
        simpa [Entries.keys] using hlength
      have hperm : (Entries.keys b.children).Perm (Entries.keys c.children) :=
        (List.subperm_of_subset hb.distinct hsubset).perm_of_length_le (Nat.le_of_eq hkeys.symm)
      have hnone : Entries.find? c.children name = none := by
        rw [Entries.find?_eq_none_iff, ← hperm.mem_iff, ← Entries.find?_eq_none_iff]
        exact hf
      rw [hnone]
      exact .none
  · intro h
    constructor
    · have hperm : (Entries.keys b.children).Perm (Entries.keys c.children) :=
        (List.perm_ext_iff_of_nodup hb.distinct hc.distinct).2 fun name ↦
          mem_keys_iff_of_sameOption (h name)
      simpa [Entries.keys] using hperm.length_eq
    · refine Node.sameChildren_iff.2 fun child hchild ↦ ?_
      have hrel := h child.1
      rwa [Entries.find?_of_mem hb.distinct hchild] at hrel

/-- **The shortest forms of the same branches** are the same. -/
theorem sameOption_compact (h : b.same c) : Node.SameOption b.compact c.compact := by
  obtain ⟨hown, hrest, hlength, -⟩ := same_eq_true_iff.1 h
  have hnil : b.children = [] ↔ c.children = [] := by
    rw [← List.length_eq_zero_iff, hlength, List.length_eq_zero_iff]
  have hempty : b.isEmpty = c.isEmpty := by
    rw [Bool.eq_iff_iff, isEmpty_iff, isEmpty_iff, hnil, hown, hrest]
  have hfold : b.folded? = c.folded? := Option.ext fun g ↦ by
    rw [folded?_eq_some_iff, folded?_eq_some_iff, hnil, hown, hrest]
  rw [compact, compact, ← hempty, ← hfold]
  split
  · exact .none
  · split
    · exact .some (by simp [Node.same])
    · exact .some h

end Branch

end PathAccess
