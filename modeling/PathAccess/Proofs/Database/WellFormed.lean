import PathAccess.Database.Seed
import PathAccess.Proofs.Database.Memberships
import PathAccess.Proofs.Tree.WellFormed
/-!
# Well-formed databases

A database is **well formed** if its names are distinct and each of its trees is well formed. This is what
makes it a mapping of mappings that can be written down. Every database that can be read is well formed,
and all changes of trees and memberships keep it so.
-/

namespace PathAccess

namespace Database

variable {db : Database}

/-- Distinct names, and well-formed trees under them. -/
structure WellFormed (db : Database) : Prop where
  /-- The names are distinct. -/
  distinct : db.Distinct
  /-- The tree of every name is well formed. -/
  trees : ∀ name, (db.treeOf name).WellFormed

/-- An empty tree is well formed. -/
theorem wellFormed_empty : Tree.WellFormed {} :=
  Branch.wellFormed_of_children_eq_nil rfl

theorem WellFormed.set (h : db.WellFormed) (name : String) {t : Tree} (ht : t.WellFormed) :
    (db.set name t).WellFormed where
  distinct := h.distinct.set name t
  trees := fun name' ↦ by
    rw [treeOf_set]
    split
    · exact ht
    · exact h.trees name'

theorem WellFormed.remove (h : db.WellFormed) (name : String) : (db.remove name).WellFormed where
  distinct := h.distinct.remove name
  trees := fun name' ↦ by
    rw [h.distinct.treeOf_remove]
    split
    · exact wellFormed_empty
    · exact h.trees name'

theorem WellFormed.setMemberships (h : db.WellFormed) (name : String) (groups : List String) :
    (db.setMemberships name groups).WellFormed where
  distinct := h.distinct.setMemberships name groups
  trees := fun name' ↦ by
    rw [Tree.WellFormed, h.distinct.root_treeOf_setMemberships]
    exact h.trees name'

theorem WellFormed.healed (h : db.WellFormed) (s : GroupSources) (name : String) :
    (db.healed s name).WellFormed := by
  rw [healed_eq]
  split
  · exact h
  · exact h.setMemberships _ _

/-- The default schema is well formed. -/
theorem wellFormed_defaultSchema : Tree.defaultSchema.WellFormed := by
  decide

/-- **The database of a first run is well formed**, whatever the rules for names are. -/
theorem wellFormed_seeded (rules : PrincipalRules) : (seeded rules).WellFormed where
  distinct := by
    unfold Distinct
    change (Entries.keys (seeded {}).trees).Nodup
    decide
  trees := by
    have htrees : ∀ e ∈ (seeded {}).trees, e.2.WellFormed := by decide
    exact treeOf_of_forall (P := Tree.WellFormed) wellFormed_empty htrees

end Database

end PathAccess
