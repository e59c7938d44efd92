import PathAccess.Database.Groups
import PathAccess.Proofs.Entries
/-!
# The trees of a database

A database is observed through `treeOf`, which gives an empty tree for a name that has none, and
through `has`. This module says what setting and removing a tree does to both. Removing needs distinct
names, as it does for every ordered mapping.
-/

namespace PathAccess

namespace Database

variable (db : Database)

/-- The names of a database are distinct. -/
def Distinct : Prop :=
  (Entries.keys db.trees).Nodup

theorem has_eq_isSome_find? (name : String) : db.has name = (db.find? name).isSome := rfl

theorem treeOf_of_find? {name : String} {t : Tree} (h : db.find? name = some t) :
    db.treeOf name = t := by
  rw [treeOf, h]
  rfl

theorem find?_set (name name' : String) (t : Tree) :
    (db.set name t).find? name' = if name' = name then some t else db.find? name' :=
  Entries.find?_set _ _ _ _

theorem treeOf_set (name name' : String) (t : Tree) :
    (db.set name t).treeOf name' = if name' = name then t else db.treeOf name' := by
  rw [treeOf, find?_set]
  split <;> rfl

theorem has_set (name name' : String) (t : Tree) :
    (db.set name t).has name' = (decide (name' = name) || db.has name') := by
  rw [has_eq_isSome_find?, find?_set]
  by_cases h : name' = name <;> simp [h, has_eq_isSome_find?]

variable {db}

/-- A fact about all trees of a database, and of the empty tree, is one about the tree of any name. -/
theorem treeOf_of_forall {db : Database} {P : Tree → Prop} (hempty : P {})
    (h : ∀ e ∈ db.trees, P e.2) (name : String) : P (db.treeOf name) := by
  rw [treeOf]
  cases hf : db.find? name with
  | none => exact hempty
  | some t => exact h _ (Entries.mem_of_find? hf)

/-- A name with a tree is one of the names. -/
theorem of_has {db : Database} {P : String → Tree → Prop} (h : ∀ e ∈ db.trees, P e.1 e.2)
    {name : String} (hhas : db.has name) : P name (db.treeOf name) := by
  obtain ⟨t, ht⟩ := Option.isSome_iff_exists.1 hhas
  rw [db.treeOf_of_find? ht]
  exact h _ (Entries.mem_of_find? ht)

theorem Distinct.set (h : db.Distinct) (name : String) (t : Tree) : (db.set name t).Distinct :=
  Entries.nodup_keys_set h name t

theorem Distinct.remove (h : db.Distinct) (name : String) : (db.remove name).Distinct :=
  h.sublist ((Entries.remove_sublist _ _).map _)

theorem Distinct.find?_remove (h : db.Distinct) (name name' : String) :
    (db.remove name).find? name' = if name' = name then none else db.find? name' := by
  split <;> rename_i heq
  · rw [heq]
    exact Entries.find?_remove_self h name
  · exact Entries.find?_remove_of_ne heq _

theorem Distinct.treeOf_remove (h : db.Distinct) (name name' : String) :
    (db.remove name).treeOf name' = if name' = name then {} else db.treeOf name' := by
  rw [treeOf, h.find?_remove]
  split <;> rfl

theorem Distinct.has_remove (h : db.Distinct) (name name' : String) :
    (db.remove name).has name' = (!decide (name' = name) && db.has name') := by
  rw [has_eq_isSome_find?, h.find?_remove]
  by_cases heq : name' = name <;> simp [heq, has_eq_isSome_find?]

/-! ### Groups -/

/-- A stored membership is counted or pruned, so without any nothing is stale. -/
theorem pruned_groupsOf_of_memberships_eq_nil (s : GroupSources) {name : String}
    (h : db.memberships name = []) : (db.groupsOf s name).pruned = [] := by
  rw [groupsOf]
  split
  · rfl
  · rw [h]
    rfl

theorem explicit_groupsOf_of_memberships_eq_nil (s : GroupSources) {name : String}
    (h : db.memberships name = []) : (db.groupsOf s name).explicit = [] := by
  rw [groupsOf]
  split
  · rfl
  · rw [h]
    rfl

/-- What comes with a tier or an affiliation. -/
theorem of_mem_derivedGroups {s : GroupSources} {name group : String}
    (h : group ∈ db.derivedGroups s name) :
    group = s.tiers.fullGroup ∨ group = s.tiers.juniorGroup ∨
      ∃ affiliation, group = db.rules.groupForAffiliation affiliation := by
  rcases List.mem_append.1 h with htier | haffiliation
  · obtain ⟨d, -, hgroup⟩ := Option.bind_eq_some_iff.1 (Option.mem_toList.1 htier)
    unfold TierPolicy.group? at hgroup
    split at hgroup
    · exact .inl (Option.some.inj hgroup).symm
    · split at hgroup
      · exact .inr (.inl (Option.some.inj hgroup).symm)
      · exact nomatch hgroup
  · obtain ⟨affiliation, -, rfl⟩ := List.mem_map.1 haffiliation
    exact .inr (.inr ⟨affiliation, rfl⟩)

/-- The derived groups depend on which of the names have a tree. -/
theorem foldl_addDerived_congr {db' : Database} {names : List String}
    (h : ∀ name ∈ names, db'.has name = db.has name) (groups : List String) :
    names.foldl db'.addDerived groups = names.foldl db.addDerived groups := by
  induction names generalizing groups with
  | nil => rfl
  | cons name names ih =>
    rw [List.foldl_cons, List.foldl_cons, addDerived, h name List.mem_cons_self]
    exact ih (fun name' hmem ↦ h name' (List.mem_cons_of_mem _ hmem)) _

/-- **The groups of a principal depend on its memberships**, and on which of the groups that may count have a
tree. -/
theorem groupsOf_congr {db' : Database} {s : GroupSources} {name : String}
    (hrules : db'.rules = db.rules) (hmemberships : db'.memberships name = db.memberships name)
    (hhas : ∀ g ∈ db.memberships name ++ db.derivedGroups s name, db'.has g = db.has g) :
    db'.groupsOf s name = db.groupsOf s name := by
  obtain ⟨hkept, hadded⟩ := List.forall_mem_append.1 hhas
  have hderived : db'.derivedGroups s name = db.derivedGroups s name := by
    rw [derivedGroups, derivedGroups, hrules]
  have hstale : ∀ g ∈ db.memberships name, (not ∘ db'.has) g = (not ∘ db.has) g :=
    fun g hg ↦ congrArg Bool.not (hkept g hg)
  have hpartition : (db.memberships name).partition db'.has =
      (db.memberships name).partition db.has := by
    rw [List.partition_eq_filter_filter, List.partition_eq_filter_filter, List.filter_congr hkept,
      List.filter_congr hstale]
  unfold groupsOf
  rw [hrules, hmemberships, hderived, hpartition]
  simp only [foldl_addDerived_congr hadded]

end Database

end PathAccess
