import PathAccess.Proofs.Database.Trees
import PathAccess.Proofs.Tree.Reading
/-!
# Memberships and their pruning

Replacing the memberships of a principal touches its entry alone, and of that not the root
(`Distinct.root_treeOf_setMemberships`). The entry is made if there was none, and goes if nothing
is left of it.

Looking up groups prunes what is stale. The database afterwards, `healed`, is the one before or has
the stored memberships of that one principal cut to those whose group has a tree. Nothing is stale
any more (`Distinct.pruned_groupsOf_healed`), no root has changed, and an entry that went had an
empty one. So whoever only asks what trees say cannot tell that something was pruned.
-/

namespace PathAccess

namespace Database

variable {db : Database}

/-! ### Replacing memberships -/

theorem Distinct.setMemberships (h : db.Distinct) (name : String) (groups : List String) :
    (db.setMemberships name groups).Distinct := by
  unfold Database.setMemberships
  split
  · split
    · unfold discardIfEmpty
      split
      · split
        · exact (h.set _ _).remove _
        · exact h.set _ _
      · exact h.set _ _
    · exact h
  · exact h.set _ _

@[simp] theorem rules_setMemberships (db : Database) (name : String) (groups : List String) :
    (db.setMemberships name groups).rules = db.rules := by
  unfold Database.setMemberships discardIfEmpty
  repeat' split
  all_goals rfl

/-- **The entries after memberships are replaced**: without groups an entry stays only if it has
paths, and with groups there is one. -/
theorem Distinct.find?_setMemberships (h : db.Distinct) (name name' : String)
    (groups : List String) :
    (db.setMemberships name groups).find? name' =
      if name' = name then
        if groups = [] then
          (db.find? name).bind fun t ↦ if t.root.isEmpty then none else some { t with groups := [] }
        else some { db.treeOf name with groups }
      else db.find? name' := by
  unfold Database.setMemberships
  by_cases hgroups : groups = []
  · rw [if_pos (by simp [hgroups]), if_pos hgroups]
    cases hfind : db.find? name with
    | none =>
      by_cases hname : name' = name
      · simp [hname, hfind]
      · simp [hname]
    | some t =>
      have hset : (db.set name { t with groups := [] }).find? name =
          some { t with groups := [] } := by rw [find?_set, if_pos rfl]
      have hempty : ({ t with groups := [] } : Tree).isEmpty = t.root.isEmpty := by
        simp [Tree.isEmpty]
      simp only [discardIfEmpty, hset, hempty, Option.bind_some]
      split
      · rw [(h.set _ _).find?_remove, find?_set]
        split <;> rfl
      · rw [find?_set]
  · rw [if_neg (by simpa using hgroups), if_neg hgroups, find?_set]

/-- **No root changes** when memberships are replaced. -/
theorem Distinct.root_treeOf_setMemberships (h : db.Distinct) (name name' : String)
    (groups : List String) :
    ((db.setMemberships name groups).treeOf name').root = (db.treeOf name').root := by
  rw [treeOf, h.find?_setMemberships]
  by_cases hname : name' = name
  · subst hname
    rw [if_pos rfl]
    split
    · rw [treeOf]
      cases hfind : db.find? name' with
      | none => rfl
      | some t =>
        rw [Option.bind_some]
        split <;> rename_i hroot
        · -- The entry that goes has an empty root, like the tree of a name without an entry.
          obtain ⟨⟨own, rest, children⟩, groups'⟩ := t
          simp only [Branch.isEmpty, Bool.and_eq_true, List.isEmpty_iff,
            Option.isNone_iff_eq_none] at hroot
          obtain ⟨⟨rfl, rfl⟩, rfl⟩ := hroot
          rfl
        · rfl
    · rfl
  · rw [if_neg hname, treeOf]

/-- What is stored is what was asked for. -/
theorem Distinct.memberships_setMemberships (h : db.Distinct) (name name' : String)
    (groups : List String) :
    (db.setMemberships name groups).memberships name' =
      if name' = name then groups else db.memberships name' := by
  rw [memberships, treeOf, h.find?_setMemberships]
  by_cases hname : name' = name
  · rw [if_pos hname, if_pos hname]
    split <;> rename_i hgroups
    · rw [hgroups]
      cases db.find? name with
      | none => rfl
      | some t =>
        rw [Option.bind_some]
        split <;> rfl
    · rfl
  · rw [if_neg hname, if_neg hname]
    rfl

theorem Distinct.has_setMemberships_of_ne (h : db.Distinct) {name name' : String}
    (hname : name' ≠ name) (groups : List String) :
    (db.setMemberships name groups).has name' = db.has name' := by
  rw [has_eq_isSome_find?, h.find?_setMemberships, if_neg hname, has_eq_isSome_find?]

/-- With memberships there is an entry. -/
theorem Distinct.has_setMemberships_self (h : db.Distinct) (name : String) {groups : List String}
    (hgroups : groups ≠ []) : (db.setMemberships name groups).has name := by
  rw [has_eq_isSome_find?, h.find?_setMemberships, if_pos rfl, if_neg hgroups]
  rfl

theorem discardIfEmpty_set (db : Database) (name : String) (t : Tree) :
    (db.set name t).discardIfEmpty name =
      if t.isEmpty then (db.set name t).remove name else db.set name t := by
  rw [discardIfEmpty, find?_set, if_pos rfl]

/-- Replacing the memberships of a tree that was just set. -/
theorem setMemberships_set (db : Database) (name : String) (t : Tree) (groups : List String) :
    (db.set name t).setMemberships name groups =
      if groups = [] ∧ t.root.isEmpty then (db.set name { t with groups }).remove name
      else db.set name { t with groups } := by
  have hset : ∀ u, (db.set name t).set name u = db.set name u := fun u ↦ by
    rw [set, set, Entries.set_set, set]
  have hfind : (db.set name t).find? name = some t := by rw [find?_set, if_pos rfl]
  rw [setMemberships, hfind, treeOf_of_find? _ hfind]
  cases groups with
  | nil =>
    dsimp only [List.isEmpty_nil]
    rw [if_pos rfl, hset, discardIfEmpty_set]
    simp [Tree.isEmpty]
  | cons group groups => simp [hset]

/-- **What is replaced can be put back**, for an entry that holds something and for a name without one. -/
theorem setMemberships_setMemberships {name : String} {groups : List String} (hgroups : groups ≠ [])
    (hoccupied : ∀ t, db.find? name = some t → t.isEmpty = false) :
    (db.setMemberships name groups).setMemberships name (db.memberships name) = db := by
  have hfirst : db.setMemberships name groups = db.set name { db.treeOf name with groups } := by
    rw [setMemberships, if_neg (by simpa using hgroups)]
  rw [hfirst, setMemberships_set, memberships]
  cases hfind : db.find? name with
  | none =>
    -- The entry was made for the memberships, and goes with them.
    have htree : db.treeOf name = {} := by
      rw [treeOf, hfind]
      rfl
    rw [htree, if_pos ⟨rfl, rfl⟩, remove, set,
      Entries.remove_set_of_notMem (Entries.find?_eq_none_iff.1 hfind)]
  | some t =>
    have hnot : ¬(t.groups = [] ∧ t.root.isEmpty) := fun hboth ↦ by
      have hempty := hoccupied t hfind
      simp [Tree.isEmpty, hboth.1, hboth.2] at hempty
    rw [treeOf_of_find? db hfind, if_neg hnot, set, Entries.set_of_find? hfind]

/-! ### Pruning -/

/-- The database after the groups of a principal were looked up. -/
def healed (db : Database) (s : GroupSources) (name : String) : Database :=
  (db.resolveGroups s name).2

variable {s : GroupSources} {name : String}

theorem healed_eq (db : Database) (s : GroupSources) (name : String) :
    db.healed s name =
      if (db.groupsOf s name).pruned = [] then db
      else db.setMemberships name (db.groupsOf s name).explicit := by
  rw [healed, resolveGroups, GroupResolution.changed]
  by_cases h : (db.groupsOf s name).pruned = [] <;> simp [h]

/-- The stored memberships whose group has a tree are all kept, and none is kept that is not stored. -/
theorem explicit_groupsOf (h : (db.groupsOf s name).pruned ≠ []) :
    (db.groupsOf s name).explicit = (db.memberships name).filter db.has := by
  unfold groupsOf at h ⊢
  split at h <;> rename_i hname
  · exact absurd rfl h
  · rw [if_neg hname, List.partition_eq_filter_filter]

theorem Distinct.healed (h : db.Distinct) (s : GroupSources) (name : String) :
    (db.healed s name).Distinct := by
  rw [healed_eq]
  split
  · exact h
  · exact h.setMemberships _ _

@[simp] theorem rules_healed (db : Database) (s : GroupSources) (name : String) :
    (db.healed s name).rules = db.rules := by
  rw [healed_eq]
  split
  · rfl
  · exact rules_setMemberships db name _

/-- **Pruning changes no root.** -/
theorem Distinct.root_treeOf_healed (h : db.Distinct) (s : GroupSources) (name name' : String) :
    ((db.healed s name).treeOf name').root = (db.treeOf name').root := by
  rw [healed_eq]
  split
  · rfl
  · exact h.root_treeOf_setMemberships _ _ _

/-- Pruning leaves memberships as they are, or cuts them to those whose group has a tree. -/
theorem Distinct.memberships_healed (h : db.Distinct) (s : GroupSources) (name name' : String) :
    (db.healed s name).memberships name' = db.memberships name' ∨
      (db.healed s name).memberships name' = (db.memberships name').filter db.has := by
  rw [healed_eq]
  split <;> rename_i hpruned
  · exact Or.inl rfl
  · rw [h.memberships_setMemberships]
    split <;> rename_i hname
    · right
      rw [hname, explicit_groupsOf hpruned]
    · exact Or.inl rfl

/-- A name whose tree says something at some path keeps its entry. -/
theorem Distinct.has_healed_of_levelAt (h : db.Distinct) (s : GroupSources) (name : String)
    {name' : String} {path : List String} (hlevel : ((db.treeOf name').levelAt path).isSome) :
    (db.healed s name).has name' := by
  cases hfind : (db.healed s name).find? name' with
  | some t => simp [has_eq_isSome_find?, hfind]
  | none =>
    -- Its root would be that of no entry at all, which says nothing.
    have hroot := h.root_treeOf_healed s name name'
    rw [treeOf, hfind] at hroot
    have hempty : (db.treeOf name').root.isEmpty := by
      rw [← hroot]
      rfl
    rw [Tree.levelAt_of_isEmpty hempty] at hlevel
    cases hlevel

/-- Stale are the memberships of a player in groups that have no tree. -/
theorem pruned_groupsOf_eq_nil_iff : (db.groupsOf s name).pruned = [] ↔
    (name ≠ "" ∧ db.rules.isPlayer name → ∀ group ∈ db.memberships name, db.has group) := by
  unfold groupsOf
  split <;> rename_i hname
  · simp only [true_iff]
    rintro ⟨hne, hplayer⟩
    simp [hne, hplayer] at hname
  · have hmember : name ≠ "" ∧ db.rules.isPlayer name := by simpa using hname
    rw [List.partition_eq_filter_filter]
    simp [hmember.1, hmember.2]

/-- A name without an entry has nothing that is stale. -/
theorem pruned_groupsOf_of_not_has (s : GroupSources) (h : db.has name = false) :
    (db.groupsOf s name).pruned = [] := by
  refine pruned_groupsOf_of_memberships_eq_nil s ?_
  rw [has_eq_isSome_find?, Option.isSome_eq_false_iff, Option.isNone_iff_eq_none] at h
  rw [memberships, treeOf, h]
  rfl

/-- No entry is made by pruning. -/
theorem Distinct.has_of_has_healed (h : db.Distinct) {group : String} (hhas : (db.healed s name).has group) :
    db.has group := by
  rw [healed_eq] at hhas
  split at hhas <;> rename_i hpruned
  · exact hhas
  · by_cases hname : group = name
    · subst hname
      exact Bool.of_not_eq_false fun hnot ↦ hpruned (pruned_groupsOf_of_not_has s hnot)
    · rwa [h.has_setMemberships_of_ne hname] at hhas

/-- A group that has a tree keeps it when it becomes or stays a membership. -/
theorem Distinct.has_setMemberships_of_mem (h : db.Distinct) (name : String) {groups : List String}
    {group : String} (hmem : group ∈ groups) (hhas : db.has group) :
    (db.setMemberships name groups).has group := by
  by_cases hname : group = name
  · subst hname
    exact h.has_setMemberships_self group (List.ne_nil_of_mem hmem)
  · rwa [h.has_setMemberships_of_ne hname]

/-- **Nothing is stale after memberships are replaced** by groups that have a tree. -/
theorem Distinct.pruned_groupsOf_setMemberships (h : db.Distinct) (s : GroupSources)
    {name : String} {groups : List String} (hgroups : ∀ group ∈ groups, db.has group) :
    ((db.setMemberships name groups).groupsOf s name).pruned = [] := by
  refine pruned_groupsOf_eq_nil_iff.2 fun _ group hgroup ↦ ?_
  rw [h.memberships_setMemberships, if_pos rfl] at hgroup
  exact h.has_setMemberships_of_mem name hgroup (hgroups group hgroup)

/-- A membership that is kept is in a group that has a tree. -/
theorem has_of_mem_explicit {group : String} (h : group ∈ (db.groupsOf s name).explicit) :
    db.has group := by
  unfold groupsOf at h
  split at h
  · exact nomatch h
  · rw [List.partition_eq_filter_filter] at h
    exact (List.mem_filter.1 h).2

/-- What is kept is stored, in the same order. -/
theorem explicit_sublist_memberships (db : Database) (s : GroupSources) (name : String) :
    (db.groupsOf s name).explicit.Sublist (db.memberships name) := by
  unfold groupsOf
  split
  · exact List.nil_sublist _
  · rw [List.partition_eq_filter_filter]
    exact List.filter_sublist

/-- What is kept counts. -/
theorem mem_groups_of_mem_explicit {group : String} (h : group ∈ (db.groupsOf s name).explicit) :
    group ∈ (db.groupsOf s name).groups := by
  unfold groupsOf at h ⊢
  split at h <;> rename_i hname
  · exact nomatch h
  · rw [if_neg hname]
    have hadd : ∀ (names groups : List String), group ∈ groups →
        group ∈ names.foldl db.addDerived groups := by
      intro names
      induction names with
      | nil => exact fun _ hmem ↦ hmem
      | cons n names ih =>
        intro groups hmem
        refine ih _ ?_
        unfold addDerived
        split
        · exact List.mem_append_left _ hmem
        · exact hmem
    exact hadd _ _ h

/-- Pruning keeps what is kept. -/
theorem Distinct.explicit_sublist_memberships_healed (h : db.Distinct) (s : GroupSources)
    (name : String) :
    (db.groupsOf s name).explicit.Sublist ((db.healed s name).memberships name) := by
  rw [healed_eq]
  split
  · exact db.explicit_sublist_memberships s name
  · simp only [h.memberships_setMemberships, if_true, List.Sublist.refl]

theorem Distinct.has_healed_of_mem_explicit (h : db.Distinct) {group : String}
    (hmem : group ∈ (db.groupsOf s name).explicit) : (db.healed s name).has group := by
  rw [healed_eq]
  split
  · exact has_of_mem_explicit hmem
  · exact h.has_setMemberships_of_mem name hmem (has_of_mem_explicit hmem)

/-- **After pruning nothing is stale.** -/
theorem Distinct.pruned_groupsOf_healed (h : db.Distinct) (s : GroupSources) (name : String) :
    ((db.healed s name).groupsOf s name).pruned = [] := by
  rw [healed_eq]
  split <;> rename_i hpruned
  · exact hpruned
  · exact h.pruned_groupsOf_setMemberships s fun group hgroup ↦ has_of_mem_explicit hgroup

/-- To prune twice is to prune once. -/
theorem Distinct.healed_healed (h : db.Distinct) (s : GroupSources) (name : String) :
    (db.healed s name).healed s name = db.healed s name := by
  rw [(db.healed s name).healed_eq, if_pos (h.pruned_groupsOf_healed s name)]

end Database

end PathAccess
