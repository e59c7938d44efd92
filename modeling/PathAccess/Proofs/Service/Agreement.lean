import Mathlib.Data.List.Basic
import PathAccess.Proofs.Service.Changes
import PathAccess.Proofs.Service.Lookups
import PathAccess.Proofs.Tree.Frame
/-!
# Databases that agree on who decides

The level of a principal at a path is decided by the first name of a priority list whose tree says
something there. Between two databases that list may differ: groups come and go, memberships are
pruned, and a derived group moves up when an explicit membership in it is gone. None of this matters
if the names that come and go say nothing at the path.

So two databases **agree** at a path on some names if all of these say something there, and the same
in both, and the databases differ in no membership in them (`Database.AgreeOn`). If no other name that
applies says anything, the level and its source are the same (`Service.evaluation_eq_of_agreeOn`).
The two changes that calls make to a database in passing are of this kind: pruning
(`Database.AgreeOn.healed`), and an edit away from the path (`Database.AgreeOn.edited`).
-/

namespace PathAccess

/-! ### Lists without repetitions -/

/-- Adds a name at the end, if it passes a test and is not there yet. -/
def addOnce (p : String → Bool) (names : List String) (name : String) : List String :=
  if p name && !names.contains name then names ++ [name] else names

/-- **Adding names commutes with dropping some of them.** A name is added only if it passes the weaker
test `q`, and dropped at the end unless it passes `p`. -/
theorem filter_foldl_addOnce {p q : String → Bool} (h : ∀ name, p name → q name)
    (added names : List String) :
    (added.foldl (addOnce q) names).filter p = added.foldl (addOnce p) (names.filter p) := by
  induction added generalizing names with
  | nil => rfl
  | cons name added ih =>
    rw [List.foldl_cons, List.foldl_cons, ih]
    congr 1
    have hcontains : p name → (names.filter p).contains name = names.contains name := by
      intro hp
      simp [hp]
    cases hp : p name with
    | true =>
      simp only [addOnce, hp, h name hp, hcontains hp, Bool.true_and]
      split <;> simp [hp]
    | false =>
      simp only [addOnce, hp, Bool.false_and, Bool.false_eq_true, if_false]
      split <;> simp [hp]

namespace Service

/-! ### Edits -/

section Edits

variable {db db' : Database} {target : String} {segments : List String}

theorem Edited.rules_eq (h : Edited db target segments db') : db'.rules = db.rules := by
  cases h <;> rfl

theorem Edited.distinct (h : Edited db target segments db') (hdb : db.Distinct) :
    db'.Distinct := by
  cases h with
  | granted g => exact hdb.set _ _
  | removed has left => exact hdb.set _ _
  | principalRemoved has empty => exact hdb.remove _

/-- An edit changes no memberships. The tree that goes has none. -/
theorem Edited.memberships_eq (h : Edited db target segments db') (hdb : db.Distinct)
    (name : String) : db'.memberships name = db.memberships name := by
  rw [Database.memberships, Database.memberships]
  cases h with
  | granted g =>
    rw [Database.treeOf_set]
    split <;> rename_i heq
    · rw [heq]
      rfl
    · rfl
  | removed has left =>
    rw [Database.treeOf_set]
    split <;> rename_i heq
    · rw [heq, Tree.groups_revoke]
    · rfl
  | principalRemoved has empty =>
    rw [hdb.treeOf_remove]
    split <;> rename_i heq
    · have hgroups := (Bool.and_eq_true_iff.1 empty).2
      rw [Tree.groups_revoke, List.isEmpty_iff] at hgroups
      rw [heq, hgroups]
    · rfl

/-- **An edit is seen at its target only**, and there at and below its base. -/
theorem Edited.levelAt_eq (h : Edited db target segments db') (hdb : db.Distinct)
    (ht : (db.treeOf target).WellFormed) {name : String} {path : List String}
    (hbase : name = target → ¬editBase segments <+: path) :
    (db'.treeOf name).levelAt path = (db.treeOf name).levelAt path := by
  cases h with
  | granted g =>
    rw [Database.treeOf_set]
    split <;> rename_i heq
    · rw [heq]
      exact Tree.levelAt_grant_of_not_prefix ht (hbase heq) g
    · rfl
  | removed has left =>
    rw [Database.treeOf_set]
    split <;> rename_i heq
    · rw [heq]
      exact Tree.levelAt_revoke_of_not_prefix ht (hbase heq)
    · rfl
  | principalRemoved has empty =>
    rw [hdb.treeOf_remove]
    split <;> rename_i heq
    · -- Nothing is left of the tree, so it said nothing away from the entry that goes.
      have hroot := (Bool.and_eq_true_iff.1 empty).1
      rw [heq, ← Tree.levelAt_revoke_of_not_prefix ht (hbase heq),
        Tree.levelAt_of_isEmpty hroot, Tree.levelAt_of_isEmpty rfl]
    · rfl

end Edits

end Service

namespace Database

/-! ### Agreement -/

/-- Whether two databases agree at a path on the names that pass a test: these names' trees say
something there, and the same in both. -/
structure AgreeOn (p : String → Bool) (path : List String) (db db' : Database) : Prop where
  /-- The rules for names are the same. -/
  rules : db'.rules = db.rules
  /-- Each of the names says something. -/
  speaks : ∀ name, p name → ((db.treeOf name).levelAt path).isSome
  /-- It says the same in both. -/
  level : ∀ name, p name → (db'.treeOf name).levelAt path = (db.treeOf name).levelAt path
  /-- The memberships in these names are the same, and in the same order. -/
  memberships : ∀ name, (db'.memberships name).filter p = (db.memberships name).filter p

variable {p : String → Bool} {path : List String} {db db' db'' : Database}

theorem AgreeOn.refl (h : ∀ name, p name → ((db.treeOf name).levelAt path).isSome) :
    AgreeOn p path db db :=
  ⟨rfl, h, fun _ _ ↦ rfl, fun _ ↦ rfl⟩

theorem AgreeOn.trans (h : AgreeOn p path db db') (h' : AgreeOn p path db' db'') :
    AgreeOn p path db db'' where
  rules := h'.rules.trans h.rules
  speaks := h.speaks
  level := fun name hname ↦ (h'.level name hname).trans (h.level name hname)
  memberships := fun name ↦ (h'.memberships name).trans (h.memberships name)

/-- Who says something has a tree. -/
theorem has_of_levelAt {name : String} (h : ((db.treeOf name).levelAt path).isSome) :
    db.has name := by
  rw [has_eq_isSome_find?]
  cases hfind : db.find? name with
  | some t => rfl
  | none =>
    have hsilent : (db.treeOf name).levelAt path = none := by
      rw [treeOf, hfind]
      exact Tree.levelAt_of_isEmpty rfl path
    rw [hsilent] at h
    cases h

theorem AgreeOn.has (h : AgreeOn p path db db') {name : String} (hname : p name) : db.has name :=
  has_of_levelAt (h.speaks name hname)

theorem AgreeOn.has_right (h : AgreeOn p path db db') {name : String} (hname : p name) :
    db'.has name := by
  have hspeaks : ((db'.treeOf name).levelAt path).isSome := by
    rw [h.level name hname]
    exact h.speaks name hname
  exact has_of_levelAt hspeaks

/-! ### Groups -/

/-- The groups that pass a test are the memberships and the derived groups that do, each once. -/
theorem filter_groups_groupsOf (s : GroupSources) (name : String)
    (h : ∀ group, p group → db.has group) :
    (db.groupsOf s name).groups.filter p =
      if name == "" || !db.rules.isPlayer name then []
      else (db.derivedGroups s name).foldl (addOnce p) ((db.memberships name).filter p) := by
  unfold groupsOf
  split
  · rfl
  · have hkept : ((db.memberships name).filter db.has).filter p =
        (db.memberships name).filter p := by
      rw [List.filter_filter]
      refine List.filter_congr fun group _ ↦ ?_
      cases hp : p group <;> simp [h group, hp]
    rw [List.partition_eq_filter_filter]
    dsimp only
    rw [← hkept]
    exact filter_foldl_addOnce h _ _

theorem AgreeOn.filter_groups (h : AgreeOn p path db db') (s : GroupSources) (name : String) :
    (db'.groupsOf s name).groups.filter p = (db.groupsOf s name).groups.filter p := by
  have hderived : db'.derivedGroups s name = db.derivedGroups s name := by
    rw [derivedGroups, derivedGroups, h.rules]
  rw [filter_groups_groupsOf s name fun _ hp ↦ h.has hp,
    filter_groups_groupsOf s name fun _ hp ↦ h.has_right hp, h.rules, h.memberships, hderived]

/-! ### Changes in passing -/

/-- **Pruning is not seen by anyone who says something.** -/
theorem AgreeOn.healed (hdb : db.Distinct)
    (hp : ∀ name, p name → ((db.treeOf name).levelAt path).isSome) (s : GroupSources)
    (name : String) : AgreeOn p path db (db.healed s name) where
  rules := rules_healed db s name
  speaks := hp
  level := fun name' _ ↦ Tree.levelAt_of_root_eq (hdb.root_treeOf_healed s name name') path
  memberships := fun name' ↦ by
    rcases hdb.memberships_healed s name name' with heq | heq
    · rw [heq]
    · rw [heq, List.filter_filter]
      refine List.filter_congr fun group _ ↦ ?_
      cases hgroup : p group
      · rfl
      · simp [has_of_levelAt (hp group hgroup)]

/-- **An edit is not seen at a path that is not at or below its base**, nor by anyone but the
target. -/
theorem AgreeOn.edited (hdb : db.Distinct) {target : String} {segments : List String}
    (ht : (db.treeOf target).WellFormed) (hedited : Service.Edited db target segments db')
    (hp : ∀ name, p name → ((db.treeOf name).levelAt path).isSome)
    (hbase : p target → ¬editBase segments <+: path) : AgreeOn p path db db' where
  rules := hedited.rules_eq
  speaks := hp
  level := fun _ hname ↦ hedited.levelAt_eq hdb ht fun heq ↦ hbase (heq ▸ hname)
  memberships := fun name ↦ by rw [hedited.memberships_eq hdb]

end Database

namespace Service

variable {s s' : Service} {p : String → Bool} {path : List String} {name : String}

/-- The verdicts on a principal come from the names that say something. -/
theorem verdicts_eq_filterMap_filter (h : ∀ n ∈ s.priority name, p n = false →
    s.levelOf path n = none) :
    verdicts (s.treesOf name).1 path =
      ((s.priority name).filter p).filterMap fun n ↦ (s.levelOf path n).map (n, ·) := by
  rw [verdicts_treesOf, List.filterMap_filter]
  refine List.filterMap_congr fun n hn ↦ ?_
  cases hp : p n with
  | true => rfl
  | false => simp [h n hn hp]

/-- The own name applies first. -/
theorem mem_priority_self (s : Service) (name : String) : name ∈ s.priority name := by
  rw [priority]
  split <;> simp

theorem filter_priority_of_agreeOn (hsame : s.SameBut s'.db s')
    (h : Database.AgreeOn p path s.db s'.db) :
    (s'.priority name).filter p = (s.priority name).filter p := by
  rw [priority, priority]
  split
  · rfl
  · rw [hsame.groupSources_eq]
    simp only [List.cons_append, List.filter_cons, List.filter_append, h.filter_groups]

/-- **Where databases agree on all who say something, levels and sources are the same.** -/
theorem evaluation_eq_of_agreeOn (hsame : s.SameBut s'.db s')
    (h : Database.AgreeOn p path s.db s'.db)
    (hsilent : ∀ n ∈ s.priority name, p n = false → s.levelOf path n = none)
    (hsilent' : ∀ n ∈ s'.priority name, p n = false → s'.levelOf path n = none) :
    s'.evaluation path name = s.evaluation path name := by
  have hlevel : ∀ n, p n → s'.levelOf path n = s.levelOf path n := h.level
  have hown : s'.levelOf path name = s.levelOf path name := by
    cases hp : p name with
    | true => exact hlevel name hp
    | false =>
      rw [hsilent name (mem_priority_self s name) hp, hsilent' name (mem_priority_self s' name) hp]
  rw [evaluation, evaluation, hsame.homes_eq]
  refine evaluateFor_congr _ _ ?_ ?_
  · rw [verdicts_eq_filterMap_filter hsilent, verdicts_eq_filterMap_filter hsilent',
      filter_priority_of_agreeOn hsame h]
    refine List.filterMap_congr fun n hn ↦ ?_
    rw [hlevel n (List.mem_filter.1 hn).2]
  · rw [ownDecides_treesOf, ownDecides_treesOf, hown]

/-- What a lookup prunes is not seen by anyone who says something. -/
theorem agreeOn_afterRead (hdb : s.db.Distinct) (hp : ∀ n, p n → (s.levelOf path n).isSome)
    (name : String) : Database.AgreeOn p path s.db (s.afterRead name).db := by
  rw [(s.sameBut_afterRead name).db_eq, dbAfterRead]
  split
  · exact .refl hp
  · exact .healed hdb hp s.groupSources name

/-- A lookup changes nothing that a tree says. -/
theorem levelOf_afterRead (hdb : s.db.Distinct) (name : String) (path : List String) (n : String) :
    (s.afterRead name).levelOf path n = s.levelOf path n :=
  Tree.levelAt_of_root_eq (root_treeOf_afterRead hdb name n) path

/-- **A lookup changes no level.** -/
theorem evaluation_afterRead (hdb : s.db.Distinct) (name' : String) (path : List String)
    (name : String) : (s.afterRead name').evaluation path name = s.evaluation path name := by
  have hsame := s.sameBut_afterRead name'
  have hagree := agreeOn_afterRead (p := fun n ↦ (s.levelOf path n).isSome) hdb (fun _ hn ↦ hn) name'
  rw [← hsame.db_eq] at hsame
  refine evaluation_eq_of_agreeOn hsame hagree (fun n _ hn ↦ ?_) fun n _ hn ↦ ?_
  · simpa using hn
  · rw [levelOf_afterRead hdb]
    simpa using hn

/-- **The own tree decides first**, if it says something. Rules give way to it. -/
theorem evaluation_of_own (hpath : path ≠ []) {g : Grade} (h : s.levelOf path name = some g) :
    s.evaluation path name = ⟨some g, some name, path⟩ := by
  have hfirst : (verdicts (s.treesOf name).1 path).head? = some (name, g) := by
    rw [verdicts_treesOf, priority]
    split <;> simp [h]
  have hdecides : ownDecides (s.treesOf name).1 path (s.treesOf name).2 = true := by
    rw [ownDecides_treesOf, h]
    simp [hpath]
  change (if ownDecides (s.treesOf name).1 path (s.treesOf name).2 then _ else _) = _
  rw [if_pos hdecides, evaluateTrees_eq_head?_verdicts, hfirst]
  rfl

end Service

end PathAccess
