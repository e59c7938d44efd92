import PathAccess.Proofs.Database.Memberships
import PathAccess.Proofs.Service.Evaluation
/-!
# Lookups where something is stale

Any lookup of groups, trees or levels may find stale memberships, prune them and save the database. It
then gives the same level that it would give without pruning (`run_evaluate_cases`), since pruning
changes no root and takes away nothing that says anything. What it leaves is the service with the
database pruned and saved (`afterRead`).

A lookup fails only if the store refuses to save what was pruned. So on a service that can save
(`CanSave`) every lookup has a result.
-/

namespace PathAccess

namespace Service

variable {s : Service}

/-- A call that gives a result did so in each of its steps. -/
theorem exists_of_run_bind_eq_ok {α β : Type} {c : Call α} {f : α → Call β} {b : β} {s'' : Service}
    (h : s.run (c >>= f) = (.ok b, s'')) :
    ∃ a s', s.run c = (.ok a, s') ∧ s'.run (f a) = (.ok b, s'') := by
  rw [run_bind] at h
  rcases hrun : s.run c with ⟨_ | a, s'⟩
  · rw [hrun] at h
    exact nomatch congrArg Prod.fst h
  · rw [hrun] at h
    exact ⟨a, s', rfl, h⟩

/-! ### Saving -/

/-- Whether saving cannot fail: there is no store, or it does not refuse to save. -/
def CanSave (s : Service) : Prop :=
  ∀ store ∈ s.store, store.fault = none

instance (s : Service) : Decidable s.CanSave :=
  inferInstanceAs (Decidable (∀ store ∈ s.store, store.fault = none))

variable (s) in
/-- The service with its database saved, if it has a store. -/
def saved : Service :=
  { s with store := s.store.map fun store ↦
      { store with document := some s.db.toDocument, saves := store.saves + 1 } }

theorem CanSave.run_persist (h : s.CanSave) : s.run Call.persist = (.ok (), s.saved) := by
  rw [Call.persist, run_bind_of_ok s.run_get]
  obtain ⟨db, store, identity, affiliations, rules, tiers, layout, auditRules, events⟩ := s
  rcases store with - | ⟨document, rules', source, fault, saves⟩
  · rfl
  · obtain rfl : fault = none := h _ rfl
    rfl

/-- A refused save leaves everything as it is. -/
theorem run_persist_of_not_canSave (h : ¬s.CanSave) :
    ∃ e, s.run Call.persist = (.error e, s) := by
  obtain ⟨store, hstore, hfault⟩ : ∃ store, s.store = some store ∧ store.fault ≠ none := by
    simpa [CanSave] using h
  obtain ⟨e, he⟩ := Option.ne_none_iff_exists'.1 hfault
  rw [Call.persist, run_bind_of_ok s.run_get]
  simp only [hstore, Store.save, he]
  exact ⟨.unsaved e, rfl⟩

variable (s) in
theorem sameBut_saved : s.SameBut s.db s.saved :=
  ⟨_, _, rfl⟩

theorem canSave_saved_iff : s.saved.CanSave ↔ s.CanSave := by
  simp [CanSave, saved]

/-! ### Groups -/

section Lookups

variable (s) (name : String)

/-- The service after the groups of a principal were looked up. -/
def afterLookup : Service :=
  if (s.db.groupsOf s.groupSources name).pruned = [] then s
  else ({ s with db := s.db.healed s.groupSources name } : Service).saved

theorem sameBut_afterLookup :
    s.SameBut (s.db.healed s.groupSources name) (s.afterLookup name) := by
  rw [afterLookup]
  split <;> rename_i hpruned
  · rw [Database.healed_eq, if_pos hpruned]
    exact .refl s
  · exact ⟨_, _, rfl⟩

variable {s name} in
/-- Where something is stale, what was pruned is saved before the groups are given. -/
theorem run_resolveGroups_of_stale (h : (s.db.groupsOf s.groupSources name).pruned ≠ []) :
    s.run (Call.resolveGroups name) =
      ({ s with db := s.db.healed s.groupSources name } : Service).run (do
        Call.persist
        return s.db.groupsOf s.groupSources name) := by
  have hchanged : (s.db.groupsOf s.groupSources name).changed = true := by
    simp [GroupResolution.changed, h]
  have hresolve : s.db.resolveGroups s.groupSources name =
      (s.db.groupsOf s.groupSources name, s.db.healed s.groupSources name) := rfl
  rw [Call.resolveGroups, run_bind_of_ok s.run_get, hresolve]
  dsimp only
  rw [run_bind_of_ok (s.run_set _), hchanged, if_pos rfl]

variable {s name} in
theorem run_resolveGroups_of_not_canSave (hsave : ¬s.CanSave)
    (h : (s.db.groupsOf s.groupSources name).pruned ≠ []) :
    ∃ e, s.run (Call.resolveGroups name) =
      (.error e, { s with db := s.db.healed s.groupSources name }) := by
  obtain ⟨e, hpersist⟩ := run_persist_of_not_canSave
    (s := { s with db := s.db.healed s.groupSources name }) hsave
  exact ⟨e, by rw [run_resolveGroups_of_stale h, run_bind, hpersist]⟩

/-- **Groups are looked up**, or what was pruned cannot be saved. -/
theorem run_resolveGroups_cases :
    s.run (Call.resolveGroups name) =
        (.ok (s.db.groupsOf s.groupSources name), s.afterLookup name) ∨
      ¬s.CanSave ∧ ∃ e, s.run (Call.resolveGroups name) =
        (.error e, { s with db := s.db.healed s.groupSources name }) := by
  by_cases hpruned : (s.db.groupsOf s.groupSources name).pruned = []
  · left
    rw [run_resolveGroups hpruned, afterLookup, if_pos hpruned]
  by_cases hsave : s.CanSave
  · left
    have hpersist : ({ s with db := s.db.healed s.groupSources name } : Service).run
        Call.persist = (.ok (), _) := CanSave.run_persist hsave
    rw [run_resolveGroups_of_stale hpruned, run_bind_of_ok hpersist, afterLookup, if_neg hpruned]
    rfl
  · exact .inr ⟨hsave, run_resolveGroups_of_not_canSave hsave hpruned⟩

variable {s name} in
/-- Groups that were looked up are those of the service before. -/
theorem eq_of_run_resolveGroups_eq_ok {r : GroupResolution} {s' : Service}
    (h : s.run (Call.resolveGroups name) = (.ok r, s')) :
    r = s.db.groupsOf s.groupSources name ∧ s' = s.afterLookup name := by
  rcases s.run_resolveGroups_cases name with hrun | ⟨-, e, hrun⟩
  · rw [hrun, Prod.mk.injEq, Except.ok.injEq] at h
    exact ⟨h.1.symm, h.2.symm⟩
  · rw [hrun, Prod.mk.injEq] at h
    exact nomatch h.1

/-! ### Trees and levels -/

/-- The trees that apply to a principal, as they are looked up, and whether the first is its own. The
own tree is the one found at first, and the others come from the pruned database. -/
def treesRead : List OwnedTree × Bool :=
  let own := s.db.find? name
  let r := s.db.groupsOf s.groupSources name
  let db := s.db.healed s.groupSources name
  if name == defaultPrincipal then ([⟨name, s.db.defaultTree⟩], own.isSome)
  else
    ((own.map fun t ↦
        (⟨name, if r.changed then { t with groups := r.explicit } else t⟩ : OwnedTree)).toList
      ++ r.groups.filterMap (fun group ↦ (db.find? group).map (⟨group, ·⟩))
      ++ [⟨defaultPrincipal, db.defaultTree⟩], own.isSome)

/-- The database after the trees of a principal were looked up. Those of the default take no lookup of
groups. -/
def dbAfterRead : Database :=
  if name == defaultPrincipal then s.db else s.db.healed s.groupSources name

/-- The service after the trees of a principal were looked up. -/
def afterRead : Service :=
  if name == defaultPrincipal then s else s.afterLookup name

theorem sameBut_afterRead : s.SameBut (s.dbAfterRead name) (s.afterRead name) := by
  rw [dbAfterRead, afterRead]
  split
  · exact .refl s
  · exact s.sameBut_afterLookup name

/-- **Trees are looked up**, or what was pruned cannot be saved. -/
theorem run_treesFor_cases :
    s.run (Call.treesFor name) = (.ok (s.treesRead name), s.afterRead name) ∨
      ¬s.CanSave ∧ ∃ e, s.run (Call.treesFor name) =
        (.error e, { s with db := s.dbAfterRead name }) := by
  rw [Call.treesFor, run_bind_of_ok s.run_get]
  by_cases hname : name == defaultPrincipal
  · left
    rw [treesRead, afterRead, if_pos hname]
    simp only [hname]
    rfl
  · simp only [hname, Bool.false_eq_true, if_false]
    rcases s.run_resolveGroups_cases name with hrun | ⟨hsave, e, hrun⟩
    · left
      have hdb : (s.afterLookup name).db = s.db.healed s.groupSources name :=
        (s.sameBut_afterLookup name).db_eq
      rw [run_bind_of_ok hrun, run_bind_of_ok (run_get _), hdb, treesRead, afterRead, if_neg hname,
        if_neg hname]
      simp only [run_pure, Option.map_map, Option.isSome_map]
      rfl
    · right
      refine ⟨hsave, e, ?_⟩
      rw [run_bind, hrun, dbAfterRead, if_neg hname]

end Lookups

theorem canSave_afterRead_iff (name : String) : (s.afterRead name).CanSave ↔ s.CanSave := by
  rw [afterRead, afterLookup]
  split
  · rfl
  · split
    · rfl
    · exact canSave_saved_iff

theorem distinct_afterRead (hdb : s.db.Distinct) (name : String) :
    (s.afterRead name).db.Distinct := by
  rw [(s.sameBut_afterRead name).db_eq, dbAfterRead]
  split
  · exact hdb
  · exact hdb.healed _ _

/-- A lookup changes no root. -/
theorem root_treeOf_afterRead (hdb : s.db.Distinct) (name name' : String) :
    ((s.afterRead name).db.treeOf name').root = (s.db.treeOf name').root := by
  rw [(s.sameBut_afterRead name).db_eq, dbAfterRead]
  split
  · rfl
  · exact hdb.root_treeOf_healed _ _ _

/-- A tree found before pruning says what the tree of that name says after it. -/
theorem levelAt_find?_healed (hdb : s.db.Distinct) (name name' : String) (path : List String) :
    ((s.db.healed s.groupSources name).find? name').bind (·.levelAt path) =
      s.levelOf path name' := by
  have hroot := hdb.root_treeOf_healed s.groupSources name name'
  have hlevel : ((s.db.healed s.groupSources name).treeOf name').levelAt path =
      s.levelOf path name' := Tree.levelAt_of_root_eq hroot path
  rw [← hlevel, Database.treeOf]
  cases (s.db.healed s.groupSources name).find? name' with
  | none => exact (Tree.levelAt_of_isEmpty rfl path).symm
  | some t => rfl

/-- **The verdicts on a principal** are not changed by what is pruned when they are looked up. -/
theorem verdicts_treesRead (hdb : s.db.Distinct) (path : List String) (name : String) :
    verdicts (s.treesRead name).1 path = verdicts (s.treesOf name).1 path := by
  rw [treesRead, treesOf]
  by_cases hname : name == defaultPrincipal
  · rw [if_pos hname, if_pos hname]
  · rw [if_neg hname, if_neg hname]
    dsimp only
    simp only [verdicts_append, verdicts_filterMap_find?]
    congr 1
    · congr 1
      · -- The own tree differs in its memberships at most, and those say nothing.
        cases s.db.find? name with
        | none => rfl
        | some t =>
          simp only [Option.map_some, Option.toList_some, verdicts_singleton]
          split <;> (cases path <;> rfl)
      · rw [verdicts, List.filterMap_filterMap]
        congr 1
        funext group
        rw [← levelAt_find?_healed hdb name group path]
        cases (s.db.healed s.groupSources name).find? group <;> rfl
    · rw [verdicts_singleton, verdicts_singleton]
      have hroot := hdb.root_treeOf_healed s.groupSources name defaultPrincipal
      simp only [Database.defaultTree]
      rw [Tree.levelAt_of_root_eq hroot]

/-- Whether the own tree decides is not changed either. -/
theorem ownDecides_treesRead (path : List String) (name : String) :
    ownDecides (s.treesRead name).1 path (s.treesRead name).2 =
      ownDecides (s.treesOf name).1 path (s.treesOf name).2 := by
  rw [ownDecides_treesOf, treesRead]
  by_cases hname : name == defaultPrincipal
  · rw [if_pos hname, ← ownDecides_treesOf, treesOf, if_pos hname]
  · rw [if_neg hname, levelOf_eq_bind]
    dsimp only
    rw [List.append_assoc, ← Option.isSome_map, ownDecides_eq]
    cases s.db.find? name with
    | none => rfl
    | some t =>
      dsimp only [Option.map_some, Option.bind_some]
      split <;> (cases path <;> rfl)

/-- **The level that is looked up is the one without pruning.** -/
theorem evaluateFor_treesRead (hdb : s.db.Distinct) (path : List String) (name : String) :
    evaluateFor s.homes (s.treesRead name).1 path name (s.treesRead name).2 =
      s.evaluation path name :=
  evaluateFor_congr _ _ (verdicts_treesRead hdb path name) (ownDecides_treesRead path name)

/-- **A level is looked up**, or what was pruned cannot be saved. -/
theorem run_evaluate_cases (hdb : s.db.Distinct) (path : List String) (name : String) :
    s.run (Call.evaluate path name) = (.ok (s.evaluation path name), s.afterRead name) ∨
      ¬s.CanSave ∧ ∃ e, s.run (Call.evaluate path name) =
        (.error e, { s with db := s.dbAfterRead name }) := by
  rw [Call.evaluate]
  rcases s.run_treesFor_cases name with hrun | ⟨hsave, e, hrun⟩
  · left
    rw [run_bind_of_ok hrun]
    dsimp only
    rw [run_bind_of_ok (run_get _), (s.sameBut_afterRead name).homes_eq,
      evaluateFor_treesRead hdb]
    rfl
  · right
    refine ⟨hsave, e, ?_⟩
    rw [run_bind, hrun]

/-- A level that was looked up is that of the service before. -/
theorem eq_of_run_evaluate_eq_ok (hdb : s.db.Distinct) {path : List String} {name : String}
    {e : Evaluation} {s' : Service} (h : s.run (Call.evaluate path name) = (.ok e, s')) :
    e = s.evaluation path name ∧ s' = s.afterRead name := by
  rcases run_evaluate_cases hdb path name with hrun | ⟨-, e', hrun⟩
  · rw [hrun, Prod.mk.injEq, Except.ok.injEq] at h
    exact ⟨h.1.symm, h.2.symm⟩
  · rw [hrun, Prod.mk.injEq] at h
    exact nomatch h.1

/-! ### Looking up twice -/

/-- Whether looking up the trees of a name prunes nothing. -/
def Settled (s : Service) (name : String) : Prop :=
  name = defaultPrincipal ∨ (s.db.groupsOf s.groupSources name).pruned = []

/-- **What was looked up is settled.** -/
theorem settled_afterRead (hdb : s.db.Distinct) (name : String) :
    (s.afterRead name).Settled name := by
  rw [Settled, (s.sameBut_afterRead name).db_eq, (s.sameBut_afterRead name).groupSources_eq]
  by_cases hname : name = defaultPrincipal
  · exact Or.inl hname
  · right
    rw [dbAfterRead, if_neg (by simpa using hname)]
    exact hdb.pruned_groupsOf_healed s.groupSources name

/-- A lookup of what is settled succeeds, whether the service can save or not, and changes nothing. -/
theorem Settled.run_evaluate {name : String} (h : s.Settled name) (path : List String) :
    s.run (Call.evaluate path name) = (.ok (s.evaluation path name), s) := by
  rcases h with rfl | hpruned
  · have htrees : s.run (Call.treesFor defaultPrincipal) =
        (.ok (s.treesOf defaultPrincipal), s) := rfl
    rw [Call.evaluate, run_bind_of_ok htrees]
    rfl
  · exact Service.run_evaluate hpruned path

theorem Settled.run_effectiveLevel {principal : String} (h : s.Settled principal) {path : Value}
    {cwd : Option String} {segments : List String}
    (hpath : s.resolver.resolve path (some principal) cwd false = .ok segments) :
    s.run (Call.effectiveLevel path principal cwd) = (.ok (s.evaluation segments principal), s) := by
  have hresolve : s.run (Call.resolvePath path (some principal) cwd) = (.ok segments, s) := by
    rw [run_resolvePath, hpath]
    rfl
  rw [Call.effectiveLevel, run_bind_of_ok hresolve]
  exact h.run_evaluate segments

/-- **On a service that can save, the level at every path can be asked for.** -/
theorem CanSave.run_effectiveLevel (hsave : s.CanSave) (hdb : s.db.Distinct) {path : Value}
    {principal : String} {cwd : Option String} {segments : List String}
    (hpath : s.resolver.resolve path (some principal) cwd false = .ok segments) :
    s.run (Call.effectiveLevel path principal cwd) =
      (.ok (s.evaluation segments principal), s.afterRead principal) := by
  have hresolve : s.run (Call.resolvePath path (some principal) cwd) = (.ok segments, s) := by
    rw [run_resolvePath, hpath]
    rfl
  rw [Call.effectiveLevel, run_bind_of_ok hresolve]
  exact (run_evaluate_cases hdb segments principal).resolve_right fun h ↦ h.1 hsave

end Service

end PathAccess
