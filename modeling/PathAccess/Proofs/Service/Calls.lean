import PathAccess.Service.Listing
import PathAccess.Service.Query
/-!
# Running calls

A call is run on a service and leaves a service. What it leaves differs from what it found in the
database at most: the store's contents and the audit trail are kept up on the side
(`Service.SameBut`), and what the service is set up with never changes. `Service.sameBut_change` says
so of the end that all changing calls have in common, whether the database can be saved or not.

Reading changes the database as well, but only to prune stale memberships. Where nothing is stale,
looking up groups, trees and levels are functions of the service (`run_resolveGroups`,
`run_treesFor`, `run_evaluate`), and no query changes anything.
-/

namespace PathAccess

namespace Service

variable (s : Service)

/-! ### Running -/

section Run

variable {α β : Type}

@[simp] theorem run_pure (a : α) : s.run (pure a) = (.ok a, s) := rfl

@[simp] theorem run_get : s.run get = (.ok s, s) := rfl

@[simp] theorem run_set (s' : Service) : s.run (set s') = (.ok (), s') := rfl

@[simp] theorem run_modify (f : Service → Service) : s.run (modify f) = (.ok (), f s) := rfl

theorem run_bind (c : Call α) (f : α → Call β) :
    s.run (c >>= f) =
      match s.run c with
      | (.ok a, s') => s'.run (f a)
      | (.error e, s') => (.error e, s') := by
  change (ExceptT.run c >>= ExceptT.bindCont f).run s = _
  rw [StateT.run_bind]
  change (match (s.run c : Except ServiceError α × Service) with
    | (a, s') => (ExceptT.bindCont f a).run s') = _
  rcases s.run c with ⟨_ | a, s'⟩ <;> rfl

variable {s}

/-- A call that gives a result is followed by the next one. -/
theorem run_bind_of_ok {c : Call α} {a : α} {s' : Service} (h : s.run c = (.ok a, s'))
    (f : α → Call β) : s.run (c >>= f) = s'.run (f a) := by
  rw [run_bind, h]

end Run

/-! ### What is kept up on the side -/

/-- Whether a service is another one with the given database, but for what its store holds and what
its audit trail says. -/
def SameBut (db : Database) (s s' : Service) : Prop :=
  ∃ store events, s' = { s with db, store, events }

theorem SameBut.refl : s.SameBut s.db s := ⟨s.store, s.events, rfl⟩

variable {s}

theorem SameBut.db_eq {s' : Service} {db : Database} (h : s.SameBut db s') : s'.db = db := by
  obtain ⟨store, events, rfl⟩ := h
  rfl

theorem SameBut.self {s' : Service} {db : Database} (h : s.SameBut db s') :
    s.SameBut s'.db s' := by
  rwa [h.db_eq]

theorem SameBut.resolver_eq {s' : Service} {db : Database} (h : s.SameBut db s') :
    s'.resolver = s.resolver := by
  obtain ⟨store, events, rfl⟩ := h
  rfl

theorem SameBut.groupSources_eq {s' : Service} {db : Database} (h : s.SameBut db s') :
    s'.groupSources = s.groupSources := by
  obtain ⟨store, events, rfl⟩ := h
  rfl

theorem SameBut.homes_eq {s' : Service} {db : Database} (h : s.SameBut db s') :
    s'.homes = s.homes := by
  obtain ⟨store, events, rfl⟩ := h
  rfl

theorem SameBut.rules_eq {s' : Service} {db : Database} (h : s.SameBut db s') :
    s'.rules = s.rules := by
  obtain ⟨store, events, rfl⟩ := h
  rfl

theorem SameBut.tiers_eq {s' : Service} {db : Database} (h : s.SameBut db s') :
    s'.tiers = s.tiers := by
  obtain ⟨store, events, rfl⟩ := h
  rfl

theorem SameBut.playerExists_eq {s' : Service} {db : Database} (h : s.SameBut db s')
    (name : String) : s'.playerExists name = s.playerExists name := by
  obtain ⟨store, events, rfl⟩ := h
  rfl

theorem SameBut.privilegeOf_eq {s' : Service} {db : Database} (h : s.SameBut db s')
    (name : String) : s'.privilegeOf name = s.privilegeOf name := by
  obtain ⟨store, events, rfl⟩ := h
  rfl

theorem SameBut.isArchwizard_eq {s' : Service} {db : Database} (h : s.SameBut db s')
    (name : String) : s'.isArchwizard name = s.isArchwizard name := by
  rw [isArchwizard, isArchwizard, h.tiers_eq, h.privilegeOf_eq]

theorem SameBut.trans {s' s'' : Service} {db db' : Database} (h : s.SameBut db s')
    (h' : s'.SameBut db' s'') : s.SameBut db' s'' := by
  obtain ⟨store, events, rfl⟩ := h
  obtain ⟨store', events', rfl⟩ := h'
  exact ⟨store', events', rfl⟩

variable (s)

theorem sameBut_persist : s.SameBut s.db (s.run Call.persist).2 := by
  rw [Call.persist, run_bind_of_ok s.run_get]
  split
  · exact .refl s
  · split
    · rw [run_set]
      exact ⟨_, _, rfl⟩
    · exact .refl s

theorem run_audit (e : AuditEvent) :
    ∃ s', s.run (Call.audit e) = (.ok (), s') ∧ s.SameBut s.db s' := by
  rw [Call.audit, run_modify]
  refine ⟨_, rfl, ?_⟩
  split
  · exact ⟨_, _, rfl⟩
  · exact .refl s

/-- **The end of every changing call**: the database is put in place, and what is recorded and saved
then changes nothing else, whether it can be saved or not. -/
theorem sameBut_change {α : Type} {db : Database} {f : Service → Service}
    (hf : f s = { s with db }) (e : AuditEvent) (a : α) :
    s.SameBut db (s.run (do modify f; Call.audit e; Call.persist; return a)).2 := by
  rw [run_bind_of_ok (s.run_modify f), hf]
  have hset : s.SameBut db { s with db } := ⟨s.store, s.events, rfl⟩
  obtain ⟨s', hs', haudit⟩ := run_audit { s with db } e
  rw [run_bind_of_ok hs', run_bind]
  have hpersist := s'.sameBut_persist
  rw [haudit.db_eq] at hpersist
  rcases hrun : s'.run Call.persist with ⟨r, s''⟩
  rw [hrun] at hpersist
  cases r with
  | error e => exact (hset.trans haudit).trans hpersist
  | ok u => exact (hset.trans haudit).trans hpersist

/-! ### Reading -/

/-- The trees that apply to a principal where nothing is stale, and whether the first is its own. -/
def treesOf (name : String) : List OwnedTree × Bool :=
  let own := s.db.find? name
  if name == defaultPrincipal then ([⟨name, s.db.defaultTree⟩], own.isSome)
  else
    ((own.map (⟨name, ·⟩ : Tree → OwnedTree)).toList
      ++ (s.db.groupsOf s.groupSources name).groups.filterMap
          (fun group ↦ (s.db.find? group).map (⟨group, ·⟩))
      ++ [⟨defaultPrincipal, s.db.defaultTree⟩], own.isSome)

/-- The level of a principal at a path where nothing is stale, and its source. -/
def evaluation (segments : List String) (name : String) : Evaluation :=
  evaluateFor s.homes (s.treesOf name).1 segments name (s.treesOf name).2

section NothingStale

variable {s} {name : String} (h : (s.db.groupsOf s.groupSources name).pruned = [])

include h

theorem run_resolveGroups :
    s.run (Call.resolveGroups name) = (.ok (s.db.groupsOf s.groupSources name), s) := by
  have hchanged : (s.db.groupsOf s.groupSources name).changed = false := by
    simp [GroupResolution.changed, h]
  have hresolve : s.db.resolveGroups s.groupSources name =
      (s.db.groupsOf s.groupSources name, s.db) := by
    simp [Database.resolveGroups, hchanged]
  rw [Call.resolveGroups, run_bind_of_ok s.run_get, hresolve]
  simp only [hchanged]
  rfl

theorem run_treesFor : s.run (Call.treesFor name) = (.ok (s.treesOf name), s) := by
  rw [Call.treesFor, run_bind_of_ok s.run_get, treesOf]
  by_cases hname : name == defaultPrincipal
  · simp only [hname]
    rfl
  · have hchanged : (s.db.groupsOf s.groupSources name).changed = false := by
      simp [GroupResolution.changed, h]
    simp only [hname, Bool.false_eq_true, if_false]
    rw [run_bind_of_ok (run_resolveGroups h), run_bind_of_ok s.run_get, hchanged]
    simp

theorem run_evaluate (segments : List String) :
    s.run (Call.evaluate segments name) = (.ok (s.evaluation segments name), s) := by
  rw [Call.evaluate, run_bind_of_ok (run_treesFor h)]
  rfl

end NothingStale

/-! ### Queries -/

section Queries

variable {s}

/-- Resolving a path changes nothing. -/
theorem run_resolvePath (path : Value) (acting cwd : Option String) :
    s.run (Call.resolvePath path acting cwd) =
      ((s.resolver.resolve path acting cwd false).mapError .invalidPath, s) := by
  rw [Call.resolvePath, run_bind_of_ok s.run_get]
  cases s.resolver.resolve path acting cwd false <;> rfl

/-- **The level at a path.** -/
theorem run_effectiveLevel {principal : String}
    (h : (s.db.groupsOf s.groupSources principal).pruned = []) (path : Value)
    (cwd : Option String) :
    s.run (Call.effectiveLevel path principal cwd) =
      match s.resolver.resolve path (some principal) cwd false with
      | .error e => (.error (.invalidPath e), s)
      | .ok segments => (.ok (s.evaluation segments principal), s) := by
  rw [Call.effectiveLevel, run_bind, run_resolvePath]
  cases s.resolver.resolve path (some principal) cwd false with
  | error e => rfl
  | ok segments => exact run_evaluate h segments

/-- **A check** leaves the database as it is. -/
theorem run_check {principal : String} (h : (s.db.groupsOf s.groupSources principal).pruned = [])
    (path : Value) (required : Level) (cwd : Option String) (ownSession : Bool) :
    s.SameBut s.db (s.run (Call.check path principal required cwd ownSession)).2 := by
  rw [Call.check, run_bind_of_ok s.run_get]
  split
  · obtain ⟨s', hs', haudit⟩ := s.run_audit (.denied principal path.plain required none)
    rw [run_bind_of_ok hs']
    exact haudit
  · dsimp only
    split
    · exact .refl s
    · rw [run_bind_of_ok (run_evaluate h _)]
      split
      · obtain ⟨s', hs', haudit⟩ := s.run_audit _
        rw [run_bind_of_ok hs']
        exact haudit
      · exact .refl s

theorem run_groupsOf {name : String} (h : (s.db.groupsOf s.groupSources name).pruned = []) :
    (s.run (Call.groupsOf name)).2 = s := by
  rw [Call.groupsOf, run_bind_of_ok (run_resolveGroups h)]
  rfl

theorem run_canonicalPath (path : Value) (acting cwd : Option String) :
    (s.run (Call.canonicalPath path acting cwd)).2 = s := by
  rw [Call.canonicalPath, run_bind, run_resolvePath]
  cases s.resolver.resolve path acting cwd false <;> rfl

/-- **A listing** leaves the service as it is. -/
theorem run_list (h : ∀ name, (s.db.groupsOf s.groupSources name).pruned = []) (name : String)
    (mode : Option ListingMode) : (s.run (Call.list name mode)).2 = s := by
  have hfallback : ∃ r, s.run (Call.fallsBack name) = (r, s) := by
    rw [Call.fallsBack, run_bind_of_ok s.run_get]
    split
    · exact ⟨_, rfl⟩
    · rw [run_bind_of_ok (run_resolveGroups (h name))]
      split
      · exact ⟨_, rfl⟩
      · split
        · exact ⟨_, rfl⟩
        · split
          · exact ⟨_, rfl⟩
          · exact ⟨_, rfl⟩
  obtain ⟨r, hr⟩ := hfallback
  rw [Call.list, run_bind, hr]
  cases r with
  | error e => rfl
  | ok fallback =>
    dsimp only
    rw [run_bind_of_ok (run_treesFor (h _))]
    rfl

end Queries

end Service

end PathAccess
