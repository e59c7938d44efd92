import PathAccess.Proofs.Service.Durability
/-!
# The course of a request

What a request does is settled by the database, the directories and the rules alone. It looks up the
groups of a few principals, one after the other, and each lookup may prune memberships and save. Then it
does one thing: it answers, or it puts a new database in place, records that and saves. This is its
**course** (`Course`). The store has no part in it. All that a store can do is to refuse a save, and then
the course is broken off there.

So a request follows the same course whatever the store holds and whatever the audit trail says
(`Service.Follows`), and what holds of it over a store that works can be compared with what holds over one
that does not (`CanSave.run_call`, `run_call_of_fault`).
-/

namespace PathAccess

/-- What a request does, apart from whether it can be saved. -/
structure Course (α : Type) where
  /-- The principals whose groups are looked up, in order. -/
  names : List String := []
  /-- The database that is put in place and saved in the end, if the request changes something. -/
  db : Option Database := none
  /-- The event that is handed to the audit trail in the end. -/
  event : Option AuditEvent := none
  /-- What comes of the request. -/
  result : Except ServiceError α

namespace Call

/-- Looks up the groups of several principals. -/
def lookUp : List String → Call Unit
  | [] => pure ()
  | name :: names => do
    let _ ← resolveGroups name
    lookUp names

theorem lookUp_append (names names' : List String) :
    lookUp (names ++ names') = (do lookUp names; lookUp names') := by
  induction names with
  | nil => rfl
  | cons name names ih => rw [List.cons_append, lookUp, lookUp, bind_assoc, ih]

end Call

namespace Course

variable {α β : Type} (k : Course α)

/-- The service once the database is put in place and the event recorded. -/
def told (s : Service) : Service :=
  let s := { s with db := k.db.getD s.db }
  match k.event with
  | some e => s.heard e
  | none => s

/-- What is done after the lookups. -/
def ending : Call α := do
  modify k.told
  if k.db.isSome then Call.persist
  match k.result with
  | .ok a => pure a
  | .error e => throw e

/-- The whole course. -/
def call : Call α := do
  Call.lookUp k.names
  k.ending

/-- The course with other lookups before it. -/
def after (names : List String) : Course α :=
  { k with names := names ++ k.names }

theorem call_after (names : List String) :
    (k.after names).call = (do Call.lookUp names; k.call) := by
  have happend := Call.lookUp_append names k.names
  have hcall : (k.after names).call = (do Call.lookUp (names ++ k.names); k.ending) := rfl
  rw [hcall, happend, bind_assoc]
  rfl

/-- The course with a result made of the one it has. -/
def map (f : α → β) : Course β :=
  { k with result := k.result.map f }

end Course

namespace Database

/-- The database after the groups of several principals were looked up. -/
def healedAll (db : Database) (s : GroupSources) (names : List String) : Database :=
  names.foldl (fun db name ↦ db.healed s name) db

@[simp] theorem healedAll_nil (db : Database) (s : GroupSources) : db.healedAll s [] = db := rfl

@[simp] theorem healedAll_cons (db : Database) (s : GroupSources) (name : String)
    (names : List String) :
    db.healedAll s (name :: names) = (db.healed s name).healedAll s names := rfl

theorem healedAll_append (db : Database) (s : GroupSources) (names names' : List String) :
    db.healedAll s (names ++ names') = (db.healedAll s names).healedAll s names' :=
  List.foldl_append

theorem Distinct.healedAll {db : Database} (h : db.Distinct) (s : GroupSources)
    (names : List String) : (db.healedAll s names).Distinct := by
  induction names generalizing db with
  | nil => exact h
  | cons name names ih => exact ih (h.healed s name)

/-- Looking up groups changes no root. -/
theorem Distinct.root_treeOf_healedAll {db : Database} (h : db.Distinct) (s : GroupSources)
    (names : List String) (name' : String) :
    ((db.healedAll s names).treeOf name').root = (db.treeOf name').root := by
  induction names generalizing db with
  | nil => rfl
  | cons name names ih =>
    have hrest := ih (h.healed s name)
    rw [healedAll_cons, hrest, h.root_treeOf_healed]

end Database

namespace Service

/-- Whether a call follows a course, whatever the store holds and whatever was recorded. -/
def Follows {α : Type} (s : Service) (c : Call α) (k : Course α) : Prop :=
  ∀ store events, ({ s with store, events } : Service).run c =
    ({ s with store, events } : Service).run k.call

variable {α β : Type} {s : Service}

/-! ### Following a course -/

theorem Follows.run_eq {c : Call α} {k : Course α} (h : s.Follows c k) : s.run c = s.run k.call :=
  h s.store s.events

theorem follows_pure (a : α) : s.Follows (pure a) { result := .ok a } :=
  fun _ _ ↦ rfl

theorem follows_throw (e : ServiceError) : s.Follows (throw e : Call α) { result := .error e } :=
  fun _ _ ↦ rfl

theorem follows_audit (e : AuditEvent) (a : α) :
    s.Follows (do Call.audit e; return a) { event := some e, result := .ok a } :=
  fun _ _ ↦ rfl

theorem follows_change {db : Database} {f : Service → Service}
    (hf : ∀ store events, f { s with store, events } = { s with db, store, events })
    (e : AuditEvent) (a : α) :
    s.Follows (do modify f; Call.audit e; Call.persist; return a)
      { db := some db, event := some e, result := .ok a } := by
  intro store events
  rw [run_bind_of_ok (run_modify _ f), hf]
  rfl

/-! ### Endings -/

variable (s) in
/-- **The end of a course**: if it changes the database, the change stands even when it cannot be saved. -/
theorem run_ending (k : Course α) :
    s.run k.ending =
      match (if k.db.isSome then (k.told s).run Call.persist else (.ok (), k.told s)) with
      | (.ok _, s') => (k.result, s')
      | (.error e, s') => (.error e, s') := by
  have hresult : ∀ t : Service, t.run (match k.result with
      | .ok a => pure a
      | .error e => throw e : Call α) = (k.result, t) := by
    intro t
    cases k.result <;> rfl
  rw [Course.ending, run_bind_of_ok (s.run_modify k.told)]
  cases hdb : k.db.isSome with
  | false =>
    simp only [Bool.false_eq_true, if_false]
    exact hresult (k.told s)
  | true =>
    simp only [if_true]
    rw [run_bind]
    rcases (k.told s).run Call.persist with ⟨_ | u, s'⟩
    · rfl
    · exact hresult s'

/-! ### Lookups -/

/-- The service after the groups of several principals were looked up, each pruning being saved. -/
def afterLookups (s : Service) (names : List String) : Service :=
  names.foldl afterLookup s

theorem sameBut_afterLookups (s : Service) (names : List String) :
    s.SameBut (s.db.healedAll s.groupSources names) (s.afterLookups names) := by
  induction names generalizing s with
  | nil => exact .refl s
  | cons name names ih =>
    have hfirst := s.sameBut_afterLookup name
    have hrest := ih (s.afterLookup name)
    rw [hfirst.groupSources_eq, hfirst.db_eq] at hrest
    exact hfirst.trans hrest

/-- **Lookups go through**, or one of them finds something to prune that cannot be saved. -/
theorem run_lookUp_cases (s : Service) (names : List String) :
    s.run (Call.lookUp names) = (.ok (), s.afterLookups names) ∨
      ∃ e s', s.run (Call.lookUp names) = (.error e, s') := by
  induction names generalizing s with
  | nil => exact Or.inl rfl
  | cons name names ih =>
    rw [Call.lookUp]
    rcases s.run_resolveGroups_cases name with hrun | ⟨-, e, hrun⟩
    · rw [run_bind_of_ok hrun]
      exact ih (s.afterLookup name)
    · right
      rw [run_bind, hrun]
      exact ⟨e, _, rfl⟩

/-- **A call that only looks something up** is followed by the next one, on the pruned database. -/
theorem Follows.bind {c : Call α} {f : α → Call β} {names : List String} {a : α} {k : Course β}
    (h : s.Follows c { names, result := .ok a })
    (hf : ({ s with db := s.db.healedAll s.groupSources names } : Service).Follows (f a) k) :
    s.Follows (c >>= f) (k.after names) := by
  intro store events
  have hc := h store events
  have hsame := sameBut_afterLookups { s with store, events } names
  have hask : ∀ t : Service, t.run (Course.call { names, result := .ok a }) =
      t.run (do Call.lookUp names; return a) := fun _ ↦ rfl
  -- Both runs are broken off at the same lookup, or none is.
  rw [run_bind, hc, hask, k.call_after, run_bind, run_bind]
  rcases run_lookUp_cases { s with store, events } names with hrun | ⟨e, t, hrun⟩
  · obtain ⟨store', events', ht⟩ := hsame
    rw [hrun, ht]
    exact hf store' events'
  · rw [hrun]

/-- A call that only looks something up, and makes its result of it. -/
theorem Follows.bind_ok {c : Call α} {f : α → Call β} {names : List String} {a : α} {b : β}
    (h : s.Follows c { names, result := .ok a })
    (hf : ({ s with db := s.db.healedAll s.groupSources names } : Service).Follows (f a)
      { result := .ok b }) :
    s.Follows (c >>= f) { names, result := .ok b } := by
  have hbind := h.bind hf
  rwa [Course.after, List.append_nil] at hbind

/-- A call that ends with an error ends there. -/
theorem Follows.bind_error {c : Call α} {names : List String} {e : ServiceError}
    (h : s.Follows c { names, result := .error e }) (f : α → Call β) :
    s.Follows (c >>= f) { names, result := .error e } := by
  intro store events
  have hc := h store events
  have hend : ∀ (γ : Type) (t : Service), t.run (Course.call (α := γ) { names, result := .error e }) =
      t.run (do Call.lookUp names; throw e) := fun _ _ ↦ rfl
  rw [run_bind, hc, hend, hend, run_bind, run_bind]
  rcases run_lookUp_cases { s with store, events } names with hrun | ⟨e', t, hrun⟩
  · rw [hrun]
    rfl
  · rw [hrun]

/-- A call whose result is only dressed up. -/
theorem Follows.map {c : Call α} {k : Course α} (h : s.Follows c k) (f : α → β) :
    s.Follows (do let a ← c; return f a) (k.map f) := by
  have hending : ∀ t : Service,
      t.run (do let a ← k.ending; return f a) = t.run (k.map f).ending := by
    intro t
    have hmapped := t.run_ending (k.map f)
    change _ = match (if k.db.isSome then (k.told t).run Call.persist else (.ok (), k.told t)) with
      | (.ok _, s') => (k.result.map f, s')
      | (.error e, s') => (.error e, s') at hmapped
    rw [run_bind, hmapped, t.run_ending k]
    rcases (if k.db.isSome then (k.told t).run Call.persist else (.ok (), k.told t)) with
      ⟨_ | u, t'⟩
    · rfl
    · dsimp only
      cases k.result <;> rfl
  intro store events
  have hc := h store events
  have hcall : (k.map f).call = (do Call.lookUp k.names; (k.map f).ending) := rfl
  have hthen : (do let a ← k.call; return f a) =
      (do Call.lookUp k.names; (do let a ← k.ending; return f a)) := by
    rw [Course.call, bind_assoc]
  rw [run_bind, hc, ← run_bind, hthen, hcall, run_bind, run_bind]
  rcases Service.run _ (Call.lookUp k.names) with ⟨_ | u, t⟩
  · rfl
  · exact hending t

/-- A call that reads the state, but nothing of the store or the audit trail. -/
theorem follows_get_bind {f : Service → Call α} {k : Course α}
    (hf : ∀ store events, f { s with store, events } = f s) (h : s.Follows (f s) k) :
    s.Follows (get >>= f) k := by
  intro store events
  have hrun := h store events
  rw [run_bind_of_ok (run_get _), hf, hrun]

/-! ### Reading -/

section Reading

variable (s) (name : String)

/-- Whose groups are looked up to find the trees of a principal. -/
def readers (name : String) : List String :=
  if name == defaultPrincipal then [] else [name]

theorem follows_resolveGroups :
    s.Follows (Call.resolveGroups name)
      { names := [name], result := .ok (s.db.groupsOf s.groupSources name) } := by
  intro store events
  have hcall : (Course.call { names := [name], result := .ok (s.db.groupsOf s.groupSources name) }) =
      (do
        let _ ← Call.resolveGroups name
        Course.ending { names := [name], result := .ok (s.db.groupsOf s.groupSources name) }) := by
    rw [Course.call, Call.lookUp, bind_assoc]
    rfl
  rw [hcall, run_bind]
  rcases hrun : Service.run _ (Call.resolveGroups name) with ⟨e | r, t⟩
  · rfl
  · obtain ⟨rfl, rfl⟩ := eq_of_run_resolveGroups_eq_ok hrun
    rfl

theorem follows_treesFor :
    s.Follows (Call.treesFor name) { names := readers name, result := .ok (s.treesRead name) } := by
  refine follows_get_bind (fun _ _ ↦ rfl) ?_
  rw [readers, treesRead]
  by_cases hname : name == defaultPrincipal
  · simp only [hname, if_true]
    exact follows_pure _
  · simp only [hname, Bool.false_eq_true, if_false]
    refine (s.follows_resolveGroups name).bind_ok (follows_get_bind (fun _ _ ↦ rfl) ?_)
    rw [Option.isSome_map, Option.map_map]
    exact follows_pure _

theorem follows_evaluate (hdb : s.db.Distinct) (segments : List String) :
    s.Follows (Call.evaluate segments name)
      { names := readers name, result := .ok (s.evaluation segments name) } := by
  refine (s.follows_treesFor name).bind_ok (follows_get_bind (fun _ _ ↦ rfl) ?_)
  have hlevel := evaluateFor_treesRead hdb segments name
  rw [← hlevel]
  exact follows_pure _

end Reading

/-! ### Running a course -/

section Running

variable (k : Course α)

theorem store_told : (k.told s).store = s.store := by
  unfold Course.told
  cases k.event with
  | none => rfl
  | some e => exact store_heard _ e

theorem db_told : (k.told s).db = k.db.getD s.db := by
  unfold Course.told
  cases k.event with
  | none => rfl
  | some e => exact (sameBut_heard _ e).db_eq

/-- Recorded is the event of a course, if it is one that is kept. -/
theorem events_told : (k.told s).events =
    s.events ++ k.event.toList.filter fun e ↦ s.auditRules.any (e.isKept ·) := by
  unfold Course.told
  cases k.event with
  | none => exact (List.append_nil _).symm
  | some e =>
    dsimp only [Option.toList_some]
    rw [List.filter_singleton]
    unfold heard
    split <;> rename_i hkept
    · rw [hkept]
      rfl
    · simp [hkept]

theorem canSave_afterLookup_iff (name : String) : (s.afterLookup name).CanSave ↔ s.CanSave := by
  rw [afterLookup]
  split
  · rfl
  · exact canSave_saved_iff

theorem canSave_afterLookups_iff (names : List String) :
    (s.afterLookups names).CanSave ↔ s.CanSave := by
  induction names generalizing s with
  | nil => rfl
  | cons name names ih => exact ih.trans (canSave_afterLookup_iff name)

/-- Lookups record nothing. -/
theorem events_afterLookups (names : List String) : (s.afterLookups names).events = s.events := by
  induction names generalizing s with
  | nil => rfl
  | cons name names ih =>
    refine ih.trans ?_
    rw [afterLookup]
    split <;> rfl

theorem CanSave.run_lookUp (h : s.CanSave) (names : List String) :
    s.run (Call.lookUp names) = (.ok (), s.afterLookups names) := by
  induction names generalizing s with
  | nil => rfl
  | cons name names ih =>
    have hrun := (s.run_resolveGroups_cases name).resolve_right fun hnot ↦ hnot.1 h
    rw [Call.lookUp, run_bind_of_ok hrun]
    exact ih ((canSave_afterLookup_iff name).2 h)

/-- **Over a store that works** every course is run to its end. -/
theorem CanSave.run_call (h : s.CanSave) :
    s.run k.call = (k.result,
      if k.db.isSome then (k.told (s.afterLookups k.names)).saved
      else k.told (s.afterLookups k.names)) := by
  have hlookups := h.run_lookUp k.names
  have htold : (k.told (s.afterLookups k.names)).CanSave := by
    rw [CanSave, store_told]
    exact (canSave_afterLookups_iff k.names).2 h
  rw [Course.call, run_bind_of_ok hlookups, run_ending]
  cases hdb : k.db.isSome with
  | false => rfl
  | true =>
    simp only [if_true]
    rw [htold.run_persist]

/-! ### Running a course over a store that refuses to save -/

variable (s) in
/-- The first of some principals that has memberships to be pruned. -/
def firstStale? (names : List String) : Option String :=
  names.find? fun name ↦ (s.db.groupsOf s.groupSources name).changed

/-- Lookups that prune nothing change nothing. -/
theorem afterLookups_of_firstStale?_eq_none {names : List String} (h : s.firstStale? names = none) :
    s.afterLookups names = s := by
  induction names with
  | nil => rfl
  | cons name names ih =>
    have hnone := List.find?_eq_none.1 h
    have hchanged := hnone name List.mem_cons_self
    have hpruned : (s.db.groupsOf s.groupSources name).pruned = [] := by
      simpa [GroupResolution.changed] using hchanged
    have hfirst : s.afterLookup name = s := by rw [afterLookup, if_pos hpruned]
    have hrest : s.firstStale? names = none :=
      List.find?_eq_none.2 fun name' hmem ↦ hnone name' (List.mem_cons_of_mem _ hmem)
    change (s.afterLookup name).afterLookups names = s
    rw [hfirst]
    exact ih hrest

section Refused

variable {store : Store} {e : SaveError} (hstore : s.store = some store)
  (hfault : store.fault = some e)

include hstore hfault

theorem run_persist_of_fault : s.run Call.persist = (.error (.unsaved e), s) := by
  rw [Call.persist, run_bind_of_ok s.run_get]
  simp only [hstore, Store.save, hfault]
  rfl

theorem run_lookUp_of_fault (names : List String) :
    s.run (Call.lookUp names) =
      match s.firstStale? names with
      | none => (.ok (), s)
      | some name => (.error (.unsaved e), { s with db := s.db.healed s.groupSources name }) := by
  -- Up to the first name with something stale the service does not change, so the rest is looked up in it.
  induction names with
  | nil => rfl
  | cons name names ih =>
    rw [Call.lookUp, firstStale?, List.find?_cons]
    cases hchanged : (s.db.groupsOf s.groupSources name).changed with
    | false =>
      have hpruned : (s.db.groupsOf s.groupSources name).pruned = [] := by
        simpa [GroupResolution.changed] using hchanged
      rw [run_bind_of_ok (run_resolveGroups hpruned), ih]
      rfl
    | true =>
      have hpruned : (s.db.groupsOf s.groupSources name).pruned ≠ [] := by
        simpa [GroupResolution.changed] using hchanged
      have hpersist : ({ s with db := s.db.healed s.groupSources name } : Service).run
          Call.persist = (.error (.unsaved e), _) := run_persist_of_fault hstore hfault
      rw [run_bind, run_resolveGroups_of_stale hpruned, run_bind, hpersist]

/-- **Over a store that refuses to save** a course is broken off at the first lookup that prunes
something. If none does, it comes to its end, and only what it changes cannot be saved. -/
theorem run_call_of_fault :
    s.run k.call =
      match s.firstStale? k.names with
      | none => (if k.db.isSome then .error (.unsaved e) else k.result, k.told s)
      | some name => (.error (.unsaved e), { s with db := s.db.healed s.groupSources name }) := by
  have hlookups := run_lookUp_of_fault hstore hfault k.names
  rw [Course.call, run_bind, hlookups]
  cases s.firstStale? k.names with
  | some name => rfl
  | none =>
    have hpersist : (k.told s).run Call.persist = (.error (.unsaved e), k.told s) :=
      run_persist_of_fault ((store_told k).trans hstore) hfault
    dsimp only
    rw [run_ending]
    cases hdb : k.db.isSome with
    | false => rfl
    | true =>
      simp only [if_true]
      rw [hpersist]

end Refused

/-- **What a course leaves**, whether the store refuses to save or not. It comes to its end, saved or not,
or one of its lookups is the end of it, and then nothing is recorded. -/
theorem db_events_run_call (s : Service) :
    (∃ names, (s.run k.call).2.db = s.db.healedAll s.groupSources names ∧
        (s.run k.call).2.events = s.events) ∨
      (s.run k.call).2.db = k.db.getD (s.db.healedAll s.groupSources k.names) ∧
        (s.run k.call).2.events =
          s.events ++ k.event.toList.filter fun e ↦ s.auditRules.any (e.isKept ·) := by
  have hlookups := s.sameBut_afterLookups k.names
  have hsaved : ∀ t : Service, (if k.db.isSome then t.saved else t).db = t.db ∧
      (if k.db.isSome then t.saved else t).events = t.events := by
    intro t
    split <;> exact ⟨rfl, rfl⟩
  by_cases hsave : s.CanSave
  · -- Saving changes neither the database nor what was recorded.
    right
    obtain ⟨hdb, hevents⟩ := hsaved (k.told (s.afterLookups k.names))
    have hrules : (s.afterLookups k.names).auditRules = s.auditRules := by
      obtain ⟨store, events, heq⟩ := hlookups
      rw [heq]
    rw [hsave.run_call k]
    dsimp only
    rw [hdb, hevents, db_told, events_told, hlookups.db_eq, events_afterLookups, hrules]
    exact ⟨rfl, rfl⟩
  · obtain ⟨store, hstore, e, hfault⟩ : ∃ store, s.store = some store ∧ ∃ e, store.fault = some e := by
      simpa [CanSave, Option.ne_none_iff_exists'] using hsave
    rw [run_call_of_fault k hstore hfault]
    cases hfirst : s.firstStale? k.names with
    | none =>
      right
      rw [afterLookups_of_firstStale?_eq_none hfirst] at hlookups
      exact ⟨(db_told k).trans (by rw [← hlookups.db_eq]), events_told k⟩
    | some name => exact Or.inl ⟨[name], rfl, rfl⟩

end Running

end Service

end PathAccess
