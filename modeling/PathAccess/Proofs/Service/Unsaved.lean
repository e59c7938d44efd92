import PathAccess.Proofs.Service.Decisions
/-!
# Changes that cannot be saved

A change is put in place before it is saved, so that it stands when the store refuses to save it. But a
change begins with lookups, of the groups of the actor and then of those of the target, and a lookup that
prunes memberships saves them. If this save is refused, then the request ends there: what was pruned is
gone from the database, and what was asked for is not done.

`db_run_refusing_iff` says when a refused save costs the change. Everything depends on the first lookup
that finds something to prune (`firstStale?`). Without any, the database is what it would have become
over a store that works.
-/

namespace PathAccess

namespace Service

variable {s : Service}

/-- The service over a store that refuses to save. -/
def refusing (s : Service) (e : SaveError) : Service :=
  { s with store := s.store.map fun store ↦ { store with fault := some e } }

variable {store : Store} {r : Request}

/-- A course over the store that refuses to save: it ends at the first pruning, or as it does anyway. -/
theorem Follows.run_refusing {α : Type} {c : Call α} {k : Course α} (h : s.Follows c k)
    (hstore : s.store = some store) (e : SaveError) :
    (s.refusing e).run c =
      match s.firstStale? k.names with
      | none => (if k.db.isSome then .error (.unsaved e) else k.result, k.told (s.refusing e))
      | some name =>
        (.error (.unsaved e), { s.refusing e with db := s.db.healed s.groupSources name }) := by
  have hbroken : (s.refusing e).run c = (s.refusing e).run k.call := h _ s.events
  have hrefused : (s.refusing e).store = some { store with fault := some e } := by
    rw [refusing, hstore]
    rfl
  rw [hbroken, run_call_of_fault k hrefused rfl]
  rfl

/-- **Where no lookup prunes anything**, the database and the audit trail are the same whether the store
refuses to save or not. -/
theorem run_refusing_of_firstStale?_eq_none (hdb : s.db.Distinct) (hstore : s.store = some store)
    (hfault : store.fault = none) (hr : r.acting?.isSome) (e : SaveError)
    (h : s.firstStale? (r.lookups s) = none) :
    ((s.refusing e).run r.call).2.db = (s.run r.call).2.db ∧
      ((s.refusing e).run r.call).2.events = (s.run r.call).2.events := by
  obtain ⟨k, hfollows, hnames, -⟩ := r.decidesBy_call hdb hr
  rw [← hnames] at h
  have hsave : s.CanSave := by
    intro store' hmem
    obtain rfl := Option.some.inj (hstore.symm.trans hmem)
    exact hfault
  have hlookups := afterLookups_of_firstStale?_eq_none h
  have hput : (k.told (s.refusing e)).db = (k.told s).db := by
    rw [db_told, db_told]
    rfl
  have hheard : (k.told (s.refusing e)).events = (k.told s).events := by
    rw [events_told, events_told]
    rfl
  rw [hfollows.run_refusing hstore, h, hfollows.run_eq, hsave.run_call, hlookups]
  dsimp only
  split
  · exact ⟨hput, hheard⟩
  · exact ⟨hput, hheard⟩

/-- **The first lookup that prunes something** is the end of the request. -/
theorem run_refusing_of_firstStale?_eq_some (hdb : s.db.Distinct) (hstore : s.store = some store)
    (hr : r.acting?.isSome) (e : SaveError) {name : String}
    (h : s.firstStale? (r.lookups s) = some name) :
    (s.refusing e).run r.call =
      (.error (.unsaved e), { s.refusing e with db := s.db.healed s.groupSources name }) := by
  obtain ⟨k, hfollows, hnames, -⟩ := r.decidesBy_call hdb hr
  rw [← hnames] at h
  rw [hfollows.run_refusing hstore, h]

/-- **When a refused save costs the change.** A change leaves the same database whether the store refuses
to save or not, exactly if none of its lookups prunes anything or it comes to nothing more than the first
pruning. Where a lookup prunes something, the request is broken off at the first one, and the database is
the one before it with those memberships pruned. Where none does, the change stands and is recorded. -/
theorem db_run_refusing_iff (hdb : s.db.Distinct) (hstore : s.store = some store)
    (hfault : store.fault = none) (hr : r.acting?.isSome) (e : SaveError) :
    (((s.refusing e).run r.call).2.db = (s.run r.call).2.db ↔
        ∀ name ∈ s.firstStale? (r.lookups s),
          (s.run r.call).2.db = s.db.healed s.groupSources name) ∧
      (s.firstStale? (r.lookups s) = none →
        ((s.refusing e).run r.call).2.events = (s.run r.call).2.events) ∧
      ∀ name ∈ s.firstStale? (r.lookups s), (s.refusing e).run r.call =
        (.error (.unsaved e), { s.refusing e with db := s.db.healed s.groupSources name }) := by
  cases hfirst : s.firstStale? (r.lookups s) with
  | none =>
    obtain ⟨hsame, hevents⟩ := run_refusing_of_firstStale?_eq_none hdb hstore hfault hr e hfirst
    refine ⟨iff_of_true hsame ?_, fun _ ↦ hevents, ?_⟩
    · exact fun _ hmem ↦ nomatch hmem
    · exact fun _ hmem ↦ nomatch hmem
  | some name =>
    have hbroken := run_refusing_of_firstStale?_eq_some hdb hstore hr e hfirst
    refine ⟨⟨fun heq name' hmem ↦ ?_, fun hall ↦ ?_⟩, (nomatch ·), fun name' hmem ↦ ?_⟩
    · obtain rfl := Option.some.inj hmem
      rw [← heq, hbroken]
    · rw [hall name rfl, hbroken]
    · obtain rfl := Option.some.inj hmem
      exact hbroken

/-- The actor's groups are looked up first, and nothing is stale there. So the grant stands, although it
is not saved. -/
theorem db_run_refusing_iff_kralk :
    let s : Service := {
      db := { trees := [("*", { root := { rest := some .read } })] }
      store := some {}
      identity := some { players := [("bob", {})] } }
    let r : Request := .grant "kralk" "bob" (.text "/tmp/x") (some .write) none
    s.firstStale? (r.lookups s) = none ∧
      ((s.refusing .refused).run r.call).2.db = (s.run r.call).2.db ∧
      ((s.refusing .refused).run r.call).2.db.has "bob" := by
  intro s r
  have hfirst : s.firstStale? (r.lookups s) = none := by decide +kernel
  have hdb : s.db.Distinct := by
    unfold Database.Distinct
    decide
  have hsame := (db_run_refusing_iff (r := r) hdb rfl rfl rfl .refused).1.2
  rw [hfirst] at hsame
  have hstands := hsame fun _ hmem ↦ nomatch hmem
  refine ⟨hfirst, hstands, ?_⟩
  rw [hstands]
  decide +kernel

/-- **A change can be lost.** The actor of a grant has a membership in a group that does not exist. Over a
store that works the grant is carried out. If the store refuses to save, then the lookup of the actor's
groups is the end of it, and the target has no tree. -/
theorem grant_lost_of_unsaved_pruning :
    let s : Service := {
      db := { trees := [
        ("*", { root := { rest := some .read } }), ("kralk", { groups := ["Arch_gone"] })] }
      store := some {}
      identity := some { players := [("bob", {})] }
      auditRules := some {} }
    let working := s.run (Call.grant "kralk" "bob" (.text "/tmp/x") (some .write) none)
    let broken :=
      (s.refusing .refused).run (Call.grant "kralk" "bob" (.text "/tmp/x") (some .write) none)
    s.db.Distinct ∧
      working.1.toOption.bind (·.verdict.toOption) = some .granted ∧
      (working.2.db.treeOf "bob").levelAt ["tmp", "x"] = some .write ∧
      broken.1 matches .error (.unsaved .refused) ∧
      broken.2.db.has "bob" = false ∧
      broken.2.events.length = 0 := by
  unfold Database.Distinct
  decide +kernel

end Service

end PathAccess
