import PathAccess.Proofs.Database.Document
import PathAccess.Proofs.Service.Steps
/-!
# Runs with reloading

A service can also be told to take up the stored database again, and the directories of players and
affiliations that it asks may change at any time. Together with requests these are the actions of a run.
Reloading either changes nothing or puts the stored database in place of the one in use
(`run_reload_cases`).
-/

namespace PathAccess

/-- What happens to a service. -/
inductive Action where
  /-- A request is made. -/
  | request (r : Request)
  /-- The stored database is taken up again. -/
  | reload
  /-- The directories change. -/
  | directories (identity affiliations : Option Directory)

namespace Action

/-- Whether an action is that of reloading. -/
def isReload : Action → Bool
  | reload => true
  | request _ | directories _ _ => false

/-- The service after an action. -/
def perform (s : Service) : Action → Service
  | request r => r.perform s
  | reload => (s.run Call.reload).2
  | directories identity affiliations => { s with identity, affiliations }

end Action

namespace Service

/-- The service after several actions. -/
def afterActions (s : Service) (actions : List Action) : Service :=
  actions.foldl Action.perform s

/-- **What every action preserves, a run of actions preserves.** -/
theorem afterActions_induction {P : Service → Prop} {s : Service} (actions : List Action) (h : P s)
    (step : ∀ s, P s → ∀ a : Action, P (a.perform s)) : P (s.afterActions actions) := by
  induction actions generalizing s with
  | nil => exact h
  | cons a actions ih => exact ih (step s h a)

variable {s : Service}

/-! ### Saving and reloading -/

/-- **What is saved is what the store gives back.** -/
theorem load_saved {store : Store} (hwf : s.db.WellFormed) (hstore : s.store = some store)
    (hrules : s.db.rules = store.rules) : ∃ kept, s.saved.store = some kept ∧
      kept.rules = store.rules ∧ kept.fault = store.fault ∧ kept.load = .ok (some s.db) := by
  refine ⟨{ store with document := some s.db.toDocument, saves := store.saves + 1 }, ?_, rfl, rfl,
    Store.load_of_document hwf hrules rfl⟩
  rw [saved, hstore]
  rfl

theorem run_reload_of_load {store : Store} {db : Database} (hstore : s.store = some store)
    (hload : store.load = .ok (some db)) : s.run Call.reload = (.ok true, { s with db }) := by
  have hrun : s.run (do modify ({ · with db }); return true) = (.ok true, { s with db }) := rfl
  rw [← hrun, Call.reload, run_bind_of_ok s.run_get]
  simp only [hstore, hload]

/-- **Reloading** changes nothing, or exchanges the database for the stored one. -/
theorem run_reload_cases (s : Service) :
    (s.run Call.reload).2 = s ∨ ∃ store db, s.store = some store ∧
      store.load = .ok (some db) ∧ s.run Call.reload = (.ok true, { s with db }) := by
  rcases Option.eq_none_or_eq_some s.store with hstore | ⟨store, hstore⟩
  · left
    rw [Call.reload, run_bind_of_ok s.run_get]
    simp only [hstore]
    rfl
  · rcases hload : store.load with e | _ | db
    · left
      rw [Call.reload, run_bind_of_ok s.run_get]
      simp only [hstore, hload]
      rfl
    · left
      rw [Call.reload, run_bind_of_ok s.run_get]
      simp only [hstore, hload]
      rfl
    · exact Or.inr ⟨store, db, hstore, hload, run_reload_of_load hstore hload⟩

end Service

end PathAccess
