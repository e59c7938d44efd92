import PathAccess.Proofs.Service.Actions
/-!
# The stored database is the live one

A service that was started over a store which does not fail keeps the store up to date: after every
action the store gives back the database in use (`Durable.perform`). Not only what changes has to be
saved. Any question may prune memberships on the way, and a change may do so before it is refused. Each
step of a request saves what it does, so a request cannot end with anything unsaved.

Reloading therefore never shows. It exchanges the database for the same one, and a run gives the same
replies with it and without it (`Durable.replies_filter`).
-/

namespace PathAccess

/-! ### Replies -/

/-- What a request asks for. -/
abbrev Request.Result : Request → Type
  | grant .. => GrantResult
  | changeMembership .. => MembershipResult
  | reset .. => ResetResult
  | check .. => CheckResult
  | effectiveLevel .. => Evaluation
  | groupsOf _ => List String
  | canonicalPath .. => String
  | list .. => Listing

/-- The call of a request. -/
def Request.call : (r : Request) → Call r.Result
  | grant acting target path level cwd => Call.grant acting target path level cwd
  | changeMembership acting target group add => Call.changeMembership acting target group add
  | reset acting target => Call.reset acting target
  | check path principal required cwd ownSession =>
    Call.check path principal required cwd ownSession
  | effectiveLevel path principal cwd => Call.effectiveLevel path principal cwd
  | groupsOf name => Call.groupsOf name
  | canonicalPath path acting cwd => Call.canonicalPath path acting cwd
  | list name mode => Call.list name mode

theorem Request.perform_eq (s : Service) (r : Request) : r.perform s = (s.run r.call).2 := by
  cases r <;> rfl

/-- What comes of a request. -/
structure Reply where
  /-- The request. -/
  request : Request
  /-- Its result, or why there is none. -/
  result : Except ServiceError request.Result
  /-- The database afterwards. -/
  db : Database

namespace Service

/-- The replies to the requests of a run. -/
def replies (s : Service) : List Action → List Reply
  | [] => []
  | .request r :: actions =>
    { request := r, result := (s.run r.call).1, db := (s.run r.call).2.db }
      :: (s.run r.call).2.replies actions
  | a :: actions => (a.perform s).replies actions

/-- The database is stored as it is, and changes of it can be. -/
structure Durable (s : Service) : Prop where
  /-- The database is well formed. -/
  wellFormed : s.db.WellFormed
  /-- The database has the rules of the service. -/
  rules : s.db.rules = s.rules
  /-- The store has them too, does not refuse to save, and gives back the database. -/
  store : ∃ store, s.store = some store ∧ store.rules = s.rules ∧ store.fault = none ∧
    store.load = .ok (some s.db)

variable {s s' : Service}

theorem Durable.canSave (h : s.Durable) : s.CanSave := by
  obtain ⟨store, hstore, -, hfault, -⟩ := h.store
  rintro store' hmem
  obtain rfl : store = store' := Option.some.inj (hstore.symm.trans hmem)
  exact hfault

/-! ### Steps -/

theorem Durable.stored (h : s.Durable) {db : Database} (hchanged : s.db.Changed s.rules db) :
    (s.stored db).Durable := by
  have hsame := s.sameBut_stored db
  have hrules : db.rules = s.rules := hchanged.rules_eq.trans h.rules
  have hwf : db.WellFormed := hchanged.wellFormed h.wellFormed
  obtain ⟨store, hstore, hown, hfault, -⟩ := h.store
  obtain ⟨kept, hkept, hkeptRules, hkeptFault, hload⟩ :=
    load_saved (s := { s with db }) hwf hstore (hrules.trans hown.symm)
  refine ⟨?_, ?_, kept, ?_, ?_, hkeptFault.trans hfault, ?_⟩
  · rwa [hsame.db_eq]
  · rw [hsame.db_eq, hsame.rules_eq, hrules]
  · rcases s.stored_cases db with ⟨-, hstored⟩ | ⟨hnot, -⟩
    · rw [hstored, hkept]
    · exact absurd h.canSave hnot
  · rw [hsame.rules_eq, hkeptRules, hown]
  · rw [hsame.db_eq, hload]

theorem Durable.step (h : s.Durable) (hstep : s.Step s') : s'.Durable := by
  cases hstep with
  | heard e =>
    obtain ⟨events, heq⟩ := s.exists_heard_eq e
    rw [heq]
    exact ⟨h.wellFormed, h.rules, h.store⟩
  | stored changed => exact h.stored changed

/-- **Reloading puts the database in place of itself.** -/
theorem Durable.run_reload (h : s.Durable) : s.run Call.reload = (.ok true, s) := by
  obtain ⟨store, hstore, -, -, hload⟩ := h.store
  exact run_reload_of_load hstore hload

theorem Durable.perform_reload (h : s.Durable) : Action.reload.perform s = s :=
  congrArg Prod.snd h.run_reload

/-- **After every action the database is stored.** -/
theorem Durable.perform (h : s.Durable) (a : Action) : (a.perform s).Durable := by
  cases a with
  | request r =>
    exact (r.steps_perform h.wellFormed.distinct).induction (P := Durable)
      (fun _ _ hs hstep ↦ hs.step hstep) h
  | reload => rwa [h.perform_reload]
  | directories identity affiliations => exact ⟨h.wellFormed, h.rules, h.store⟩

theorem Durable.afterActions (h : s.Durable) (actions : List Action) :
    (s.afterActions actions).Durable :=
  afterActions_induction actions h fun _ h a ↦ h.perform a

/-! ### Leaving out reloading -/

/-- **A run comes to the same with reloading and without.** -/
theorem Durable.afterActions_filter (h : s.Durable) (actions : List Action) :
    s.afterActions (actions.filter (!·.isReload)) = s.afterActions actions := by
  induction actions generalizing s with
  | nil => rfl
  | cons a actions ih =>
    cases a with
    | request r => exact ih (h.perform (.request r))
    | reload =>
      have hskip : s.afterActions (.reload :: actions) = s.afterActions actions :=
        congrArg (·.afterActions actions) h.perform_reload
      exact (ih h).trans hskip.symm
    | directories identity affiliations => exact ih (h.perform (.directories identity affiliations))

/-- **A run gives the same replies with reloading and without.** -/
theorem Durable.replies_filter (h : s.Durable) (actions : List Action) :
    s.replies (actions.filter (!·.isReload)) = s.replies actions := by
  induction actions generalizing s with
  | nil => rfl
  | cons a actions ih =>
    cases a with
    | request r =>
      have hdurable := h.perform (.request r)
      rw [Action.perform, Request.perform_eq] at hdurable
      exact congrArg (List.cons _) (ih hdurable)
    | reload =>
      have hskip : s.replies (.reload :: actions) = s.replies actions :=
        congrArg (·.replies actions) h.perform_reload
      exact (ih h).trans hskip.symm
    | directories identity affiliations => exact ih (h.perform (.directories identity affiliations))

/-! ### The start -/

/-- **A service that is started over a store that does not fail is durable**, if the store holds nothing
or what can be read. -/
theorem exists_durable_of_start {base : Service} {store : Store} {found : Option Database}
    (hstore : base.store = some store) (hrules : store.rules = base.rules)
    (hfault : store.fault = none) (hload : store.load = .ok found) :
    ∃ s, base.start = .ok s ∧ s.Durable := by
  rw [start, hstore]
  cases found with
  | some db =>
    obtain ⟨hwf, hdb⟩ := Store.wellFormed_of_load hload
    refine ⟨{ base with db }, ?_, hwf, hdb.trans hrules, store, hstore, hrules, hfault, hload⟩
    simp only [hload, hstore]
  | none =>
    have hwf := Database.wellFormed_seeded base.rules
    have hsave : store.save (.seeded base.rules) = .ok { store with
        document := some (Database.seeded base.rules).toDocument, saves := store.saves + 1 } := by
      rw [Store.save, hfault]
    simp only [hload, hsave]
    exact ⟨_, rfl, hwf, rfl, _, rfl, hrules, hfault,
      Store.load_of_document hwf hrules.symm rfl⟩

/-- **Durability.** A service is started over a store that has its rules, does not fail, and holds
nothing or what can be read. Then it starts, and whatever happens to it, the store gives back the database
in use, at the start and after every action. So reloading gives `true` and changes nothing, and
two runs that differ only in where they reload give the same replies, with the same database after
each of them, and end with the same service. -/
theorem load_afterActions_of_start {base : Service} {store : Store} {found : Option Database}
    (hstore : base.store = some store) (hrules : store.rules = base.rules)
    (hfault : store.fault = none) (hload : store.load = .ok found) :
    ∃ s, base.start = .ok s ∧ ∀ actions,
      (∃ kept, (s.afterActions actions).store = some kept ∧
        kept.load = .ok (some (s.afterActions actions).db)) ∧
      (s.afterActions actions).run Call.reload = (.ok true, s.afterActions actions) ∧
      ∀ actions', actions'.filter (!·.isReload) = actions.filter (!·.isReload) →
        s.replies actions' = s.replies actions ∧
        s.afterActions actions' = s.afterActions actions := by
  obtain ⟨s, hstart, hdurable⟩ := exists_durable_of_start hstore hrules hfault hload
  refine ⟨s, hstart, fun actions ↦ ⟨?_, (hdurable.afterActions actions).run_reload,
    fun actions' hsame ↦ ⟨?_, ?_⟩⟩⟩
  · obtain ⟨kept, hkept, -, -, hgiven⟩ := (hdurable.afterActions actions).store
    exact ⟨kept, hkept, hgiven⟩
  · rw [← hdurable.replies_filter actions', hsame, hdurable.replies_filter]
  · rw [← hdurable.afterActions_filter actions', hsame, hdurable.afterActions_filter]

/-- A stored database names a group that does not exist. To ask for the player's groups prunes the
membership, and what is left is stored. -/
theorem load_afterActions_of_start_stale :
    let found := (Database.seeded {}).setMemberships "alice" ["Arch_gone"]
    let base : Service := {
      db := {}
      store := some { document := some found.toDocument }
      identity := some { players := [("alice", {})] } }
    let asked : List Action := [.request (.groupsOf "alice")]
    ∃ s, base.start = .ok s ∧ s.db.memberships "alice" = ["Arch_gone"] ∧
      (s.afterActions asked).db.memberships "alice" = [] ∧
      (∃ kept, (s.afterActions asked).store = some kept ∧
        kept.load = .ok (some (s.afterActions asked).db)) ∧
      s.replies [.reload, .request (.groupsOf "alice"), .reload] = s.replies asked := by
  intro found base asked
  have hwf : found.WellFormed :=
    (Database.wellFormed_seeded {}).setMemberships "alice" ["Arch_gone"]
  have hload : Store.load { document := some found.toDocument } = .ok (some found) :=
    Store.load_of_document hwf rfl rfl
  have hstore : base.store = some { document := some found.toDocument } := rfl
  obtain ⟨s, hstart, hrun⟩ := load_afterActions_of_start hstore rfl rfl hload
  obtain ⟨hstored, -, hsame⟩ := hrun asked
  have hbase : base.start = .ok { base with db := found } := by
    simp only [start, base, hload]
  obtain rfl : s = { base with db := found } := Except.ok.inj (hstart.symm.trans hbase)
  have hpruned : (({ base with db := found } : Service).afterActions asked).db.memberships "alice" =
      [] := by decide +kernel
  exact ⟨_, hstart, by decide +kernel, hpruned, hstored, (hsame _ rfl).1⟩

end Service

end PathAccess
