import Mathlib.Data.List.Nodup
import PathAccess.Proofs.Database.Sound
import PathAccess.Proofs.Service.Actions
import PathAccess.Proofs.Service.Grants
/-!
# Reachable databases are sound

A service starts with the seeded database, over no store or over one that gives back nothing else. From
then on anything may happen to it: requests with whatever arguments, reloading, other directories, a
store that refuses to save and later does not. Every database that it comes to use is sound
(`db_sound_of_reachable`), and so its document can be loaded again.

Each way in which a step changes a database keeps it sound (`Database.Changed.sound`), once for each
kind of change. Because a refused save leaves the store behind, and reloading takes up what is stored,
the invariant of a run also speaks about what the store would give back (`Guarded`). What is saved is
given back as it is, so that a save passes soundness on to the store.

So what is shown of well-formed trees holds in every reachable service without being asked for. For grants that is
`Reachable.answers_after_grant`.
-/

namespace PathAccess

/-- **Every change of a step keeps a database sound.** -/
theorem Database.Changed.sound {db db' : Database} (h : db.Changed db.rules db') (hdb : db.Sound) :
    db'.Sound := by
  have hwf := h.wellFormed hdb.wellFormed
  cases h with
  | @edited target segments _ hedited storable names =>
    obtain ⟨hplayer, hnodup, hgroups⟩ := hdb.memberships target
    cases hedited with
    | granted g =>
      have hsegments : segments ≠ [] := by
        obtain ⟨path, last, rfl, -⟩ := Service.exists_of_grantPathProblem?_eq_none storable
        simp
      have hgranted := hwf.trees target
      rw [Database.treeOf_set, if_pos rfl] at hgranted
      exact hdb.set ⟨hgranted, (hdb.tidy target).grant names g, Tree.isEmpty_grant _ hsegments g,
        hplayer, hnodup, hgroups⟩
    | removed has left =>
      refine hdb.set ⟨(hdb.wellFormed.trees target).revoke segments,
        (hdb.tidy target).revoke segments, left, ?_, ?_, ?_⟩
      all_goals rw [Tree.groups_revoke]
      · exact hplayer
      · exact hnodup
      · exact hgroups
    | principalRemoved has empty => exact hdb.remove target
  | @joined name group groups player isGroup kept new =>
    obtain ⟨-, hnodup, hgroups⟩ := hdb.memberships name
    refine hdb.setMemberships (fun _ ↦ player) ?_ fun group' hmem ↦ ?_
    · rw [← List.concat_eq_append]
      exact (hnodup.sublist kept).concat new
    · rcases List.mem_append.1 hmem with hmem | hmem
      · exact hgroups group' (kept.subset hmem)
      · obtain rfl : group' = group := by simpa using hmem
        exact isGroup
  | @cut name groups kept =>
    obtain ⟨hplayer, hnodup, hgroups⟩ := hdb.memberships name
    refine hdb.setMemberships (fun hne ↦ hplayer fun hnil ↦ hne ?_) (hnodup.sublist kept)
      fun group hmem ↦ hgroups group (kept.subset hmem)
    rw [hnil] at kept
    exact List.sublist_nil.1 kept
  | restored => exact hdb.set (Database.soundFor_defaultSchema _ _)
  | deleted name => exact hdb.remove name

namespace Service

/-- The services that can come about, when the service, its store and its database share their rules. -/
inductive Reachable : Service → Prop
  /-- The database is the seeded one, and no other is stored. -/
  | start {s : Service} (db : s.db = .seeded s.rules)
      (store : ∀ store, s.store = some store → store.rules = s.rules ∧
        ∀ db, store.load = .ok (some db) → db = .seeded s.rules) : Reachable s
  /-- Something happens. -/
  | act {s : Service} (a : Action) (before : Reachable s) : Reachable (a.perform s)
  /-- The store begins to refuse saving, or ceases to. -/
  | refuse {s : Service} {store : Store} (fault : Option SaveError) (hstore : s.store = some store)
      (before : Reachable s) : Reachable { s with store := some { store with fault } }

/-- A service can begin over the seeded database and a store that holds nothing yet. -/
theorem reachable_of_document_eq_none {s : Service} (db : s.db = .seeded s.rules)
    (hstore : ∀ store ∈ s.store, store.rules = s.rules ∧ store.document = none) : s.Reachable := by
  refine .start db fun store hs ↦ ⟨(hstore store hs).1, fun db hload ↦ ?_⟩
  rw [Store.load, (hstore store hs).2] at hload
  cases hload

theorem Reachable.afterActions {s : Service} (h : s.Reachable) (actions : List Action) :
    (s.afterActions actions).Reachable :=
  afterActions_induction actions h fun _ h a ↦ h.act a

/-- The database is sound, and so is the one that the store would give back. -/
structure Guarded (s : Service) : Prop where
  /-- The database has the rules of the service. -/
  rules : s.db.rules = s.rules
  /-- The database is sound. -/
  sound : s.db.Sound
  /-- The store gives back only databases that are sound, with the rules of the service. -/
  store : ∀ store, s.store = some store → store.rules = s.rules ∧
    ∀ db, store.load = .ok (some db) → db.Sound

variable {s s' : Service}

/-- **A change that is stored** leaves what the store gives back sound, whether it can be saved or not. -/
theorem Guarded.stored (h : s.Guarded) {db : Database} (hchanged : s.db.Changed s.rules db) :
    (s.stored db).Guarded := by
  have hsame := s.sameBut_stored db
  have hrules : db.rules = s.rules := hchanged.rules_eq.trans h.rules
  have hsound : db.Sound := by
    rw [← h.rules] at hchanged
    exact hchanged.sound h.sound
  refine ⟨?_, ?_, ?_⟩
  · rw [hsame.db_eq, hsame.rules_eq, hrules]
  · rwa [hsame.db_eq]
  · rw [hsame.rules_eq]
    intro kept hkept
    rcases s.stored_cases db with ⟨-, hstored⟩ | ⟨-, hstored⟩
    · -- What was saved is read back as it was.
      rcases hstore : s.store with - | store
      · rw [hstored, saved, hstore] at hkept
        cases hkept
      · have hown := (h.store store hstore).1
        obtain ⟨kept', hkept', hkeptRules, -, hload⟩ :=
          load_saved (s := { s with db }) hsound.wellFormed hstore (hrules.trans hown.symm)
        rw [hstored, hkept'] at hkept
        obtain rfl := Option.some.inj hkept
        refine ⟨hkeptRules.trans hown, fun db' hdb' ↦ ?_⟩
        obtain rfl : db = db' := Option.some.inj (Except.ok.inj (hload.symm.trans hdb'))
        exact hsound
    · -- Saving was refused, so the store is behind and still holds what it held.
      rw [hstored] at hkept
      exact h.store kept hkept

theorem Guarded.step (h : s.Guarded) (hstep : s.Step s') : s'.Guarded := by
  cases hstep with
  | heard e =>
    obtain ⟨events, heq⟩ := s.exists_heard_eq e
    rw [heq]
    exact ⟨h.rules, h.sound, h.store⟩
  | stored changed => exact h.stored changed

/-- **Whatever happens, the service stays guarded.** -/
theorem Guarded.perform (h : s.Guarded) (a : Action) : (a.perform s).Guarded := by
  cases a with
  | request r =>
    exact (r.steps_perform h.sound.distinct).induction (P := Guarded)
      (fun _ _ hs hstep ↦ hs.step hstep) h
  | reload =>
    rw [Action.perform]
    rcases s.run_reload_cases with hrun | ⟨store, db, hstore, hload, hrun⟩
    · rwa [hrun]
    · obtain ⟨hrules, hsound⟩ := h.store store hstore
      rw [hrun]
      exact ⟨(Store.wellFormed_of_load hload).2.trans hrules, hsound db hload, h.store⟩
  | directories identity affiliations => exact ⟨h.rules, h.sound, h.store⟩

theorem Reachable.guarded (h : s.Reachable) : s.Guarded := by
  induction h with
  | @start s hdb hstore =>
    refine ⟨?_, ?_, fun store h ↦ ⟨(hstore store h).1, fun db hload ↦ ?_⟩⟩
    · rw [hdb]
      rfl
    · rw [hdb]
      exact Database.sound_seeded _
    · rw [(hstore store h).2 db hload]
      exact Database.sound_seeded _
  | act a _ ih => exact ih.perform a
  | @refuse s store fault hstore _ ih =>
    refine ⟨ih.rules, ih.sound, fun store' h ↦ ?_⟩
    obtain rfl := Option.some.inj h
    exact ih.store store hstore

/-- **Every reachable database is sound.** Each entry stands under a name of its own and is not empty. Its
children have distinct names that paths can have and that are not reserved, and none of its branches
below the root is empty. Only a player's entry has memberships, in groups and in no group twice. And
every grade in it can be stored: the document of the database is read back as that database. -/
theorem db_sound_of_reachable (h : s.Reachable) : s.db.Sound ∧ s.db.rules = s.rules ∧
    ∀ source, Database.ofDocument s.rules source s.db.toDocument = .ok s.db := by
  have hguarded := h.guarded
  refine ⟨hguarded.sound, hguarded.rules, fun source ↦ ?_⟩
  have hread := hguarded.sound.wellFormed.ofDocument_toDocument s.rules source
  rwa [← hguarded.rules] at hread ⊢

/-- A player joins a group, and the group is deleted. The next look at the player's groups prunes the
membership, with which the player's entry goes. -/
theorem db_sound_of_reachable_law :
    let s : Service := {
      db := .seeded {}
      store := some {}
      identity := some { players := [("alice", {}), ("bob", { level := 50 })] } }
    let s₁ := s.afterActions [.request (.changeMembership "bob" "alice" "Arch_law" true)]
    let s₂ := s₁.afterActions
      [.request (.reset "bob" "Arch_law"), .request (.groupsOf "alice"), .reload]
    s₁.db.memberships "alice" = ["Arch_law"] ∧ s₂.db.has "alice" = false ∧ s₂.db.Sound := by
  intro s s₁ s₂
  have hstart : s.Reachable := by
    refine .start rfl fun store hstore ↦ ?_
    obtain rfl := Option.some.inj hstore
    refine ⟨rfl, fun db hload ↦ ?_⟩
    have hnone : ({} : Store).load = .ok none := rfl
    exact nomatch hnone.symm.trans hload
  have hreachable : s₂.Reachable := (hstart.afterActions _).afterActions _
  have hjoined : s₁.db.memberships "alice" = ["Arch_law"] := by decide +kernel
  have hgone : s₂.db.has "alice" = false := by decide +kernel
  exact ⟨hjoined, hgone, (db_sound_of_reachable hreachable).1⟩

/-! ### Grants -/

/-- **After a grant in a reachable service the target has the level**, asked for from any working directory at the
path that was reported. If the grant was carried out, the source is the target itself, and unless the path ends
in `*` both hold at every path below it. Nothing is asked of the trees: they are well formed. -/
theorem Reachable.answers_after_grant (h : s.Reachable) {acting target : String} {path : Value} {g : Grade}
    {cwd : Option String} {result : GrantResult}
    (hrun : s.run (Call.grant acting target path (some g) cwd) = (.ok result, s'))
    (hverdict : attained result.verdict) :
    ∃ segments, s.resolver.resolve path (some acting) cwd false = .ok segments ∧
      result.path = some (Path.render segments) ∧
      (∀ cwd', ∃ e,
        (s'.run (Call.effectiveLevel (.text (Path.render segments)) target cwd')).1 = .ok e ∧
        e.level = some g ∧ (result.verdict.isOk → e.source = some target)) ∧
      (result.verdict.isOk → segments.getLast? ≠ some restKey → ∀ below cwd' segments',
        s'.resolver.resolve below (some target) cwd' false = .ok segments' →
        segments <+: segments' →
        (s'.run (Call.effectiveLevel below target cwd')).1 =
          .ok ⟨some g, some target, segments'⟩) := by
  have hsound := h.guarded.sound
  have hwf := hsound.wellFormed.trees target
  obtain ⟨segments, hresolve, hpath, hgrant⟩ := of_run_grant_eq_ok hverdict hrun
  exact ⟨segments, hresolve, hpath, answers_after_grantAt hsound.distinct hwf.keyed (fun _ ↦ hwf)
    (fun _ hname ↦ Path.Resolver.isSegment_of_mem_resolve hresolve hname)
    (Path.Resolver.dot_notMem_resolve hresolve) hverdict hgrant⟩

end Service

end PathAccess
