import PathAccess.Proofs.Path
import PathAccess.Proofs.Service.Agreement
import PathAccess.Proofs.Tree.LastWrite
/-!
# Grants that are carried out

A grant that gives a result has looked up the actor's level on the way and, unless it removes an entry,
the target's. Both lookups may prune memberships. If it then changes something, it ends with an edit of
the target's tree, an event and a save that went well (`Service.changed`).

So after a grant the target has the level that was asked for, whether it was granted now or was there
already (`effectiveLevel_after_grant`). The target's own tree comes first among those that apply to it,
and the rules about homes give way to it, so a grant also decides everything below its path. The one
exception is a grant of a directory's `*`: named children keep what they have.
-/

namespace PathAccess

namespace Service

variable {s s' : Service}

/-! ### The end of a change -/

variable (s) in
/-- The service after an event was handed to the audit trail. -/
def heard (e : AuditEvent) : Service :=
  if s.auditRules.any (e.isKept ·) then { s with events := s.events ++ [e] } else s

variable (s) in
/-- The service after a change of the database, with its event and saved. -/
def changed (db : Database) (e : AuditEvent) : Service :=
  ({ s with db } : Service).heard e |>.saved

/-- An event changes nothing but the audit trail. -/
theorem exists_heard_eq (s : Service) (e : AuditEvent) :
    ∃ events, s.heard e = { s with events } := by
  rw [heard]
  split
  · exact ⟨_, rfl⟩
  · exact ⟨s.events, rfl⟩

theorem store_heard (s : Service) (e : AuditEvent) : (s.heard e).store = s.store := by
  obtain ⟨events, heq⟩ := s.exists_heard_eq e
  rw [heq]

theorem sameBut_heard (s : Service) (e : AuditEvent) : s.SameBut s.db (s.heard e) :=
  have ⟨events, heq⟩ := s.exists_heard_eq e
  ⟨s.store, events, heq⟩

theorem sameBut_changed (s : Service) (db : Database) (e : AuditEvent) :
    s.SameBut db (s.changed db e) := by
  have hset : s.SameBut db { s with db } := ⟨_, _, rfl⟩
  have hheard := sameBut_heard { s with db } e
  have hsaved := sameBut_saved (({ s with db } : Service).heard e)
  rw [hheard.db_eq] at hsaved
  exact (hset.trans hheard).trans hsaved

theorem canSave_changed_iff {db : Database} {e : AuditEvent} :
    (s.changed db e).CanSave ↔ s.CanSave := by
  rw [changed, canSave_saved_iff, CanSave, store_heard]
  rfl

/-- **A change that can be saved** is recorded and saved. -/
theorem CanSave.run_change {α : Type} (h : s.CanSave) {db : Database} {f : Service → Service}
    (hf : f s = { s with db }) (e : AuditEvent) (a : α) :
    s.run (do modify f; Call.audit e; Call.persist; return a) = (.ok a, s.changed db e) := by
  have haudit : ({ s with db } : Service).run (Call.audit e) =
      (.ok (), ({ s with db } : Service).heard e) := rfl
  have hsave : (({ s with db } : Service).heard e).CanSave := by
    rw [CanSave, store_heard]
    exact h
  rw [run_bind_of_ok (s.run_modify f), hf, run_bind_of_ok haudit,
    run_bind_of_ok hsave.run_persist]
  rfl

/-- A change that gives a result was saved. -/
theorem eq_of_run_change_eq_ok {α : Type} {db : Database} {f : Service → Service}
    (hf : f s = { s with db }) {e : AuditEvent} {a b : α}
    (h : s.run (do modify f; Call.audit e; Call.persist; return a) = (.ok b, s')) :
    b = a ∧ s.CanSave ∧ s' = s.changed db e := by
  by_cases hsave : s.CanSave
  · rw [hsave.run_change hf] at h
    obtain ⟨hb, hs'⟩ := Prod.mk.inj h
    exact ⟨(Except.ok.inj hb).symm, hsave, hs'.symm⟩
  · have haudit : ({ s with db } : Service).run (Call.audit e) =
        (.ok (), ({ s with db } : Service).heard e) := rfl
    have hheard : ¬(({ s with db } : Service).heard e).CanSave := by
      rw [CanSave, store_heard]
      exact hsave
    obtain ⟨error, hpersist⟩ := run_persist_of_not_canSave hheard
    rw [run_bind_of_ok (s.run_modify f), hf, run_bind_of_ok haudit, run_bind, hpersist] at h
    cases congrArg Prod.fst h

/-! ### The steps of a grant -/

variable {acting target : String} {segments : List String}

/-- **A removal that is carried out** edits the target's tree. -/
theorem exists_of_run_removeEntry_eq_ok {resolved : String} {outcome : GrantOutcome}
    (h : s.run (Call.removeEntry acting target segments resolved) = (.ok (.ok outcome), s')) :
    ∃ db e, Edited s.db target segments db ∧ s.CanSave ∧ s' = s.changed db e ∧
      ((s.db.treeOf target).revoke segments).1 ≠ .notFound ∧
      (s.db.Distinct →
        (db.treeOf target).root = ((s.db.treeOf target).revoke segments).2.root) := by
  rcases s.run_removeEntry_cases acting target segments resolved with
    hrun | ⟨db, e, outcome', hedited, -, hfound, hroot, hrun⟩
  · rw [hrun] at h
    exact nomatch Except.ok.inj (congrArg Prod.fst h)
  · rw [hrun] at h
    obtain ⟨-, hsave, hs'⟩ := eq_of_run_change_eq_ok rfl h
    exact ⟨db, e, hedited, hsave, hs', hfound, hroot⟩

/-- Asking whether a grant would change anything looks up the target's level. -/
theorem of_run_alreadyAtLevel_eq_ok (hdb : s.db.Distinct) {kind : PrincipalKind} {g : Grade}
    {b : Bool} (h : s.run (Call.alreadyAtLevel target kind segments g) = (.ok b, s')) :
    s' = s.afterRead target ∧ (b → (s.evaluation segments target).level = some g) := by
  rw [Call.alreadyAtLevel] at h
  obtain ⟨e, s'', hevaluate, h⟩ := exists_of_run_bind_eq_ok h
  obtain ⟨rfl, rfl⟩ := eq_of_run_evaluate_eq_ok hdb hevaluate
  split at h <;> rename_i hlevel
  · obtain ⟨hb, rfl⟩ := Prod.mk.inj h
    obtain rfl := Except.ok.inj hb
    exact ⟨rfl, fun hb ↦ absurd hb Bool.false_ne_true⟩
  · have hheld : (s.evaluation segments target).level = some g := by simpa using hlevel
    split at h
    · obtain ⟨-, rfl⟩ := Prod.mk.inj h
      exact ⟨rfl, fun _ ↦ hheld⟩
    · rw [run_bind_of_ok (run_get _)] at h
      obtain ⟨-, rfl⟩ := Prod.mk.inj h
      exact ⟨rfl, fun _ ↦ hheld⟩

/-- Whether the target has the level that a grant was to give it: it was granted now, or there already. -/
def attained : Except GrantRefusal GrantOutcome → Bool
  | .ok _ | .error (.alreadyAtLevel ..) => true
  | .error _ => false

/-- **Setting an entry** leaves the target with the grade, in its own tree if it was set now. -/
theorem of_run_setEntry_eq_ok (hdb : s.db.Distinct) {resolved : String} {g : Grade}
    {verdict : Except GrantRefusal GrantOutcome} (hverdict : attained verdict)
    (h : s.run (Call.setEntry acting target segments resolved g) = (.ok verdict, s')) :
    ¬verdict.isOk ∧ s' = s.afterRead target ∧
        (s.evaluation segments target).level = some g ∨
      ∃ e, verdict.isOk ∧ s.CanSave ∧ s' = (s.afterRead target).changed
        ((s.afterRead target).db.set target
          (((s.afterRead target).db.treeOf target).grant segments g)) e := by
  rw [Call.setEntry, run_bind_of_ok s.run_get] at h
  obtain ⟨b, s'', halready, h⟩ := exists_of_run_bind_eq_ok h
  obtain ⟨rfl, hlevel⟩ := of_run_alreadyAtLevel_eq_ok hdb halready
  split at h <;> rename_i hb
  · left
    obtain ⟨hresult, rfl⟩ := Prod.mk.inj h
    obtain rfl := Except.ok.inj hresult
    exact ⟨Bool.false_ne_true, rfl, hlevel hb⟩
  · rw [run_bind_of_ok (run_get _)] at h
    dsimp only at h
    split at h
    · obtain ⟨hresult, -⟩ := Prod.mk.inj h
      obtain rfl := Except.ok.inj hresult
      cases hverdict
    · right
      obtain ⟨rfl, hsave, hs'⟩ := eq_of_run_change_eq_ok rfl h
      exact ⟨_, rfl, (canSave_afterRead_iff target).1 hsave, hs'⟩

/-- **A grant on a resolved path** that is not refused comes to its last step after looking up the
actor's level, which must allow it unless the actor is an admin. -/
theorem entitled_of_run_grantAt_eq_ok (hdb : s.db.Distinct) {level : Level}
    {verdict : Except GrantRefusal GrantOutcome} (hverdict : attained verdict)
    (h : s.run (Call.grantAt acting target segments level) = (.ok verdict, s')) :
    grantPathProblem? segments = none ∧
      (Level.mayGrant (s.evaluation (segments.filter (· != ownKey)) acting).level level ∨
        s.rules.isAdmin acting) ∧
      (s.afterRead acting).run (match level with
        | none => Call.removeEntry acting target segments (Path.render segments)
        | some g => Call.setEntry acting target segments (Path.render segments) g) =
      (.ok verdict, s') := by
  rw [Call.grantAt] at h
  cases hproblem : grantPathProblem? segments with
  | some problem =>
    rw [hproblem] at h
    obtain rfl := Except.ok.inj (congrArg Prod.fst h)
    -- None of the problems of a path is that the level is there already.
    unfold grantPathProblem? at hproblem
    split at hproblem
    · cases hproblem
      cases hverdict
    · split at hproblem
      · cases hproblem
        cases hverdict
      · split at hproblem
        · cases hproblem
          cases hverdict
        · cases hproblem
  | none =>
    rw [hproblem] at h
    dsimp only at h
    rw [run_bind_of_ok s.run_get] at h
    split at h
    · obtain rfl := Except.ok.inj (congrArg Prod.fst h)
      cases hverdict
    · obtain ⟨e, s'', hevaluate, h⟩ := exists_of_run_bind_eq_ok h
      obtain ⟨rfl, rfl⟩ := eq_of_run_evaluate_eq_ok hdb hevaluate
      split at h <;> rename_i hheld
      · obtain rfl := Except.ok.inj (congrArg Prod.fst h)
        cases hverdict
      · have hentitled : Level.mayGrant (s.evaluation (segments.filter (· != ownKey)) acting).level
            level ∨ s.rules.isAdmin acting := by
          rw [Bool.and_eq_true, not_and_or] at hheld
          exact hheld.imp (by simp) (by simp)
        cases level <;> exact ⟨rfl, hentitled, h⟩

theorem of_run_grantAt_eq_ok (hdb : s.db.Distinct) {level : Level}
    {verdict : Except GrantRefusal GrantOutcome} (hverdict : attained verdict)
    (h : s.run (Call.grantAt acting target segments level) = (.ok verdict, s')) :
    grantPathProblem? segments = none ∧
      (s.afterRead acting).run (match level with
        | none => Call.removeEntry acting target segments (Path.render segments)
        | some g => Call.setEntry acting target segments (Path.render segments) g) =
      (.ok verdict, s') :=
  have ⟨hproblem, _, hlast⟩ := entitled_of_run_grantAt_eq_ok hdb hverdict h
  ⟨hproblem, hlast⟩

/-- **A grant** that is not refused has resolved its path. -/
theorem of_run_grant_eq_ok {path : Value} {level : Level} {cwd : Option String}
    {result : GrantResult} (hverdict : attained result.verdict)
    (h : s.run (Call.grant acting target path level cwd) = (.ok result, s')) :
    ∃ segments, s.resolver.resolve path (some acting) cwd level.isNone = .ok segments ∧
      result.path = some (Path.render segments) ∧
      s.run (Call.grantAt acting target segments level) = (.ok result.verdict, s') := by
  rw [Call.grant, run_bind_of_ok s.run_get] at h
  split at h <;> rename_i hresolve
  · obtain rfl := Except.ok.inj (congrArg Prod.fst h)
    cases hverdict
  · obtain ⟨verdict, s'', hgrant, h⟩ := exists_of_run_bind_eq_ok h
    obtain ⟨hresult, rfl⟩ := Prod.mk.inj h
    obtain rfl := Except.ok.inj hresult
    exact ⟨_, hresolve, rfl, hgrant⟩

/-! ### The level afterwards -/

/-- An edit of one tree that leaves its memberships alone makes no membership of its owner stale. -/
theorem Settled.changed (h : s.Settled target) {t : Tree} (ht : t.groups = s.db.memberships target)
    (e : AuditEvent) : (s.changed (s.db.set target t) e).Settled target := by
  have hsame := s.sameBut_changed (s.db.set target t) e
  rw [Settled, hsame.db_eq, hsame.groupSources_eq]
  refine h.imp_right fun hpruned ↦ ?_
  rw [Database.pruned_groupsOf_eq_nil_iff] at hpruned ⊢
  intro hplayer group hgroup
  rw [Database.memberships, Database.treeOf_set, if_pos rfl, ht] at hgroup
  rw [Database.has_set, hpruned hplayer group hgroup]
  simp

/-- Where a path without dots can have an entry, a grant there is found there, and below it too unless
the path ends in `*`. -/
theorem levelAt_grant_of_grantPathProblem?_eq_none (h : grantPathProblem? segments = none)
    (hdot : ownKey ∉ segments) {t : Tree} (ht : t.Keyed)
    (hrest : segments.getLast? = some restKey → t.WellFormed) {query : List String}
    (hle : segments <+: query)
    (hquery : segments.getLast? = some restKey → query = segments) (g : Grade) :
    (t.grant segments g).levelAt query = some g := by
  obtain ⟨init, last, rfl, hinit, hlast⟩ := exists_of_grantPathProblem?_eq_none h
  by_cases hkey : last = restKey
  · have hends : (init ++ [last]).getLast? = some restKey := by simp [hkey]
    rw [hquery hends, hkey]
    exact Tree.levelAt_grant_rest (hrest hends) hinit g
  · have hown : last ≠ ownKey := by
      rintro rfl
      simp at hdot
    have hordinary : Ordinary (init ++ [last]) := by
      intro name hname
      rcases List.mem_append.1 hname with hname | hname
      · exact hinit name hname
      · obtain rfl : name = last := by simpa using hname
        simp [isReserved, isModifier, hown, hkey, hlast]
    exact Tree.levelAt_grant_of_prefix ht (by simp) hordinary hle g

/-- The level for the target right after an entry of its tree was set. Nothing that applies to the target
is stale then, and its own tree comes first. -/
theorem run_effectiveLevel_changed_grant (hsettled : s.Settled target)
    (hproblem : grantPathProblem? segments = none) (hdot : ownKey ∉ segments)
    (htree : (s.db.treeOf target).Keyed)
    (hrest : segments.getLast? = some restKey → (s.db.treeOf target).WellFormed) (g : Grade)
    (e : AuditEvent) {below : Value} {cwd : Option String} {query : List String}
    (hbelow : s.resolver.resolve below (some target) cwd false = .ok query)
    (hle : segments <+: query)
    (hquery : segments.getLast? = some restKey → query = segments) :
    ((s.changed (s.db.set target ((s.db.treeOf target).grant segments g)) e).run
      (Call.effectiveLevel below target cwd)).1 = .ok ⟨some g, some target, query⟩ := by
  have hne : query ≠ [] := by
    rintro rfl
    obtain rfl := List.prefix_nil.1 hle
    exact nomatch hproblem
  have hsettled' := hsettled.changed (t := (s.db.treeOf target).grant segments g) rfl e
  have hsame := s.sameBut_changed (s.db.set target ((s.db.treeOf target).grant segments g)) e
  rw [← hsame.resolver_eq] at hbelow
  have hown : (s.changed (s.db.set target ((s.db.treeOf target).grant segments g)) e).levelOf
      query target = some g := by
    rw [levelOf, hsame.db_eq, Database.treeOf_set, if_pos rfl]
    exact levelAt_grant_of_grantPathProblem?_eq_none hproblem hdot htree hrest hle hquery g
  rw [hsettled'.run_effectiveLevel hbelow, evaluation_of_own hne hown]

/-- What is asked after a grant at the segments of a path. At the path the target has the level, and if it was set
now, its own tree is the source and decides what is below as well. -/
theorem answers_after_grantAt {g : Grade} {verdict : Except GrantRefusal GrantOutcome} (hdb : s.db.Distinct)
    (htree : (s.db.treeOf target).Keyed)
    (hrest : segments.getLast? = some restKey → (s.db.treeOf target).WellFormed)
    (hnames : ∀ name ∈ segments, Path.IsSegment name) (hdot : ownKey ∉ segments) (hverdict : attained verdict)
    (hrun : s.run (Call.grantAt acting target segments (some g)) = (.ok verdict, s')) :
    (∀ cwd', ∃ e,
      (s'.run (Call.effectiveLevel (.text (Path.render segments)) target cwd')).1 = .ok e ∧
      e.level = some g ∧ (verdict.isOk → e.source = some target)) ∧
    (verdict.isOk → segments.getLast? ≠ some restKey → ∀ below cwd' segments',
      s'.resolver.resolve below (some target) cwd' false = .ok segments' →
      segments <+: segments' →
      (s'.run (Call.effectiveLevel below target cwd')).1 =
        .ok ⟨some g, some target, segments'⟩) := by
  obtain ⟨hproblem, hset⟩ := of_run_grantAt_eq_ok hdb hverdict hrun
  have hdb₁ := distinct_afterRead hdb acting
  have hsettled := settled_afterRead hdb₁ target
  -- The text that is reported resolves to the same segments again, for the target as well.
  have hreported : ∀ (r : Path.Resolver) cwd',
      r.resolve (.text (Path.render segments)) (some target) cwd' false = .ok segments :=
    fun r cwd' ↦ Path.Resolver.resolve_render hnames hdot _ _
  rcases of_run_setEntry_eq_ok hdb₁ hverdict hset with
    ⟨hrefused, rfl, hlevel⟩ | ⟨event, hok, -, rfl⟩
  · refine ⟨fun cwd' ↦ ?_, fun hok ↦ absurd hok hrefused⟩
    refine ⟨((s.afterRead acting).afterRead target).evaluation segments target, ?_, ?_, ?_⟩
    · rw [hsettled.run_effectiveLevel (hreported _ cwd')]
    · rw [evaluation_afterRead hdb₁]
      exact hlevel
    · exact fun hok ↦ absurd hok hrefused
  · -- What the own tree says depends on its root, and no lookup has changed that.
    have hroot : (((s.afterRead acting).afterRead target).db.treeOf target).root =
        (s.db.treeOf target).root := by
      rw [root_treeOf_afterRead hdb₁, root_treeOf_afterRead hdb]
    have hkeyed : (((s.afterRead acting).afterRead target).db.treeOf target).Keyed := by
      rwa [Tree.Keyed, hroot]
    have hwf : segments.getLast? = some restKey →
        (((s.afterRead acting).afterRead target).db.treeOf target).WellFormed := by
      intro hends
      rw [Tree.WellFormed, hroot]
      exact hrest hends
    refine ⟨fun cwd' ↦ ⟨⟨some g, some target, segments⟩, ?_, rfl, fun _ ↦ rfl⟩, ?_⟩
    · exact run_effectiveLevel_changed_grant hsettled hproblem hdot hkeyed hwf g event
        (hreported _ cwd') List.prefix_rfl fun _ ↦ rfl
    · intro _ hends below cwd' segments' hbelow hle
      rw [(sameBut_changed _ _ event).resolver_eq] at hbelow
      exact run_effectiveLevel_changed_grant hsettled hproblem hdot hkeyed hwf g event hbelow
        hle fun h ↦ absurd h hends

/-- **After a grant the target has the level.** If a grant is carried out, or refused because the level
is there already, then the level of the target at the path that was reported, asked for from any
working directory, is the one asked for. If it was carried out, the source is the target itself, and
unless the path ends in `*` both hold at every path below it.

The children of each branch of the target's tree must have distinct names and, if the path ends in
`*`, other names than that. -/
theorem effectiveLevel_after_grant {path : Value} {g : Grade} {cwd : Option String}
    {result : GrantResult} (hdb : s.db.Distinct) (htree : (s.db.treeOf target).Keyed)
    (hrest : ∀ segments, s.resolver.resolve path (some acting) cwd false = .ok segments →
      segments.getLast? = some restKey → (s.db.treeOf target).WellFormed)
    (hrun : s.run (Call.grant acting target path (some g) cwd) = (.ok result, s'))
    (hverdict : attained result.verdict) :
    ∃ segments, s.resolver.resolve path (some acting) cwd false = .ok segments ∧
      result.path = some (Path.render segments) ∧
      (∀ cwd', ∃ e,
        (s'.run (Call.effectiveLevel (.text (Path.render segments)) target cwd')).1 = .ok e ∧
        e.level = some g ∧ (result.verdict.isOk → e.source = some target)) ∧
      (result.verdict.isOk → segments.getLast? ≠ some restKey → ∀ below cwd' segments',
        s'.resolver.resolve below (some target) cwd' false = .ok segments' →
        segments <+: segments' →
        (s'.run (Call.effectiveLevel below target cwd')).1 =
          .ok ⟨some g, some target, segments'⟩) := by
  obtain ⟨segments, hresolve, hpath, hgrant⟩ := of_run_grant_eq_ok hverdict hrun
  exact ⟨segments, hresolve, hpath, answers_after_grantAt hdb htree (hrest segments hresolve)
    (fun _ hname ↦ Path.Resolver.isSegment_of_mem_resolve hresolve hname)
    (Path.Resolver.dot_notMem_resolve hresolve) hverdict hgrant⟩

/-- An admin grants a player a directory. The player then holds it, and what lies below it. -/
theorem effectiveLevel_after_grant_bob :
    let s : Service :=
      { db := .seeded {}, store := some {}, identity := some { players := [("bob", {})] } }
    ∃ result s',
      s.run (Call.grant "kralk" "bob" (.text "/tmp/x") (some .grant) none) = (.ok result, s') ∧
      result.verdict.isOk ∧
      (s'.run (Call.effectiveLevel (.text (Path.render ["tmp", "x", "y"])) "bob" none)).1 =
        .ok ⟨some .grant, some "bob", ["tmp", "x", "y"]⟩ := by
  intro s
  have hok : (match (s.run (Call.grant "kralk" "bob" (.text "/tmp/x") (some .grant) none)).1 with
      | .ok result => result.verdict.isOk && attained result.verdict
      | .error _ => false) = true := by decide +kernel
  rcases hrun : s.run (Call.grant "kralk" "bob" (.text "/tmp/x") (some .grant) none) with
    ⟨_ | result, s'⟩
  · rw [hrun] at hok
    exact nomatch hok
  · rw [hrun] at hok
    obtain ⟨hisOk, hattained⟩ := Bool.and_eq_true_iff.1 hok
    have hwf : (s.db.treeOf "bob").WellFormed := by decide
    obtain ⟨segments, hresolve, -, -, hbelow⟩ := effectiveLevel_after_grant (s := s)
      (by unfold Database.Distinct; decide) hwf.keyed (fun _ _ _ ↦ hwf) hrun hattained
    have hpath : s.resolver.resolve (.text "/tmp/x") (some "kralk") none false =
        .ok ["tmp", "x"] := congrArg Except.ok (by decide)
    obtain rfl : segments = ["tmp", "x"] := Except.ok.inj (hresolve.symm.trans hpath)
    refine ⟨result, s', rfl, hisOk, hbelow hisOk (by decide) _ none ["tmp", "x", "y"] ?_ ?_⟩
    · exact Path.Resolver.resolve_render (by decide) (by decide) _ _
    · decide

end Service

end PathAccess
