import PathAccess.Proofs.Service.BlastRadius
import PathAccess.Proofs.Service.RuledHomes
import PathAccess.Proofs.Tree.Uncovered
/-!
# What may be handed out

Whether an actor may grant a level depends on the level that the actor holds. For a grant the two meet:
what the target has afterwards is what was asked for. A removal asks for no access, which anyone may take
away who may grant at all, and what the target has afterwards was decided long before, by whoever set
what the removed entry covered. So a removal may raise the target's level, and above anything that its actor
could grant (`removal_raises_level`).

All that an actor can do with a removal is to uncover. `effectiveLevel_after_edit` names the level in
terms of the service before the call: what lies beneath the entry in the target's own tree, or else the
rule about homes, or else the first of the other trees that apply to the target.
-/

namespace PathAccess

/-- What lies beneath an entry depends on the root of the tree. -/
theorem Tree.beneath_congr {t u : Tree} (h : t.root = u.root) (path : List String) (name : String) :
    t.beneath path name = u.beneath path name := by
  simp only [beneath, standingAbove, restAt?, standingAt, h]

namespace Service

variable {s s' : Service} {acting target : String}

/-- The trees of others say to the target of an edit what they said before. -/
theorem LookedUp.others_changed {base : Service} (h : s.LookedUp base) (hwf : s.db.WellFormed)
    {db : Database} {segments : List String} (hedited : Edited base.db target segments db)
    (e : AuditEvent) (path : List String) :
    (base.changed db e).others path target = s.others path target := by
  have hlevel : ∀ n, n ≠ target → (base.changed db e).levelOf path n = s.levelOf path n :=
    fun n hn ↦ h.levelOf_changed hwf hedited fun heq ↦ absurd heq hn
  -- Of the names that say something, the target apart, none comes or goes.
  let speaks (n : String) : Bool := (s.levelOf path n).isSome && n != target
  have hagree : Database.AgreeOn speaks path s.db (base.changed db e).db :=
    h.agreeOn_changed hwf hedited (fun n hn ↦ (Bool.and_eq_true_iff.1 hn).1)
      fun htarget ↦ by simp [speaks] at htarget
  have hnames : ((base.changed db e).priority target).filter speaks =
      (s.priority target).filter speaks :=
    filter_priority_of_agreeOn (h.sameBut_changed db e) hagree
  have hspeak : ∀ t : Service, (∀ n, n ≠ target → t.levelOf path n = s.levelOf path n) →
      t.others path target =
        ((t.priority target).filter speaks).findSome? (t.levelOf path) := by
    intro t ht
    rw [others, ← List.filter_filter]
    refine (findSome?_filter_of_eq_none fun n hn hsilent ↦ ?_).symm
    have hother : n ≠ target := by simpa using (List.mem_filter.1 hn).2
    rw [ht n hother]
    simpa using hsilent
  rw [hspeak _ hlevel, hspeak s fun _ _ ↦ rfl, hnames, ← List.head?_filterMap,
    ← List.head?_filterMap]
  congr 1
  refine List.filterMap_congr fun n hn ↦ hlevel n ?_
  have hkept := (List.mem_filter.1 hn).2
  exact by simpa using (Bool.and_eq_true_iff.1 hkept).2

/-! ### After a grant and after a removal -/

/-- **After a grant** the target has the level by its own tree. -/
theorem levelOf_after_setEntry (hwf : s.db.WellFormed) {segments : List String} {g : Grade}
    {resolved : String} {outcome : GrantOutcome} (hproblem : grantPathProblem? segments = none)
    (hdot : ownKey ∉ segments)
    (h : (s.afterRead acting).run (Call.setEntry acting target segments resolved g) =
      (.ok (.ok outcome), s')) :
    s.CanSave ∧ s'.CanSave ∧ s'.db.Distinct ∧ s'.resolver = s.resolver ∧
      s'.levelOf segments target = some g := by
  have hbase : s.LookedUp ((s.afterRead acting).afterRead target) :=
    .read (.read .refl acting) target
  have hwf' := hbase.wellFormed hwf
  rcases of_run_setEntry_eq_ok (distinct_afterRead hwf.distinct acting) rfl h with
    ⟨hrefused, -⟩ | ⟨e, -, hsave, rfl⟩
  · exact absurd rfl hrefused
  · have hsaves : s.CanSave := (canSave_afterRead_iff acting).1 hsave
    have hchanged := sameBut_changed ((s.afterRead acting).afterRead target)
      (((s.afterRead acting).afterRead target).db.set target
        ((((s.afterRead acting).afterRead target).db.treeOf target).grant segments g)) e
    refine ⟨hsaves, canSave_changed_iff.2 (hbase.canSave_iff.2 hsaves), ?_,
      (hbase.sameBut_changed _ e).resolver_eq, ?_⟩
    · rw [hchanged.db_eq]
      exact hwf'.distinct.set _ _
    · rw [levelOf, hchanged.db_eq, Database.treeOf_set, if_pos rfl]
      exact levelAt_grant_of_grantPathProblem?_eq_none hproblem hdot (hwf'.trees target).keyed
        (fun _ ↦ hwf'.trees target) List.prefix_rfl (fun _ ↦ rfl) g

/-- **After a removal** the target has what was beneath the entry, or what others give it. -/
theorem level_after_removeEntry (hwf : s.db.WellFormed) {path : List String} {last : String}
    {resolved : String} {outcome : GrantOutcome} (hpath : Ordinary path)
    (h : (s.afterRead acting).run (Call.removeEntry acting target (path ++ [last]) resolved) =
      (.ok (.ok outcome), s')) :
    let query := (path ++ [last]).filter (· != ownKey)
    s.CanSave ∧ s'.CanSave ∧ s'.db.Distinct ∧ s'.resolver = s.resolver ∧
      (s'.evaluation query target).level =
        ((s.db.treeOf target).beneath path last <|> s.homes.ruled? query target <|>
          s.others query target) := by
  intro query
  have hbase : s.LookedUp (s.afterRead acting) := .read .refl acting
  have hwf' := hbase.wellFormed hwf
  obtain ⟨db, e, hedited, hsave, rfl, hfound, hroot⟩ := exists_of_run_removeEntry_eq_ok h
  have hdb : ((s.afterRead acting).changed db e).db = db :=
    ((s.afterRead acting).sameBut_changed db e).db_eq
  have hsame := hbase.sameBut_changed db e
  have hown : ((s.afterRead acting).changed db e).levelOf query target =
      (s.db.treeOf target).beneath path last := by
    have hlookup : ((s.afterRead acting).db.treeOf target).root = (s.db.treeOf target).root :=
      root_treeOf_afterRead hwf.distinct acting target
    rw [← Tree.beneath_congr hlookup, ← Tree.levelAt_revoke (hwf'.trees target) hpath hfound, levelOf,
      hdb]
    exact Tree.levelAt_of_root_eq (hroot hwf'.distinct) query
  refine ⟨(canSave_afterRead_iff acting).1 hsave, canSave_changed_iff.2 hsave, ?_,
    hsame.resolver_eq, ?_⟩
  · rw [hdb]
    exact hedited.distinct hwf'.distinct
  · rw [level_evaluation, hown, hsame.homes_eq, hbase.others_changed hwf hedited]

/-! ### Tiers -/

/-- **Tier discipline.** An actor who is no admin grants a target a level at a path, or removes its entry
there with no access, and the call succeeds. Then the actor held a level at the path, a final dot
dropped, that may grant what was asked for. After a grant the target has that very level there. After a
removal it has what the service before the call says without the entry: what lies beneath it in the
target's own tree, or else what the rules about homes give the target, or else the level of the first other
tree that applies to the target. -/
theorem effectiveLevel_after_edit {path : Value} {level : Level} {cwd : Option String}
    {result : GrantResult} (hwf : s.db.WellFormed) (hadmin : s.rules.isAdmin acting = false)
    (hrun : s.run (Call.grant acting target path level cwd) = (.ok result, s'))
    (hok : result.verdict.isOk) :
    ∃ dir last, s.resolver.resolve path (some acting) cwd level.isNone = .ok (dir ++ [last]) ∧
      let query := (dir ++ [last]).filter (· != ownKey)
      ∃ held after,
        (s.run (Call.effectiveLevel (.text (Path.render query)) acting none)).1 = .ok held ∧
        (s'.run (Call.effectiveLevel (.text (Path.render query)) target none)).1 = .ok after ∧
        Level.mayGrant held.level level ∧
        (level.isSome → after.level = level) ∧
        (level = none → after.level =
          ((s.db.treeOf target).beneath dir last <|> s.homes.ruled? query target <|>
            s.others query target)) := by
  obtain ⟨outcome, houtcome⟩ : ∃ outcome, result.verdict = .ok outcome := by
    cases hverdict : result.verdict with
    | error e => simp [hverdict, Except.isOk, Except.toBool] at hok
    | ok outcome => exact ⟨outcome, rfl⟩
  have hattained : attained result.verdict := by
    rw [houtcome]
    rfl
  obtain ⟨segments, hresolve, -, hgrant⟩ := of_run_grant_eq_ok hattained hrun
  obtain ⟨hproblem, hentitled, hlast⟩ :=
    entitled_of_run_grantAt_eq_ok hwf.distinct hattained hgrant
  obtain ⟨dir, last, rfl, hdir, -⟩ := exists_of_grantPathProblem?_eq_none hproblem
  have hmay := hentitled.resolve_right (by simp [hadmin])
  refine ⟨dir, last, hresolve, ?_⟩
  intro query
  have hanswers : ∀ {t : Service}, t.CanSave → t.db.Distinct → ∀ name,
      (t.run (Call.effectiveLevel (.text (Path.render query)) name none)).1 =
        .ok (t.evaluation query name) := by
    intro t hsave hdb name
    have hread : t.resolver.resolve (.text (Path.render query)) (some name) none false = .ok query :=
      Path.Resolver.resolve_render_of_resolve hresolve t.resolver (some name) none
    rw [hsave.run_effectiveLevel hdb hread]
  rw [houtcome] at hlast
  cases level with
  | some g =>
    have hdot : ownKey ∉ dir ++ [last] := Path.Resolver.dot_notMem_resolve hresolve
    have hquery : query = dir ++ [last] :=
      List.filter_eq_self.2 fun n hn ↦ by
        have hne : n ≠ ownKey := fun heq ↦ hdot (heq ▸ hn)
        simpa using hne
    obtain ⟨hsave, hsave', hdb', -, hlevel⟩ := levelOf_after_setEntry hwf hproblem hdot hlast
    refine ⟨_, _, hanswers hsave hwf.distinct acting, hanswers hsave' hdb' target, hmay,
      fun _ ↦ ?_, fun hnone ↦ by cases hnone⟩
    rw [level_evaluation, hquery, hlevel]
    rfl
  | none =>
    obtain ⟨hsave, hsave', hdb', -, hlevel⟩ := level_after_removeEntry hwf hdir hlast
    exact ⟨_, _, hanswers hsave hwf.distinct acting, hanswers hsave' hdb' target, hmay,
      fun hsome ↦ absurd hsome Bool.false_ne_true, fun _ ↦ hlevel⟩

/-- The `.` of a directory is removed. What it covered is the directory's own `*`. -/
theorem effectiveLevel_after_edit_bob :
    let s : Service := {
      db := { trees := [
        ("alice", { root := { children := [("tmp", .leaf .grantRead)] } }),
        ("bob", { root := { children := [("tmp", .branch (some .revoked) (some .read) [])] } })] }
      store := some {}
      identity := some { players := [("alice", {}), ("bob", {})] } }
    ∃ result s', s.run (Call.grant "alice" "bob" (.text "/tmp/.") none none) = (.ok result, s') ∧
      result.verdict.isOk ∧ ∃ held after,
        (s.run (Call.effectiveLevel (.text "/tmp") "alice" none)).1 = .ok held ∧
        (s'.run (Call.effectiveLevel (.text "/tmp") "bob" none)).1 = .ok after ∧
        Level.mayGrant held.level none ∧ after.level = some .read := by
  intro s
  have hok : (match (s.run (Call.grant "alice" "bob" (.text "/tmp/.") none none)).1 with
      | .ok result => result.verdict.isOk
      | .error _ => false) = true := by decide +kernel
  rcases hrun : s.run (Call.grant "alice" "bob" (.text "/tmp/.") none none) with ⟨_ | result, s'⟩
  · rw [hrun] at hok
    cases hok
  · rw [hrun] at hok
    have hwf : s.db.WellFormed := by
      refine ⟨?_, Database.treeOf_of_forall (P := Tree.WellFormed) Database.wellFormed_empty ?_⟩
      · unfold Database.Distinct
        decide
      · decide
    obtain ⟨dir, last, hresolve, held, after, hheld, hafter, hmay, -, hlevel⟩ :=
      effectiveLevel_after_edit hwf (by decide) hrun hok
    have hpath : s.resolver.resolve (.text "/tmp/.") (some "alice") none true =
        .ok (["tmp"] ++ ["."]) := congrArg Except.ok (by decide)
    obtain ⟨rfl, hlast⟩ := List.append_inj' (Except.ok.inj (hresolve.symm.trans hpath)) rfl
    obtain rfl : last = "." := List.head_eq_of_cons_eq hlast
    refine ⟨result, s', rfl, hok, held, after, hheld, hafter, hmay, (hlevel rfl).trans ?_⟩
    decide +kernel

/-- **A removal can raise a level above what its actor could grant.** A player who may hand out no more than
the right to read takes away the entry by which another is denied a directory. That one is left with the
right to write, which everyone has there. -/
theorem removal_raises_level :
    let s : Service := {
      db := { trees := [
        ("*", { root := { children := [("tmp", .leaf .write)] } }),
        ("alice", { root := { children := [("tmp", .leaf .grantRead)] } }),
        ("bob", { root := { children := [("tmp", .leaf .revoked)] } })] }
      store := some {}
      identity := some { players := [("alice", {}), ("bob", {})] } }
    let level (s : Service) (name : String) : Option Level :=
      ((s.run (Call.effectiveLevel (.text "/tmp") name none)).1.toOption).map (·.level)
    let removal := s.run (Call.grant "alice" "bob" (.text "/tmp") none none)
    s.CanSave ∧ s.rules.isAdmin "alice" = false ∧
      removal.1.toOption.bind (·.verdict.toOption) = some .principalRemoved ∧
      level s "alice" = some (some .grantRead) ∧
      level s "bob" = some (some .revoked) ∧
      level removal.2 "bob" = some (some .write) ∧
      Level.mayGrant (some .grantRead) (some .write) = false := by
  decide +kernel

end Service

end PathAccess
