import PathAccess.Proofs.Database.WellFormed
import PathAccess.Proofs.Service.Grants
/-!
# The blast radius of a change

A grant or a removal can make or delete the target's entry, or a whole group. It can give the target a
tree of its own or take it away, and with it the precedence over the rules about homes; it moves the
trees after it in every list that the target's tree is in, and on the way it prunes memberships of the
actor and of the target. Still, a level changes only for those to whom the target's tree applies before
or after the call, and only at and below the base of the path (`effectiveLevel_eq_of_run_grant`).

The argument is the one of agreeing databases. Away from the base the names that say something are the
same before and after, and say the same. Where the target's tree does not apply, the target is left out
of these names.
-/

namespace PathAccess

namespace Service

variable {s s' : Service} {acting target : String}

/-- Whether the tree of an owner is in the priority list of a principal, as it is looked up. -/
def Applies (s : Service) (owner name : String) : Prop :=
  ∃ trees own s', s.run (Call.treesFor name) = (.ok (trees, own), s') ∧
    ∃ t ∈ trees, t.owner = owner

/-- **A name of the priority list that says something has its tree in the list**, as it is looked up. -/
theorem exists_mem_treesRead (hdb : s.db.Distinct) {n name : String} {path : List String}
    (hn : n ∈ s.priority name) (hlevel : (s.levelOf path n).isSome) :
    ∃ t ∈ (s.treesRead name).1, t.owner = n := by
  rw [priority] at hn
  rw [treesRead]
  by_cases hname : name == defaultPrincipal
  · rw [if_pos hname] at hn ⊢
    obtain rfl : n = name := by simpa using hn
    exact ⟨_, List.mem_singleton_self _, rfl⟩
  · rw [if_neg hname] at hn ⊢
    dsimp only
    rw [List.cons_append, List.mem_cons, List.mem_append, List.mem_singleton] at hn
    rcases hn with rfl | hgroup | rfl
    · -- The own tree, found before the lookup of groups.
      obtain ⟨t, ht⟩ := Option.isSome_iff_exists.1 (Database.has_of_levelAt hlevel)
      have hfind : s.db.find? n = some t := ht
      rw [hfind]
      exact ⟨_, List.mem_append_left _ (List.mem_append_left _ List.mem_cons_self), rfl⟩
    · -- The tree of a group, found after it.
      have hhas := hdb.has_healed_of_levelAt s.groupSources name hlevel
      obtain ⟨t, ht⟩ := Option.isSome_iff_exists.1 hhas
      have hfind : (s.db.healed s.groupSources name).find? n = some t := ht
      refine ⟨⟨n, t⟩, List.mem_append_left _ (List.mem_append_right _ ?_), rfl⟩
      exact List.mem_filterMap.2 ⟨n, hgroup, by rw [hfind]; rfl⟩
    · exact ⟨_, List.mem_append_right _ (List.mem_singleton_self _), rfl⟩

theorem CanSave.applies_of_mem_priority (hsave : s.CanSave) (hdb : s.db.Distinct) {n name : String}
    {path : List String} (hn : n ∈ s.priority name) (hlevel : (s.levelOf path n).isSome) :
    s.Applies n name :=
  ⟨_, _, _, (s.run_treesFor_cases name).resolve_right fun h ↦ h.1 hsave,
    exists_mem_treesRead hdb hn hlevel⟩

/-- Who says nothing at a path does so for every principal to whom its tree does not apply. -/
theorem CanSave.levelOf_eq_none (hsave : s.CanSave) (hdb : s.db.Distinct) {n name : String}
    {path : List String} (hn : n ∈ s.priority name) (hnot : ¬s.Applies n name) :
    s.levelOf path n = none := by
  by_contra hsays
  exact hnot (hsave.applies_of_mem_priority hdb hn (Option.ne_none_iff_isSome.1 hsays))

/-! ### Lookups on the way -/

/-- Whether a service is another one after some lookups. -/
inductive LookedUp (s : Service) : Service → Prop
  /-- Nothing was looked up. -/
  | refl : LookedUp s s
  /-- The trees of one more name were looked up. -/
  | read {base : Service} (h : LookedUp s base) (name : String) : LookedUp s (base.afterRead name)

section LookedUp

variable {base : Service}

theorem LookedUp.sameBut (h : s.LookedUp base) : s.SameBut base.db base := by
  induction h with
  | refl => exact .refl s
  | @read base h name ih =>
    have hread := base.sameBut_afterRead name
    rw [← hread.db_eq] at hread
    exact ih.trans hread

theorem LookedUp.canSave_iff (h : s.LookedUp base) : base.CanSave ↔ s.CanSave := by
  induction h with
  | refl => rfl
  | read h name ih => exact (canSave_afterRead_iff name).trans ih

theorem LookedUp.wellFormed (h : s.LookedUp base) (hwf : s.db.WellFormed) :
    base.db.WellFormed := by
  induction h with
  | refl => exact hwf
  | @read base h name ih =>
    rw [(base.sameBut_afterRead name).db_eq, dbAfterRead]
    split
    · exact ih
    · exact ih.healed _ _

theorem LookedUp.levelOf_eq (h : s.LookedUp base) (hwf : s.db.WellFormed) (path : List String)
    (n : String) : base.levelOf path n = s.levelOf path n := by
  induction h with
  | refl => rfl
  | read h name ih => rw [levelOf_afterRead (h.wellFormed hwf).distinct, ih]

theorem LookedUp.agreeOn (h : s.LookedUp base) (hwf : s.db.WellFormed) {p : String → Bool}
    {path : List String} (hp : ∀ n, p n → (s.levelOf path n).isSome) :
    Database.AgreeOn p path s.db base.db := by
  induction h with
  | refl => exact .refl hp
  | read h name ih =>
    refine ih.trans (agreeOn_afterRead (h.wellFormed hwf).distinct (fun n hn ↦ ?_) name)
    rw [h.levelOf_eq hwf]
    exact hp n hn

end LookedUp

/-- **A grant or a removal that is carried out** edits the target's tree in a database from which the
lookups on the way may have pruned something. -/
theorem exists_edited_of_run_grant_eq_ok (hdb : s.db.Distinct) {path : Value} {level : Level}
    {cwd : Option String} {result : GrantResult} (hok : result.verdict.isOk)
    (h : s.run (Call.grant acting target path level cwd) = (.ok result, s')) :
    ∃ segments base db e, s.resolver.resolve path (some acting) cwd level.isNone = .ok segments ∧
      s.LookedUp base ∧ Edited base.db target segments db ∧ base.CanSave ∧
      s' = base.changed db e := by
  obtain ⟨outcome, houtcome⟩ : ∃ outcome, result.verdict = .ok outcome := by
    cases hverdict : result.verdict with
    | error e => simp [hverdict, Except.isOk, Except.toBool] at hok
    | ok outcome => exact ⟨outcome, rfl⟩
  have hattained : attained result.verdict := by
    rw [houtcome]
    rfl
  obtain ⟨segments, hresolve, -, hgrant⟩ := of_run_grant_eq_ok hattained h
  obtain ⟨-, hlast⟩ := of_run_grantAt_eq_ok hdb hattained hgrant
  have hdb₁ := distinct_afterRead hdb acting
  cases level with
  | none =>
    rw [houtcome] at hlast
    obtain ⟨db, e, hedited, hsave, hs', -⟩ := exists_of_run_removeEntry_eq_ok hlast
    exact ⟨segments, _, db, e, hresolve, .read .refl acting, hedited, hsave, hs'⟩
  | some g =>
    rcases of_run_setEntry_eq_ok hdb₁ hattained hlast with ⟨hrefused, -, -⟩ | ⟨e, -, hsave, hs'⟩
    · exact absurd hok hrefused
    · exact ⟨segments, _, _, e, hresolve, .read (.read .refl acting) target, .granted g,
        (canSave_afterRead_iff target).2 hsave, hs'⟩

/-! ### The level elsewhere -/

section Edited

variable {base : Service} {db : Database} {e : AuditEvent} {segments query : List String}

theorem LookedUp.sameBut_changed (h : s.LookedUp base) (db : Database) (e : AuditEvent) :
    s.SameBut (base.changed db e).db (base.changed db e) := by
  rw [(base.sameBut_changed db e).db_eq]
  exact h.sameBut.trans (base.sameBut_changed db e)

/-- Everyone but the target says the same after an edit, and the target does so away from its base. -/
theorem LookedUp.levelOf_changed (h : s.LookedUp base) (hwf : s.db.WellFormed)
    (hedited : Edited base.db target segments db) {n : String}
    (hn : n = target → ¬editBase segments <+: query) :
    (base.changed db e).levelOf query n = s.levelOf query n := by
  have hwf' := h.wellFormed hwf
  rw [← h.levelOf_eq hwf, levelOf, (base.sameBut_changed db e).db_eq]
  exact hedited.levelAt_eq hwf'.distinct (hwf'.trees target) hn

/-- Lookups and an edit change nothing for those who say something, the target apart. -/
theorem LookedUp.agreeOn_changed (h : s.LookedUp base) (hwf : s.db.WellFormed)
    (hedited : Edited base.db target segments db) {p : String → Bool}
    (hp : ∀ n, p n → (s.levelOf query n).isSome) (htarget : p target → ¬editBase segments <+: query) :
    Database.AgreeOn p query s.db (base.changed db e).db := by
  have hwf' := h.wellFormed hwf
  rw [(base.sameBut_changed db e).db_eq]
  refine (h.agreeOn hwf hp).trans (.edited hwf'.distinct (hwf'.trees target) hedited
    (fun n hn ↦ ?_) htarget)
  have hsays := hp n hn
  rwa [← h.levelOf_eq hwf] at hsays

end Edited

/-- **What an edit leaves alone**: levels and sources at every path that is not at or below its base, and
those of everyone to whom the target's tree applies neither before nor after. -/
theorem evaluation_changed_of_edited {base : Service} {db : Database} {e : AuditEvent}
    {segments query : List String} {name : String} (hwf : s.db.WellFormed) (hsave : s.CanSave)
    (hbase : s.LookedUp base) (hedited : Edited base.db target segments db)
    (haway : ¬editBase segments <+: query ∨
      ¬s.Applies target name ∧ ¬(base.changed db e).Applies target name) :
    (base.changed db e).evaluation query name = s.evaluation query name := by
  have hdistinct : (base.changed db e).db.Distinct := by
    rw [(base.sameBut_changed db e).db_eq]
    exact hedited.distinct (hbase.wellFormed hwf).distinct
  have hsame := hbase.sameBut_changed db e
  have hsave' : (base.changed db e).CanSave :=
    canSave_changed_iff.2 (hbase.canSave_iff.2 hsave)
  have hlevel : ∀ n, (n = target → ¬editBase segments <+: query) →
      (base.changed db e).levelOf query n = s.levelOf query n :=
    fun _ hn ↦ hbase.levelOf_changed hwf hedited hn
  rcases haway with hnotBelow | ⟨hnot, hnot'⟩
  · -- Away from the base the names that say something are the same.
    have hagree := hbase.agreeOn_changed (e := e) (p := fun n ↦ (s.levelOf query n).isSome) hwf
      hedited (fun _ hn ↦ hn) fun _ ↦ hnotBelow
    refine evaluation_eq_of_agreeOn hsame hagree (fun n _ hn ↦ ?_) fun n _ hn ↦ ?_
    · simpa using hn
    · rw [hlevel n fun _ ↦ hnotBelow]
      simpa using hn
  · -- Elsewhere they are so but for the target, whose tree is not asked.
    have hagree := hbase.agreeOn_changed (e := e)
      (p := fun n ↦ (s.levelOf query n).isSome && n != target) hwf hedited
      (fun n hn ↦ (Bool.and_eq_true_iff.1 hn).1) fun h ↦ by simp at h
    refine evaluation_eq_of_agreeOn hsame hagree (fun n hmem hn ↦ ?_) fun n hmem hn ↦ ?_
    · by_cases htarget : n = target
      · subst htarget
        exact hsave.levelOf_eq_none hwf.distinct hmem hnot
      · simpa [htarget] using hn
    · by_cases htarget : n = target
      · subst htarget
        exact hsave'.levelOf_eq_none hdistinct hmem hnot'
      · rw [hlevel n fun h ↦ absurd h htarget]
        simpa [htarget] using hn

/-- **The blast radius of a change.** A grant or a removal that is carried out at a path changes nothing
for a principal at another path that is not at or below its base, which is the path without a modifier at
its end. And it changes nothing at all for a principal if the target's tree is in its priority list
neither before nor after the call. Both before and after, the level can be asked for, and it is the same
with the same source. -/
theorem effectiveLevel_eq_of_run_grant {path : Value} {level : Level} {cwd : Option String}
    {result : GrantResult} (hwf : s.db.WellFormed)
    (hrun : s.run (Call.grant acting target path level cwd) = (.ok result, s'))
    (hok : result.verdict.isOk) :
    ∃ segments, s.resolver.resolve path (some acting) cwd level.isNone = .ok segments ∧
      ∀ asked principal cwd' query,
        s.resolver.resolve asked (some principal) cwd' false = .ok query →
        (¬editBase segments <+: query ∨ ¬s.Applies target principal ∧ ¬s'.Applies target principal) →
        ∃ e, (s.run (Call.effectiveLevel asked principal cwd')).1 = .ok e ∧
          (s'.run (Call.effectiveLevel asked principal cwd')).1 = .ok e := by
  obtain ⟨segments, base, db, event, hresolve, hbase, hedited, hsave, rfl⟩ :=
    exists_edited_of_run_grant_eq_ok hwf.distinct hok hrun
  have hsame := hbase.sameBut.trans (base.sameBut_changed db event)
  have hsaves : s.CanSave := hbase.canSave_iff.1 hsave
  have hsave' : (base.changed db event).CanSave := canSave_changed_iff.2 hsave
  have hdistinct : (base.changed db event).db.Distinct := by
    rw [(base.sameBut_changed db event).db_eq]
    exact hedited.distinct (hbase.wellFormed hwf).distinct
  refine ⟨segments, hresolve, fun asked principal cwd' query hquery haway ↦
    ⟨s.evaluation query principal, ?_, ?_⟩⟩
  · rw [hsaves.run_effectiveLevel hwf.distinct hquery]
  · rw [← hsame.resolver_eq] at hquery
    rw [hsave'.run_effectiveLevel hdistinct hquery]
    exact congrArg Except.ok (evaluation_changed_of_edited hwf hsaves hbase hedited haway)

/-- An admin removes the one entry of a group, and the group is gone. Its members keep their levels
elsewhere. -/
theorem effectiveLevel_eq_of_run_grant_law :
    let s : Service := {
      db := (Database.seeded {}).setMemberships "alice" ["Arch_law", "Arch_qc"]
      store := some {}
      identity := some { players := [("alice", {})] } }
    ∃ result s', s.run (Call.grant "kralk" "Arch_law" (.text "/data/Law") none none) =
        (.ok result, s') ∧ result.verdict.isOk ∧
      ∃ e, (s.run (Call.effectiveLevel (.text "/data/qc/x") "alice" none)).1 = .ok e ∧
        (s'.run (Call.effectiveLevel (.text "/data/qc/x") "alice" none)).1 = .ok e := by
  intro s
  have hok : (match (s.run (Call.grant "kralk" "Arch_law" (.text "/data/Law") none none)).1 with
      | .ok result => result.verdict.isOk
      | .error _ => false) = true := by decide +kernel
  rcases hrun : s.run (Call.grant "kralk" "Arch_law" (.text "/data/Law") none none) with
    ⟨_ | result, s'⟩
  · rw [hrun] at hok
    exact nomatch hok
  · rw [hrun] at hok
    have hwf : s.db.WellFormed :=
      (Database.wellFormed_seeded {}).setMemberships "alice" ["Arch_law", "Arch_qc"]
    obtain ⟨segments, hresolve, hlevel⟩ := effectiveLevel_eq_of_run_grant hwf hrun hok
    have hpath : s.resolver.resolve (.text "/data/Law") (some "kralk") none true =
        .ok ["data", "Law"] := congrArg Except.ok (by decide)
    have hquery : s.resolver.resolve (.text "/data/qc/x") (some "alice") none false =
        .ok ["data", "qc", "x"] := congrArg Except.ok (by decide)
    obtain rfl : segments = ["data", "Law"] := Except.ok.inj (hresolve.symm.trans hpath)
    exact ⟨result, s', rfl, hok, hlevel _ "alice" none _ hquery (Or.inl (by decide))⟩

end Service

end PathAccess
