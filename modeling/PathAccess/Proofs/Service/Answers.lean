import PathAccess.Proofs.Service.Paired
/-!
# One request made of two services

A request is made of a service, and of one that stands beside it. Both answer alike (`Request.Agree`), and
they stand beside each other afterwards (`Beside.run_call`), as long as nothing that is gone has a tree.

For changes this was said before. A question is answered from levels and groups, which are the same in
both. Only a listing shows memberships as they are stored. Nothing is said about what it shows, and what it
leaves is seen from its course: it looks up the groups of one name, once or twice.
-/

namespace PathAccess

/-- Whether an answer is as good as another one, when memberships in groups that are gone are pruned. Of the
databases, the first is the one before the first answer, and the second the one after it. A listing shows
the memberships themselves, and nothing is said about it. -/
def Request.Agree (gone : String → Prop) (db db' : Database) : (r : Request) →
    Except ServiceError r.Result → Except ServiceError r.Result → Prop
  | grant _ target _ _ _, x, y => y = x ∨ ∃ path,
      x = .ok ⟨target, path, none, .ok .removed⟩ ∧
        y = .ok ⟨target, path, none, .ok .principalRemoved⟩ ∧ db'.Hollow gone target
  | changeMembership .., x, y => y = x
  | reset _ target, x, y => y = x ∨
      y = .ok ⟨target, .error (.notFound target)⟩ ∧ db.Hollow gone target
  | check .., x, y => y = x
  | effectiveLevel .., x, y => y = x
  | groupsOf _, x, y => y = x
  | canonicalPath .., x, y => y = x
  | list .., _, _ => True

namespace Service

variable {s t : Service} {gone : String → Prop}

namespace Beside

/-! ### Questions -/

/-- **A check.** -/
theorem paired_check (h : Beside gone s t) (hlacks : t.db.Lacks gone) (path : Value)
    (principal : String) (required : Level) (cwd : Option String) (ownSession : Bool) :
    Paired (fun r r' s' t' ↦ r' = r ∧ Beside gone s' t')
      (s.run (Call.check path principal required cwd ownSession))
      (t.run (Call.check path principal required cwd ownSession)) := by
  have hrecord : ∀ segments, Call.isOwnRecord t segments principal required =
      Call.isOwnRecord s segments principal required := by
    obtain ⟨store, events, heq⟩ := h.same
    rw [heq]
    exact fun _ ↦ rfl
  refine paired_get_bind ?_
  rw [h.same.resolver_eq]
  cases s.resolver.resolve path (some principal) cwd false with
  | error e => exact paired_audit_bind (paired_pure ⟨rfl, h.heard _ _⟩)
  | ok segments =>
    dsimp only
    rw [hrecord]
    split
    · exact paired_pure ⟨rfl, h⟩
    · refine (h.paired_evaluate hlacks segments principal).bind fun e e' s' t' hread ↦ ?_
      obtain ⟨rfl, rfl, rfl⟩ := hread
      obtain ⟨h', -⟩ := h.afterRead hlacks principal
      split
      · exact paired_audit_bind (paired_pure ⟨rfl, h'.heard _ _⟩)
      · exact paired_pure ⟨rfl, h'⟩

/-- **Asking for a level.** -/
theorem run_effectiveLevel (h : Beside gone s t) (hlacks : t.db.Lacks gone) (path : Value)
    (principal : String) (cwd : Option String) :
    (t.run (Call.effectiveLevel path principal cwd)).1 =
        (s.run (Call.effectiveLevel path principal cwd)).1 ∧
      Beside gone (s.run (Call.effectiveLevel path principal cwd)).2
        (t.run (Call.effectiveLevel path principal cwd)).2 := by
  have hresolve : t.resolver.resolve path (some principal) cwd false =
      s.resolver.resolve path (some principal) cwd false := by rw [h.same.resolver_eq]
  cases hpath : s.resolver.resolve path (some principal) cwd false with
  | error e =>
    have hfails : ∀ u : Service, u.resolver.resolve path (some principal) cwd false = .error e →
        u.run (Call.effectiveLevel path principal cwd) = (.error (.invalidPath e), u) := by
      intro u hu
      rw [Call.effectiveLevel, run_bind, run_resolvePath, hu]
      rfl
    rw [hfails s hpath, hfails t (hresolve.trans hpath)]
    exact ⟨rfl, h⟩
  | ok segments =>
    rw [h.canSave.run_effectiveLevel h.thinned.distinct hpath,
      h.canSave_right.run_effectiveLevel h.thinned.distinct_right (hresolve.trans hpath),
      h.evaluation_eq hlacks]
    exact ⟨rfl, (h.afterRead hlacks principal).1⟩

/-- **Asking for groups.** -/
theorem paired_groupsOf (h : Beside gone s t) (hlacks : t.db.Lacks gone) (name : String) :
    Paired (fun l l' s' t' ↦ l' = l ∧ Beside gone s' t') (s.run (Call.groupsOf name))
      (t.run (Call.groupsOf name)) := by
  refine (h.paired_resolveGroups hlacks name).bind fun r r' s' t' hread ↦ paired_pure ?_
  obtain ⟨hgroups, -, -, rfl, rfl⟩ := hread
  exact ⟨hgroups, (h.afterLookup hlacks name).1⟩

/-- **Asking for the canonical form of a path.** -/
theorem run_canonicalPath (h : Beside gone s t) (path : Value) (acting cwd : Option String) :
    (t.run (Call.canonicalPath path acting cwd)).1 =
        (s.run (Call.canonicalPath path acting cwd)).1 ∧
      Beside gone (s.run (Call.canonicalPath path acting cwd)).2
        (t.run (Call.canonicalPath path acting cwd)).2 := by
  rw [Service.run_canonicalPath, Service.run_canonicalPath, Call.canonicalPath, run_bind, run_bind,
    run_resolvePath, run_resolvePath, h.same.resolver_eq]
  refine ⟨?_, h⟩
  cases s.resolver.resolve path acting cwd false <;> rfl

end Beside

/-- What a course puts in place changes nothing else. -/
theorem sameBut_told {α : Type} (k : Course α) (s : Service) :
    s.SameBut (k.db.getD s.db) (k.told s) := by
  have hset : s.SameBut (k.db.getD s.db) { s with db := k.db.getD s.db } := ⟨_, _, rfl⟩
  unfold Course.told
  cases k.event with
  | none => exact hset
  | some e => exact hset.trans (sameBut_heard _ e)

/-- **A question** looks up groups and changes nothing else. -/
theorem CanSave.sameBut_perform (h : s.CanSave) (hdb : s.db.Distinct) {r : Request}
    (hr : r.acting? = none) :
    s.SameBut (s.db.healedAll s.groupSources (r.lookups s)) (r.perform s) ∧ (r.perform s).CanSave := by
  obtain ⟨k, hfollows, hnames, hnone, -⟩ := r.asksBy_call hdb hr
  have hlookups := s.sameBut_afterLookups k.names
  have htold := sameBut_told k (s.afterLookups k.names)
  rw [hnone, Option.getD_none, hlookups.db_eq] at htold
  have hrun : r.perform s = k.told (s.afterLookups k.names) := by
    rw [r.perform_eq, hfollows.run_eq, h.run_call, hnone]
    rfl
  rw [hrun, ← hnames]
  refine ⟨hlookups.trans htold, ?_⟩
  rw [CanSave, store_told]
  exact (canSave_afterLookups_iff k.names).2 h

/-- **A listing** looks up the groups of one name, whether it is known or not. -/
theorem healedAll_lookups_list (hdb : s.db.Distinct)
    (hdefault : s.db.rules.isPlayer defaultPrincipal = false) (name : String)
    (mode : Option ListingMode) :
    s.db.healedAll s.groupSources ((Request.list name mode).lookups s) =
      s.db.healed s.groupSources name := by
  by_cases hname : name = defaultPrincipal
  · -- Those of the default are never looked up.
    have hother : s.db.rules.isPlayer name = false := hname ▸ hdefault
    have hstay : s.db.healed s.groupSources name = s.db :=
      Database.healed_of_not_player _ fun hboth ↦ by cases hother.symm.trans hboth.2
    have hnone : readers name = [] := if_pos (by simpa using hname)
    rw [hstay, Request.lookups, hnone]
    split
    · rfl
    · split <;> simp only [Database.healedAll_cons, Database.healedAll_nil, hstay]
  · have honce : readers name = [name] := if_neg (by simpa using hname)
    rw [Request.lookups, honce]
    split
    · rfl
    · split
      · simp only [Database.healedAll_cons, Database.healedAll_nil, hdb.healed_healed]
      · rfl

namespace Beside

theorem perform_list (h : Beside gone s t) (hlacks : t.db.Lacks gone) (name : String)
    (mode : Option ListingMode) :
    Beside gone ((Request.list name mode).perform s) ((Request.list name mode).perform t) := by
  have hdefault : t.db.rules.isPlayer defaultPrincipal = false := by
    rw [h.thinned.rules]
    exact h.apart.default
  obtain ⟨hs, hsave⟩ := h.canSave.sameBut_perform (r := .list name mode) h.thinned.distinct rfl
  obtain ⟨ht, hsave'⟩ := h.canSave_right.sameBut_perform (r := .list name mode)
    h.thinned.distinct_right rfl
  rw [healedAll_lookups_list h.thinned.distinct h.apart.default] at hs
  rw [healedAll_lookups_list h.thinned.distinct_right hdefault, h.same.groupSources_eq] at ht
  refine h.of_sameBut hs.self ht.self hsave hsave' (by rw [hs.db_eq, Database.rules_healed]) ?_
  rw [hs.db_eq, ht.db_eq]
  exact h.thinned.healed hlacks s.groupSources name

/-! ### Any request -/

/-- **One request made of both** is answered alike, and leaves them beside each other. -/
theorem run_call (h : Beside gone s t) (hlacks : t.db.Lacks gone) (r : Request) :
    r.Agree gone s.db (s.run r.call).2.db (s.run r.call).1 (t.run r.call).1 ∧
      Beside gone (s.run r.call).2 (t.run r.call).2 := by
  cases r with
  | grant acting target path level cwd =>
    obtain ⟨a, b, ha, hb, h', hsame⟩ := (h.paired_grant hlacks path level cwd).fst_snd
    refine ⟨?_, h'⟩
    rcases hsame with rfl | ⟨path', rfl, rfl, hhollow⟩
    · exact .inl (hb.trans ha.symm)
    · exact .inr ⟨path', ha, hb, hhollow⟩
  | changeMembership acting target group add =>
    obtain ⟨a, b, ha, hb, rfl, h'⟩ :=
      (h.paired_changeMembership hlacks acting target group add).fst_snd
    exact ⟨hb.trans ha.symm, h'⟩
  | reset acting target =>
    obtain ⟨a, b, ha, hb, h', hsame⟩ := (h.paired_reset acting target).fst_snd
    refine ⟨?_, h'⟩
    rcases hsame with rfl | ⟨rfl, hhollow⟩
    · exact .inl (hb.trans ha.symm)
    · exact .inr ⟨hb, hhollow⟩
  | check path principal required cwd ownSession =>
    obtain ⟨a, b, ha, hb, rfl, h'⟩ :=
      (h.paired_check hlacks path principal required cwd ownSession).fst_snd
    exact ⟨hb.trans ha.symm, h'⟩
  | effectiveLevel path principal cwd => exact h.run_effectiveLevel hlacks path principal cwd
  | groupsOf name =>
    obtain ⟨a, b, ha, hb, rfl, h'⟩ := (h.paired_groupsOf hlacks name).fst_snd
    exact ⟨hb.trans ha.symm, h'⟩
  | canonicalPath path acting cwd => exact h.run_canonicalPath path acting cwd
  | list name mode =>
    have h' := h.perform_list hlacks name mode
    rw [Request.perform_eq, Request.perform_eq] at h'
    exact ⟨trivial, h'⟩

end Beside

end Service

end PathAccess
