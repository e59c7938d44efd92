import PathAccess.Proofs.Service.Beside
import PathAccess.Proofs.Tree.Tidy
/-!
# Changes made to two services in step

The same call is run on two services that stand beside each other, in step (`Service.Paired`). What it
looks up is the same in both, so both take the same branches, and at the end the same change is made
to both or to none. There are two exceptions, both about a tree that holds nothing but memberships that are
gone (`Database.Hollow`). The first service has such a tree where the second has none. So the second has
nothing to reset (`Beside.paired_reset`), and a removal that leaves such a tree in the first leaves none
in the second (`Beside.paired_grant`).
-/

namespace PathAccess

/-- Whether the tree of a name holds nothing but memberships that are gone. -/
def Database.Hollow (db : Database) (gone : String → Prop) (name : String) : Prop :=
  (db.treeOf name).root.isEmpty ∧ ∀ g ∈ db.memberships name, gone g

namespace Database

/-- The tree of a name without the entry at a path, if there is such an entry. -/
def without? (db : Database) (name : String) (path : List String) : Option Tree :=
  (db.find? name).bind fun t ↦ (t.root.revoke? path).map fun root ↦ { t with root }

/-- The same entry is found in a thinned database, or none in both. -/
theorem Thinned.without?_cases {db db' : Database} {gone : String → Prop} (h : Thinned gone db db')
    (name : String) (path : List String) :
    db.without? name path = none ∧ db'.without? name path = none ∨
      ∃ t t', db.without? name path = some t ∧ db'.without? name path = some t' ∧
        t'.root = t.root ∧ t.groups = db.memberships name ∧ t'.groups = db'.memberships name := by
  have hentry := h.entries name
  rw [without?, without?, Database.memberships, Database.memberships, treeOf, treeOf]
  generalize db.find? name = e, db'.find? name = e' at hentry ⊢
  cases hentry with
  | none => exact .inl ⟨rfl, rfl⟩
  | @dropped t root =>
    -- There is nothing to be found in an empty root.
    rw [Option.bind_some, Branch.revoke?_of_isEmpty root]
    exact .inl ⟨rfl, rfl⟩
  | @kept t t' root =>
    rw [Option.bind_some, Option.bind_some, root]
    cases t.root.revoke? path with
    | none => exact .inl ⟨rfl, rfl⟩
    | some r => exact .inr ⟨_, _, rfl, rfl, rfl, rfl, rfl⟩

end Database

namespace Service

variable {s s' t t' : Service} {gone : String → Prop} {α β : Type}

/-! ### Running in step -/

/-- Whether two runs give results, and these and the services that they leave are related. -/
def Paired (R : α → α → Service → Service → Prop) (x y : Except ServiceError α × Service) : Prop :=
  ∃ a b s' t', x = (.ok a, s') ∧ y = (.ok b, t') ∧ R a b s' t'

section Paired

variable {R : α → α → Service → Service → Prop} {Q : β → β → Service → Service → Prop}

theorem paired_pure {a b : α} (h : R a b s t) :
    Paired R (s.run (pure a)) (t.run (pure b)) :=
  ⟨a, b, s, t, rfl, rfl, h⟩

theorem Paired.mono {R' : α → α → Service → Service → Prop} {x y : Except ServiceError α × Service}
    (h : Paired R x y) (hle : ∀ a b s' t', R a b s' t' → R' a b s' t') : Paired R' x y := by
  obtain ⟨a, b, s', t', hx, hy, hr⟩ := h
  exact ⟨a, b, s', t', hx, hy, hle a b s' t' hr⟩

/-- **What is done one after the other** is done in step. -/
theorem Paired.bind {c c' : Call α} {f f' : α → Call β} (h : Paired R (s.run c) (t.run c'))
    (hf : ∀ a b s' t', R a b s' t' → Paired Q (s'.run (f a)) (t'.run (f' b))) :
    Paired Q (s.run (c >>= f)) (t.run (c' >>= f')) := by
  obtain ⟨a, b, s', t', hs, ht, hr⟩ := h
  rw [run_bind_of_ok hs, run_bind_of_ok ht]
  exact hf a b s' t' hr

theorem paired_get_bind {f f' : Service → Call β} (h : Paired Q (s.run (f s)) (t.run (f' t))) :
    Paired Q (s.run (get >>= f)) (t.run (get >>= f')) := by
  rwa [run_bind_of_ok s.run_get, run_bind_of_ok t.run_get]

/-- Runs in step leave results and services that are related. -/
theorem Paired.fst_snd {x y : Except ServiceError α × Service} (h : Paired R x y) :
    ∃ a b, x.1 = .ok a ∧ y.1 = .ok b ∧ R a b x.2 y.2 := by
  obtain ⟨a, b, s', t', rfl, rfl, hr⟩ := h
  exact ⟨a, b, rfl, rfl, hr⟩

theorem paired_audit_bind {f f' : Unit → Call β} {e e' : AuditEvent}
    (h : Paired Q ((s.heard e).run (f ())) ((t.heard e').run (f' ()))) :
    Paired Q (s.run (Call.audit e >>= f)) (t.run (Call.audit e' >>= f')) := by
  have hs : s.run (Call.audit e) = (.ok (), s.heard e) := rfl
  have ht : t.run (Call.audit e') = (.ok (), t.heard e') := rfl
  rwa [run_bind_of_ok hs, run_bind_of_ok ht]

end Paired

/-! ### Steps of one run -/

/-- **A removal** puts the tree without the entry in place. -/
theorem run_removeEntry_eq (s : Service) (acting target : String) (segments : List String)
    (resolved : String) :
    s.run (Call.removeEntry acting target segments resolved) =
      match s.db.without? target segments with
      | none => s.run (pure (.error (.notFound target resolved)))
      | some t => s.run (do
          modify ({ · with db := s.db.put target t })
          Call.audit (.removed acting target resolved)
          Call.persist
          return .ok (if t.isEmpty then .principalRemoved else .removed)) := by
  rw [Call.removeEntry, run_bind_of_ok s.run_get, Database.without?]
  cases hfind : s.db.find? target with
  | none =>
    simp only [hfind]
    rfl
  | some t =>
    simp only [hfind, Tree.revoke, Option.bind_some]
    cases t.root.revoke? segments with
    | none => rfl
    | some root =>
      simp only [Option.map_some, Database.put]
      cases ({ t with root } : Tree).isEmpty <;> rfl

/-- Where saving works, memberships are stored and saved, and the groups are looked up once more. -/
theorem CanSave.run_storeMemberships (h : s.CanSave) (target : String) (groups : List String) :
    let s₁ := ({ s with db := s.db.setMemberships target groups } : Service).saved
    s.run (Call.storeMemberships target groups) = (.ok (s₁.db.groupsOf s₁.groupSources target).groups,
      { s₁ with db := s₁.db.healed s₁.groupSources target }) := by
  intro s₁
  have hsave : ({ s with db := s.db.setMemberships target groups } : Service).run Call.persist =
      (.ok (), s₁) := CanSave.run_persist h
  rw [Call.storeMemberships, run_bind_of_ok (s.run_modify _), run_bind_of_ok hsave]
  rfl

/-! ### Lookups -/

/-- Whether two runs have given the same result and looked up the trees of a name. -/
def Read (s t : Service) (name : String) (a b : α) (s' t' : Service) : Prop :=
  b = a ∧ s' = s.afterRead name ∧ t' = t.afterRead name

namespace Beside

section Lookups

variable (h : Beside gone s t) (hlacks : t.db.Lacks gone)

include h hlacks

theorem paired_resolveGroups (name : String) :
    Paired (fun r r' s' t' ↦ r'.groups = r.groups ∧ r'.explicit = r.explicit ∧
        r = s.db.groupsOf s.groupSources name ∧ s' = s.afterLookup name ∧ t' = t.afterLookup name)
      (s.run (Call.resolveGroups name)) (t.run (Call.resolveGroups name)) := by
  have hs := (s.run_resolveGroups_cases name).resolve_right fun hnot ↦ hnot.1 h.canSave
  have ht := (t.run_resolveGroups_cases name).resolve_right fun hnot ↦ hnot.1 h.canSave_right
  obtain ⟨hgroups, hexplicit⟩ := h.groups_groupsOf hlacks name
  exact ⟨_, _, _, _, hs, ht, hgroups, hexplicit, rfl, rfl, rfl⟩

theorem paired_evaluate (path : List String) (name : String) :
    Paired (Read s t name) (s.run (Call.evaluate path name)) (t.run (Call.evaluate path name)) := by
  have hs := (run_evaluate_cases h.thinned.distinct path name).resolve_right
    fun hnot ↦ hnot.1 h.canSave
  have ht := (run_evaluate_cases h.thinned.distinct_right path name).resolve_right
    fun hnot ↦ hnot.1 h.canSave_right
  exact ⟨_, _, _, _, hs, ht, h.evaluation_eq hlacks path name, rfl, rfl⟩

theorem paired_alreadyAtLevel (target : String) (segments : List String) (g : Grade) :
    Paired (Read s t target) (s.run (Call.alreadyAtLevel target (s.rules.kindOf target) segments g))
      (t.run (Call.alreadyAtLevel target (s.rules.kindOf target) segments g)) := by
  refine (h.paired_evaluate hlacks segments target).bind fun e e' s' t' hread ↦ ?_
  obtain ⟨rfl, rfl, rfl⟩ := hread
  split
  · exact paired_pure ⟨rfl, rfl, rfl⟩
  · split <;> rename_i hkind
    · exact paired_pure ⟨rfl, rfl, rfl⟩
    · refine paired_get_bind (paired_pure ⟨?_, rfl, rfl⟩)
      -- The own tree of a group is asked, and that is the same in both.
      obtain ⟨h', -⟩ := h.afterRead hlacks target
      have hgroup : s.rules.isGroup target := by simpa [PrincipalRules.isGroup] using hkind
      rw [← (s.sameBut_afterRead target).rules_eq] at hgroup
      rw [h'.thinned.others target (h'.apart.joined target hgroup)]

end Lookups

/-! ### Changes -/

/-- **A change of both** that is recorded and saved. -/
theorem paired_change (h : Beside gone s t) {d d' : Database} {f f' : Service → Service}
    (hthinned : Database.Thinned gone d d') (hrules : d.rules = s.db.rules)
    (hf : f s = { s with db := d }) (hf' : f' t = { t with db := d' }) (e e' : AuditEvent) (a b : α) :
    Paired (fun a' b' s' t' ↦ a' = a ∧ b' = b ∧ s'.db = d ∧ t'.db = d' ∧ Beside gone s' t')
      (s.run (do modify f; Call.audit e; Call.persist; return a))
      (t.run (do modify f'; Call.audit e'; Call.persist; return b)) := by
  have hs := h.canSave.run_change hf e a
  have ht := h.canSave_right.run_change hf' e' b
  exact ⟨_, _, _, _, hs, ht, rfl, rfl, (s.sameBut_changed d e).db_eq, (t.sameBut_changed d' e').db_eq,
    h.changed hrules hthinned e e'⟩

section Grants

variable {acting target : String} {segments : List String}

/-- What becomes of a grant in both services: the same, or the entry that it removes is in the second all
that was left of the tree. -/
def Granted (gone : String → Prop) (target : String) (level : Level)
    (v v' : Except GrantRefusal GrantOutcome) (s' t' : Service) : Prop :=
  Beside gone s' t' ∧ (v' = v ∨
    level = none ∧ v = .ok .removed ∧ v' = .ok .principalRemoved ∧ s'.db.Hollow gone target)

theorem paired_removeEntry (h : Beside gone s t) (resolved : String) :
    Paired (Granted gone target none) (s.run (Call.removeEntry acting target segments resolved))
      (t.run (Call.removeEntry acting target segments resolved)) := by
  rw [run_removeEntry_eq, run_removeEntry_eq]
  rcases h.thinned.without?_cases target segments with ⟨hs, ht⟩ | ⟨u, u', hs, ht, hroot, hu, hu'⟩
  · rw [hs, ht]
    exact paired_pure ⟨h, .inl rfl⟩
  · rw [hs, ht]
    have hentry : ThinnedEntry gone u.occupied? u'.occupied? := .occupied? hroot (by
      rw [hu, hu']
      exact h.thinned.memberships target)
    refine (h.paired_change (h.thinned.put hroot hu hu') (s.db.rules_put target u) rfl rfl _ _ _ _).mono
      fun v v' s' t' hend ↦ ?_
    obtain ⟨rfl, rfl, hdb, -, h'⟩ := hend
    refine ⟨h', ?_⟩
    unfold Tree.occupied? at hentry
    by_cases hleft : u.isEmpty
    · rw [if_pos hleft] at hentry ⊢
      by_cases hright : u'.isEmpty
      · rw [if_pos hright]
        exact .inl rfl
      · rw [if_neg hright] at hentry
        cases hentry
    · rw [if_neg hleft] at hentry ⊢
      by_cases hright : u'.isEmpty
      · rw [if_pos hright] at hentry ⊢
        obtain _ | _ | ⟨root, groups⟩ := hentry
        refine .inr ⟨rfl, rfl, rfl, ?_⟩
        rw [hdb, Database.Hollow, Database.memberships, Database.put, if_neg hleft,
          Database.treeOf_set, if_pos rfl]
        exact ⟨root, groups⟩
      · rw [if_neg hright]
        exact .inl rfl

theorem paired_setEntry (h : Beside gone s t) (hlacks : t.db.Lacks gone) (hsegments : segments ≠ [])
    (resolved : String) (g : Grade) :
    Paired (Granted gone target (some g)) (s.run (Call.setEntry acting target segments resolved g))
      (t.run (Call.setEntry acting target segments resolved g)) := by
  refine paired_get_bind ?_
  rw [h.same.rules_eq]
  refine (h.paired_alreadyAtLevel hlacks target segments g).bind fun b b' s' t' hread ↦ ?_
  obtain ⟨rfl, hs', ht'⟩ := hread
  obtain ⟨h', -⟩ := h.afterRead hlacks target
  rw [← hs', ← ht'] at h'
  split
  · exact paired_pure ⟨h', .inl rfl⟩
  · have hcreated : (s.rules.kindOf target == .group && !t'.db.has target) =
        (s.rules.kindOf target == .group && !s'.db.has target) := by
      cases hkind : s.rules.kindOf target == .group with
      | false => rfl
      | true =>
        have hgroup : s'.rules.isGroup target := by
          rw [hs', (s.sameBut_afterRead target).rules_eq]
          exact hkind
        rw [h'.thinned.has_eq (h'.apart.joined target hgroup)]
    refine paired_get_bind ?_
    simp only [hcreated, h'.same.isArchwizard_eq, h'.same.rules_eq]
    split
    · exact paired_pure ⟨h', .inl rfl⟩
    · have hput : ∀ db : Database, db.put target ((db.treeOf target).grant segments g) =
          db.set target ((db.treeOf target).grant segments g) := fun db ↦
        if_neg (by simp [Tree.isEmpty_grant _ hsegments g])
      have hthinned : Database.Thinned gone
          (s'.db.put target ((s'.db.treeOf target).grant segments g))
          (t'.db.put target ((t'.db.treeOf target).grant segments g)) :=
        h'.thinned.put (congrArg (·.grant segments g) (h'.thinned.root_treeOf target)) rfl rfl
      rw [hput, hput] at hthinned
      refine (h'.paired_change hthinned rfl rfl rfl _ _ _ _).mono fun v v' s'' t'' hend ↦ ?_
      obtain ⟨rfl, rfl, -, -, h''⟩ := hend
      exact ⟨h'', .inl rfl⟩

theorem paired_grantAt (h : Beside gone s t) (hlacks : t.db.Lacks gone) (level : Level) :
    Paired (Granted gone target level) (s.run (Call.grantAt acting target segments level))
      (t.run (Call.grantAt acting target segments level)) := by
  rw [Call.grantAt]
  cases hproblem : grantPathProblem? segments with
  | some problem => exact paired_pure ⟨h, .inl rfl⟩
  | none =>
    have hsegments : segments ≠ [] := by
      rintro rfl
      cases hproblem
    refine paired_get_bind ?_
    simp only [h.same.rules_eq, h.same.playerExists_eq]
    split
    · exact paired_pure ⟨h, .inl rfl⟩
    · refine (h.paired_evaluate hlacks _ acting).bind fun e e' s' t' hread ↦ ?_
      obtain ⟨rfl, rfl, rfl⟩ := hread
      obtain ⟨h', hlacks'⟩ := h.afterRead hlacks acting
      split
      · exact paired_pure ⟨h', .inl rfl⟩
      · cases level with
        | none => exact h'.paired_removeEntry _
        | some g => exact h'.paired_setEntry hlacks' hsegments _ g

/-- **A grant.** -/
theorem paired_grant (h : Beside gone s t) (hlacks : t.db.Lacks gone) (path : Value) (level : Level)
    (cwd : Option String) :
    Paired (fun r r' s' t' ↦ Beside gone s' t' ∧ (r' = r ∨ ∃ path,
        r = ⟨target, path, none, .ok .removed⟩ ∧ r' = ⟨target, path, none, .ok .principalRemoved⟩ ∧
          s'.db.Hollow gone target))
      (s.run (Call.grant acting target path level cwd))
      (t.run (Call.grant acting target path level cwd)) := by
  refine paired_get_bind ?_
  rw [h.same.resolver_eq]
  cases s.resolver.resolve path (some acting) cwd level.isNone with
  | error e => exact paired_pure ⟨h, .inl rfl⟩
  | ok segments =>
    refine (h.paired_grantAt hlacks level).bind fun v v' s' t' hgranted ↦ paired_pure ?_
    obtain ⟨h', rfl | ⟨rfl, rfl, rfl, hhollow⟩⟩ := hgranted
    · exact ⟨h', .inl rfl⟩
    · exact ⟨h', .inr ⟨_, rfl, rfl, hhollow⟩⟩

end Grants

section Memberships

/-- Memberships that were stored are looked up alike. -/
theorem paired_storeMemberships (h : Beside gone s t) (target : String) {groups : List String}
    (hgroups : ∀ g ∈ groups, s.db.rules.isPlayer g = false) :
    Paired (fun l l' s' t' ↦ l' = l ∧ Beside gone s' t')
      (s.run (Call.storeMemberships target groups)) (t.run (Call.storeMemberships target groups)) := by
  have hthinned := h.thinned.setMemberships target hgroups
  let s₁ := ({ s with db := s.db.setMemberships target groups } : Service).saved
  let t₁ := ({ t with db := t.db.setMemberships target groups } : Service).saved
  have h₁ : Beside gone s₁ t₁ := h.of_sameBut ⟨_, _, rfl⟩ ⟨_, _, rfl⟩
    (canSave_saved_iff.2 h.canSave) (canSave_saved_iff.2 h.canSave_right)
    (s.db.rules_setMemberships target groups) hthinned
  -- The same memberships are stored now, and whose group has a tree is the same.
  have hstored : s₁.db.memberships target = groups ∧ t₁.db.memberships target = groups := by
    constructor
    · exact (h.thinned.distinct.memberships_setMemberships target target groups).trans (if_pos rfl)
    · exact (h.thinned.distinct_right.memberships_setMemberships target target groups).trans
        (if_pos rfl)
  have hsame : t₁.db.groupsOf t₁.groupSources target = s₁.db.groupsOf s₁.groupSources target := by
    rw [h₁.same.groupSources_eq]
    refine Database.groupsOf_congr h₁.thinned.rules (hstored.2.trans hstored.1.symm) fun g hg ↦ ?_
    refine h₁.thinned.has_eq ?_
    rcases List.mem_append.1 hg with hmember | hderived
    · exact h₁.thinned.groups target g hmember
    · exact h₁.apart.derivedGroups target g hderived
  refine ⟨_, _, _, _, h.canSave.run_storeMemberships target groups,
    h.canSave_right.run_storeMemberships target groups, congrArg _ hsame, ?_⟩
  refine h₁.of_sameBut ⟨_, _, rfl⟩ ⟨_, _, rfl⟩ h₁.canSave h₁.canSave_right
    (s₁.db.rules_healed s₁.groupSources target) ?_
  rw [h₁.same.groupSources_eq] at hsame ⊢
  exact h₁.thinned.healed_of_groupsOf_eq hsame

/-- Whether there is a reason against a change of membership is the same. -/
theorem membershipProblem?_eq (h : Beside gone s t) {r r' : GroupResolution}
    (hgroups : r'.groups = r.groups) (hexplicit : r'.explicit = r.explicit)
    (acting target group : String) :
    Call.joiningProblem? t r' acting target group = Call.joiningProblem? s r acting target group ∧
      Call.leavingProblem? t r' target group = Call.leavingProblem? s r target group := by
  have hhas : (!s.rules.isGroup group || !t.db.has group) =
      (!s.rules.isGroup group || !s.db.has group) := by
    cases hgroup : s.rules.isGroup group with
    | false => rfl
    | true => rw [h.thinned.has_eq (h.apart.joined group hgroup)]
  unfold Call.joiningProblem? Call.leavingProblem?
  rw [hgroups, hexplicit, h.same.rules_eq, hhas, h.same.isArchwizard_eq, h.same.privilegeOf_eq,
    h.same.tiers_eq]
  exact ⟨rfl, rfl⟩

/-- **A change of membership.** -/
theorem paired_changeMembership (h : Beside gone s t) (hlacks : t.db.Lacks gone)
    (acting target group : String) (add : Bool) :
    Paired (fun r r' s' t' ↦ r' = r ∧ Beside gone s' t')
      (s.run (Call.changeMembership acting target group add))
      (t.run (Call.changeMembership acting target group add)) := by
  refine paired_get_bind ?_
  rw [h.same.rules_eq]
  split
  · exact paired_pure ⟨rfl, h⟩
  · refine (h.paired_resolveGroups hlacks target).bind fun r r' s' t' hread ↦ ?_
    obtain ⟨hgroups, hexplicit, hr, hs', ht'⟩ := hread
    obtain ⟨h', -⟩ := h.afterLookup hlacks target
    rw [← hs', ← ht'] at h'
    obtain ⟨hjoining, hleaving⟩ := h'.membershipProblem?_eq hgroups hexplicit acting target group
    refine paired_get_bind ?_
    simp only [hjoining, hleaving, hexplicit]
    split <;> rename_i hproblem
    · exact paired_pure ⟨rfl, h'⟩
    · refine (h'.paired_storeMemberships target ?_).bind fun l l' s'' t'' hstored ↦ paired_pure ?_
      · -- Who is or becomes a member is one of a group.
        have hkept : ∀ g ∈ r.explicit, s'.db.rules.isPlayer g = false := by
          intro g hg
          rw [hs', (s.sameBut_afterLookup target).db_eq, Database.rules_healed]
          rw [hr] at hg
          exact h.thinned.groups target g ((s.db.explicit_sublist_memberships _ target).subset hg)
        cases add with
        | false => exact fun g hg ↦ hkept g (List.mem_of_mem_filter hg)
        | true =>
          obtain ⟨-, hgroup, -⟩ := of_joiningProblem?_eq_none hproblem
          intro g hg
          rcases List.mem_append.1 hg with hold | hnew
          · exact hkept g hold
          · obtain rfl := List.mem_singleton.1 hnew
            exact h'.apart.joined g hgroup
      · exact ⟨by rw [hstored.1], hstored.2⟩

end Memberships

/-- An entry that the second service does not have may be removed from the first. -/
theorem changed_remove_left (h : Beside gone s t) {target : String}
    (hnone : t.db.find? target = none) (e : AuditEvent) :
    Beside gone (s.changed (s.db.remove target) e) t := by
  have hchanged := s.sameBut_changed (s.db.remove target) e
  have hrules : (s.changed (s.db.remove target) e).db.rules = s.db.rules := by
    rw [hchanged.db_eq]
    rfl
  refine h.of_sameBut hchanged.self (.refl t) (canSave_changed_iff.2 h.canSave) h.canSave_right
    hrules ?_
  rw [hchanged.db_eq]
  exact h.thinned.remove_left hnone

/-- **A reset.** -/
theorem paired_reset (h : Beside gone s t) (acting target : String) :
    Paired (fun r r' s' t' ↦ Beside gone s' t' ∧
        (r' = r ∨ r' = ⟨target, .error (.notFound target)⟩ ∧ s.db.Hollow gone target))
      (s.run (Call.reset acting target)) (t.run (Call.reset acting target)) := by
  have hproblem : Call.resetProblem? t acting target = Call.resetProblem? s acting target := by
    simp only [Call.resetProblem?, h.same.isArchwizard_eq, h.same.privilegeOf_eq, h.same.rules_eq]
  refine paired_get_bind ?_
  rw [hproblem]
  have hentry := h.thinned.entries target
  generalize hs : s.db.find? target = e, ht : t.db.find? target = e' at hentry
  cases hentry with
  | none => exact paired_pure ⟨h, .inl rfl⟩
  | @dropped u root groups =>
    have hhollow : s.db.Hollow gone target := by
      rw [Database.Hollow, Database.memberships, s.db.treeOf_of_find? hs]
      exact ⟨root, groups⟩
    dsimp only
    cases Call.resetProblem? s acting target with
    | some refusal => exact paired_pure ⟨h, .inr ⟨rfl, hhollow⟩⟩
    | none =>
      -- The default keeps its entry, since it is no player.
      have hother : (target == defaultPrincipal) = false := by
        rw [beq_eq_false_iff_ne]
        rintro rfl
        have hsame := h.thinned.others defaultPrincipal h.apart.default
        rw [hs, ht] at hsame
        cases hsame
      simp only [hother, Bool.false_eq_true, if_false]
      exact ⟨_, _, _, _, h.canSave.run_change rfl _ _, rfl, h.changed_remove_left ht _,
        .inr ⟨rfl, hhollow⟩⟩
  | @kept u u' root groups occupied =>
    dsimp only
    cases Call.resetProblem? s acting target with
    | some refusal => exact paired_pure ⟨h, .inl rfl⟩
    | none =>
      have hthinned : Database.Thinned gone
          (if target == defaultPrincipal then s.db.resetDefault else s.db.remove target)
          (if target == defaultPrincipal then t.db.resetDefault else t.db.remove target) := by
        split
        · exact h.thinned.resetDefault
        · exact h.thinned.remove target
      have hrules : (if target == defaultPrincipal then s.db.resetDefault
          else s.db.remove target).rules = s.db.rules := by
        split <;> rfl
      refine (h.paired_change hthinned hrules rfl rfl _ _ _ _).mono fun r r' s' t' hend ↦ ?_
      obtain ⟨rfl, rfl, -, -, h'⟩ := hend
      exact ⟨h', .inl rfl⟩

end Beside

end Service

end PathAccess
