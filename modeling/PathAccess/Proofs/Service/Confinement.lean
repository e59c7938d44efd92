import PathAccess.Proofs.Principal
import PathAccess.Proofs.Service.Evaluation
import PathAccess.Proofs.Service.Homes
/-!
# Ordinary players are confined to their homes

Players without rank, affiliations and admin rights start out with full access to their own home, by
a rule, and with nothing anywhere else that may be handed out. This module shows that they cannot get
out: whatever requests they make, in whatever order, the level of every principal at every path
outside their homes is what it was in the seeded database, with the same source
(`effectiveLevel_after`).

The invariant of the database (`Confined`) settles what an actor may do in any state of the run. Its
own tree and the default tree give it outside the homes what the seeded default does, which nobody may
hand out (`canGrant_evaluation`). So a grant or a removal that is not refused is at or below a home,
and keeps the invariant.

Nothing is asked of the store. A database that could not be saved is in use all the same.
-/

namespace PathAccess

/-! ### Levels and names -/

/-- Whoever may hand out something at a path holds a granting level there. -/
theorem Level.canGrant_of_mayGrant {actor requested : Level} (h : mayGrant actor requested) :
    canGrant actor := by
  match requested with
  | none | some .revoked | some .read => exact h
  | some .grantRead | some .write =>
    rcases Bool.or_eq_true_iff.1 h with h | h <;> simp [canGrant, eq_of_beq h]
  | some .grantWrite | some .grant => simp [canGrant, eq_of_beq h]

/-- Affiliations come with groups, whatever their names are. -/
theorem isGroup_groupForAffiliation (affiliation : String) :
    PrincipalRules.isGroup {} (PrincipalRules.groupForAffiliation {} affiliation) := by
  change PrincipalRules.isGroup {} ("Arch_" ++ affiliation)
  have hlist : ("Arch_" ++ affiliation).toList = 'A' :: ("rch_".toList ++ affiliation.toList) := by
    rw [String.toList_append]
    rfl
  have hhead : ∀ name : String, name.toList.head? ≠ some 'A' → "Arch_" ++ affiliation ≠ name := by
    rintro name hname rfl
    rw [hlist] at hname
    exact hname rfl
  have hfake : PrincipalRules.isFake {} ("Arch_" ++ affiliation) = false := by
    have hdefault := hhead "*" (by decide)
    have hbackbone := hhead "backbone" (by decide)
    have hroot := hhead "root" (by decide)
    simp [PrincipalRules.isFake, defaultPrincipal, hdefault, hbackbone, hroot]
  have hgroup : isGroupName ("Arch_" ++ affiliation) := isGroupName_append (by decide) affiliation
  simp [PrincipalRules.isGroup, PrincipalRules.kindOf, hfake, hgroup]

namespace Service

/-! ### Players -/

/-- A player that nothing but the rules about homes entitles to anything. -/
structure Unprivileged (s : Service) (name : String) : Prop where
  /-- It is a player. -/
  player : s.rules.isPlayer name
  /-- It is no admin. -/
  notAdmin : s.rules.isAdmin name = false
  /-- Its privilege level is below those that come with a group. -/
  rank : s.privilegeOf name < s.tiers.juniorArchLevel
  /-- It has no affiliations. -/
  unaffiliated : (s.affiliations.map (·.affiliationsOf name)).getD [] = []

/-- A service with the seeded database and the rules, tiers and directories that are the default. -/
structure Fresh (s : Service) : Prop where
  /-- The database is that of a first run. -/
  db : s.db = Database.seeded {}
  /-- The rules for names are the default. -/
  rules : s.rules = {}
  /-- The tiers are the default. -/
  tiers : s.tiers = {}
  /-- The well-known directories are the default. -/
  layout : s.layout = {}

/-! ### The states of a run -/

variable {actors : String → Prop}

/-- A state of a run: the invariant, and what the service is set up with. -/
structure ConfinedTo (s : Service) (actors : String → Prop) : Prop where
  /-- The rules for names are the default. -/
  rules : s.rules = {}
  /-- The tiers are the default. -/
  tiers : s.tiers = {}
  /-- The well-known directories are the default. -/
  layout : s.layout = {}
  /-- Who acts has no privileges. -/
  unprivileged : ∀ a, actors a → s.Unprivileged a
  /-- The database is as the invariant says. -/
  db : Confined actors s.db

theorem Fresh.confinedTo {s : Service} (h : s.Fresh) (hactors : ∀ a, actors a → s.Unprivileged a) :
    s.ConfinedTo actors :=
  ⟨h.rules, h.tiers, h.layout, hactors, h.db ▸ confined_seeded⟩

theorem ConfinedTo.of_sameBut {s s' : Service} {db : Database} (h : s.ConfinedTo actors)
    (hs : s.SameBut db s') (hdb : Confined actors db) : s'.ConfinedTo actors := by
  obtain ⟨store, events, rfl⟩ := hs
  exact ⟨h.rules, h.tiers, h.layout, fun a ha ↦
    let ⟨player, notAdmin, rank, unaffiliated⟩ := h.unprivileged a ha
    ⟨player, notAdmin, rank, unaffiliated⟩, hdb⟩

section ConfinedTo

variable {s : Service} (h : s.ConfinedTo actors)

include h

/-- Nothing is ever stale. -/
theorem ConfinedTo.pruned (name : String) :
    (s.db.groupsOf s.groupSources name).pruned = [] :=
  Database.pruned_groupsOf_of_memberships_eq_nil _ (h.db.unjoined name)

theorem ConfinedTo.explicit (name : String) :
    (s.db.groupsOf s.groupSources name).explicit = [] :=
  Database.explicit_groupsOf_of_memberships_eq_nil _ (h.db.unjoined name)

variable {a : String} (ha : actors a)

include ha

theorem ConfinedTo.isArchwizard_actor : s.isArchwizard a = false := by
  have hrank := (h.unprivileged a ha).rank
  rw [h.tiers] at hrank
  change s.privilegeOf a < 40 at hrank
  rw [isArchwizard, h.tiers, TierPolicy.isArchwizard]
  simpa using show s.privilegeOf a < 45 by omega

/-- Who acts belongs to no group. -/
theorem ConfinedTo.groups_actor : (s.db.groupsOf s.groupSources a).groups = [] := by
  have hderived : s.db.derivedGroups s.groupSources a = [] := by
    have hrank := (h.unprivileged a ha).rank
    have haffiliated := (h.unprivileged a ha).unaffiliated
    rw [h.tiers] at hrank
    rw [Database.derivedGroups, groupSources, haffiliated, h.tiers]
    cases hidentity : s.identity with
    | none => rfl
    | some d =>
      have hlevel : d.levelOf a < 40 := by simpa [privilegeOf, hidentity] using hrank
      have hgroup : TierPolicy.group? {} (d.levelOf a) = none := by
        have harch : ¬(45 : Int) ≤ d.levelOf a := by omega
        have hjunior : ¬(40 : Int) ≤ d.levelOf a := by omega
        simp [TierPolicy.group?, TierPolicy.isArchwizard, harch, hjunior]
      simp [hgroup]
  rw [Database.groupsOf]
  split
  · rfl
  · rw [h.db.unjoined a, hderived]
    rfl

/-- A player has no tree at first, and none that says anything outside the homes later. -/
theorem ConfinedTo.levelOf_actor {path : List String} (hpath : Outside actors path) :
    s.levelOf path a = none := by
  rw [levelOf, h.db.level a path hpath, Database.treeOf]
  cases hf : (Database.seeded {}).find? a with
  | none => exact Tree.levelAt_of_isEmpty rfl path
  | some t =>
    have hplayer : PrincipalRules.isPlayer {} a = true := h.rules ▸ (h.unprivileged a ha).player
    rw [(Database.seeded_names _ (Entries.mem_of_find? hf)).1] at hplayer
    exact absurd hplayer Bool.false_ne_true

/-- Who acts is no system name, and its own tree and the default are all that applies to it. -/
theorem ConfinedTo.priority_actor : s.priority a = [a, defaultPrincipal] := by
  have hplayer : PrincipalRules.isPlayer {} a = true := h.rules ▸ (h.unprivileged a ha).player
  have hne : (a == defaultPrincipal) = false := by
    rw [beq_eq_false_iff_ne]
    rintro rfl
    revert hplayer
    decide
  rw [priority, hne, h.groups_actor ha]
  rfl

/-- The rules about homes give reading at most, outside the homes of who acts. -/
theorem ConfinedTo.ruled?_actor {path : List String} (hpath : Outside actors path) {g : Grade}
    (hruled : s.homes.ruled? path a = some g) : g = .read := by
  have hhomes : s.homes = {} := by rw [homes, h.layout]
  rw [hhomes] at hruled
  match path, hruled with
  | first :: second :: rest, hruled =>
    rw [Homes.ruled?] at hruled
    split at hruled
    · exact nomatch hruled
    · rename_i hroot
      split at hruled <;> rename_i hname
      · -- The rule that gives full access is the one for the homes of `a` itself.
        obtain rfl := eq_of_beq hname
        refine absurd ?_ (hpath _ ha)
        have hfirst : first = "d" ∨ first = "players" :=
          Decidable.or_iff_not_imp_left.2 (by simpa using hroot)
        rcases hfirst with rfl | rfl
        · exact Or.inl ⟨rest, rfl⟩
        · exact Or.inr ⟨rest, rfl⟩
      · split at hruled
        · exact (Option.some.inj hruled).symm
        · exact nomatch hruled

/-- **Who acts holds nothing outside the homes that may be handed out.** -/
theorem ConfinedTo.canGrant_evaluation {path : List String} (hpath : Outside actors path) :
    Level.canGrant (s.evaluation path a).level = false := by
  rcases level_evaluateFor s.homes (s.treesOf a).1 path a (s.treesOf a).2 with
    hlevel | ⟨g, hruled, hlevel⟩
  · have hdefault : Option.all (fun g ↦ !Level.canGrant (some g))
        (s.levelOf path defaultPrincipal) := by
      rw [levelOf, h.db.level _ path hpath]
      have hschema : Tree.defaultSchema.root.toNode.allGrades fun g ↦ !Level.canGrant (some g) := by
        decide
      exact Tree.levelAt_all hschema path
    rw [evaluation, hlevel, verdicts_treesOf, h.priority_actor ha]
    cases hl : s.levelOf path defaultPrincipal with
    | none => simp [h.levelOf_actor ha hpath, hl, Level.canGrant]
    | some g => simpa [h.levelOf_actor ha hpath, hl] using hdefault
  · rw [evaluation, hlevel, h.ruled?_actor ha hpath hruled]
    rfl

/-- **No change of membership is carried out.** Nobody has a stored membership that could be removed,
and all groups are built in. -/
theorem ConfinedTo.run_changeMembership (target group : String) (add : Bool) :
    (s.run (Call.changeMembership a target group add)).2 = s := by
  refine Service.run_changeMembership (h.pruned target) ?_
  cases add with
  | false =>
    rw [if_neg Bool.false_ne_true, Call.leavingProblem?, h.explicit target]
    split
    · rfl
    · split <;> rfl
  | true =>
    rw [if_pos rfl, Call.joiningProblem?]
    split
    · rfl
    · split <;> rename_i hgroup
      · rfl
      · simp only [Bool.or_eq_true, Bool.not_eq_true', not_or, Bool.not_eq_false] at hgroup
        obtain ⟨hkind, hhas⟩ := hgroup
        rw [h.rules] at hkind
        -- A group that is there is one of the first run, and those are for archwizards to fill.
        have hseeded : (Database.seeded {}).has group := by rwa [← h.db.groups group hkind]
        have hstatic : PrincipalRules.isStaticGroup {} group :=
          Database.of_has (P := fun name _ ↦ PrincipalRules.isGroup {} name →
            PrincipalRules.isStaticGroup {} name)
            (fun e he ↦ (Database.seeded_names e he).2) hseeded hkind
        simp [h.rules, hstatic, h.isArchwizard_actor ha]

/-- **No reset is carried out.** -/
theorem ConfinedTo.run_reset (target : String) : (s.run (Call.reset a target)).2 = s := by
  refine Service.run_reset ?_
  rw [Call.resetProblem?, h.isArchwizard_actor ha, (h.unprivileged a ha).notAdmin]
  split
  · rfl
  · cases s.rules.kindOf target <;> rfl

/-- **A grant is carried out at or below a home only**, and keeps the invariant. -/
theorem ConfinedTo.run_grant (target : String) (path : Value) (level : Level)
    (cwd : Option String) :
    ∃ db, s.SameBut db (s.run (Call.grant a target path level cwd)).2 ∧ Confined actors db := by
  obtain ⟨db, hsame, rfl | ⟨segments, hedited, hproblem, hentitled, hgroup⟩⟩ :=
    Service.run_grant (h.pruned target) (h.pruned a) path level cwd
  · exact ⟨s.db, hsame, h.db⟩
  · refine ⟨db, hsame, ?_⟩
    have hmay : Level.mayGrant (s.evaluation (segments.filter (· != ownKey)) a).level level := by
      refine hentitled.resolve_right ?_
      rw [(h.unprivileged a ha).notAdmin]
      exact Bool.false_ne_true
    -- The home may be another actor's, who shared it with `a`.
    have hhome : ∃ b, actors b ∧ AtHome b (segments.filter (· != ownKey)) := by
      by_cases houtside : Outside actors (segments.filter (· != ownKey))
      · exact absurd (Level.canGrant_of_mayGrant hmay)
          (by rw [h.canGrant_evaluation ha houtside]; exact Bool.false_ne_true)
      · simpa [Outside, Classical.not_forall] using houtside
    obtain ⟨b, hb, hhome⟩ := hhome
    obtain ⟨init, last, rfl, hinit, -⟩ := exists_of_grantPathProblem?_eq_none hproblem
    have hname : b ≠ restKey := by
      rintro rfl
      have hplayer : PrincipalRules.isPlayer {} restKey = true :=
        h.rules ▸ (h.unprivileged _ hb).player
      revert hplayer
      decide
    refine h.db.edited hedited hproblem hb (hhome.editBase hname hinit) fun hkind ↦ ?_
    refine (hgroup (by rwa [h.rules])).resolve_right ?_
    rw [MayMakeGroups, h.isArchwizard_actor ha, (h.unprivileged a ha).notAdmin]
    simp

end ConfinedTo

/-- **Every request keeps the invariant.** -/
theorem ConfinedTo.perform {s : Service} (h : s.ConfinedTo actors) {r : Request}
    (hr : ∀ a ∈ r.acting?, actors a) :
    ∃ db, s.SameBut db (r.perform s) ∧ Confined actors db := by
  cases r with
  | grant acting target path level cwd => exact h.run_grant (hr acting rfl) target path level cwd
  | changeMembership acting target group add =>
    rw [Request.perform, h.run_changeMembership (hr acting rfl)]
    exact ⟨s.db, .refl s, h.db⟩
  | reset acting target =>
    rw [Request.perform, h.run_reset (hr acting rfl)]
    exact ⟨s.db, .refl s, h.db⟩
  | check | effectiveLevel | groupsOf | canonicalPath | list =>
    exact ⟨s.db, Request.sameBut_perform_of_acting?_eq_none rfl h.pruned, h.db⟩

/-- **The invariant holds in every state of a run.** -/
theorem ConfinedTo.after {s : Service} (h : s.ConfinedTo actors) {requests : List Request}
    (hrequests : ∀ r ∈ requests, ∀ a ∈ r.acting?, actors a) :
    s.SameBut (s.after requests).db (s.after requests) ∧ (s.after requests).ConfinedTo actors := by
  refine after_induction (P := fun s' ↦ s.SameBut s'.db s' ∧ s'.ConfinedTo actors) ⟨.refl s, h⟩ ?_
  rintro s' ⟨hsame, hs'⟩ r hr
  obtain ⟨db, hsame', hdb⟩ := hs'.perform (hrequests r hr)
  refine ⟨?_, hs'.of_sameBut hsame' hdb⟩
  rw [hsame'.db_eq]
  exact hsame.trans hsame'

/-- Only groups come with tiers and affiliations. -/
theorem isGroup_of_mem_derivedGroups {db : Database} (hdb : db.rules = {}) {sources : GroupSources}
    (htiers : sources.tiers = {}) {name group : String}
    (h : group ∈ db.derivedGroups sources name) : PrincipalRules.isGroup {} group := by
  rcases Database.of_mem_derivedGroups h with rfl | rfl | ⟨affiliation, rfl⟩
  · rw [htiers]
    decide
  · rw [htiers]
    decide
  · rw [hdb]
    exact isGroup_groupForAffiliation affiliation

/-- **In all states of a run the same names apply to a principal.** -/
theorem ConfinedTo.priority_eq {s s' : Service} (h : s.ConfinedTo actors)
    (h' : s'.ConfinedTo actors) (hsame : s.SameBut s'.db s') (name : String) :
    s'.priority name = s.priority name := by
  have hgroups : s'.db.groupsOf s.groupSources name = s.db.groupsOf s.groupSources name := by
    refine Database.groupsOf_congr (h'.db.rules.trans h.db.rules.symm)
      ((h'.db.unjoined name).trans (h.db.unjoined name).symm) fun group hgroup ↦ ?_
    rw [h.db.unjoined name, List.nil_append] at hgroup
    have hkind := isGroup_of_mem_derivedGroups h.db.rules h.tiers hgroup
    rw [h'.db.groups group hkind, h.db.groups group hkind]
  rw [priority, priority, hsame.groupSources_eq, hgroups]

/-- **In all states of a run every principal has the same level outside the homes**, from the same
source. -/
theorem ConfinedTo.evaluation_eq {s s' : Service} (h : s.ConfinedTo actors)
    (h' : s'.ConfinedTo actors) (hsame : s.SameBut s'.db s') {path : List String}
    (hpath : Outside actors path) (name : String) :
    s'.evaluation path name = s.evaluation path name := by
  refine evaluation_congr ?_ (h.priority_eq h' hsame name) fun n ↦ ?_
  · rw [homes, homes, h.layout, h'.layout]
  · rw [levelOf, levelOf, h'.db.level n path hpath, h.db.level n path hpath]

/-- **Ordinary players are confined to their homes.** A run starts from the seeded database with the
default rules, tiers and directories. Everyone on whose behalf something is to change is a player of
no rank, without affiliations and no admin. Then every principal has at every path that is not at or
below a home of theirs the level that it had at the start, from the same source. -/
theorem effectiveLevel_after {s : Service} (hs : s.Fresh) {actors : String → Prop}
    (hactors : ∀ a, actors a → s.Unprivileged a) {requests : List Request}
    (hrequests : ∀ r ∈ requests, ∀ a ∈ r.acting?, actors a) {path : Value} {principal : String}
    {cwd : Option String} {segments : List String}
    (hpath : s.resolver.resolve path (some principal) cwd false = .ok segments)
    (houtside : ∀ a, actors a → ¬["d", a] <+: segments ∧ ¬["players", a] <+: segments) :
    ∃ e : Evaluation,
      (s.run (Call.effectiveLevel path principal cwd)).1 = .ok e ∧
      ((s.after requests).run (Call.effectiveLevel path principal cwd)).1 = .ok e := by
  have hconfined : s.ConfinedTo actors := hs.confinedTo hactors
  obtain ⟨hsame, hafter⟩ := hconfined.after hrequests
  have hresolver : (s.after requests).resolver = s.resolver := by
    obtain ⟨store, events, heq⟩ := hsame
    rw [heq]
    rfl
  have hsegments : Outside actors segments := fun a ha ↦ not_or.2 (houtside a ha)
  refine ⟨s.evaluation segments principal, ?_, ?_⟩
  · rw [run_effectiveLevel (hconfined.pruned principal), hpath]
  · rw [run_effectiveLevel (hafter.pruned principal), hresolver, hpath]
    exact congrArg Except.ok (hconfined.evaluation_eq hafter hsame hsegments principal)

/-- A player hands out access to its home and tries to do so outside it. A third principal sees what
it saw before. -/
theorem effectiveLevel_after_alice :
    let s : Service :=
      { db := .seeded {}, identity := some { players := [("alice", {}), ("bob", {})] } }
    let requests : List Request := [
      .grant "alice" "bob" (.text "/players/alice/work") (some .grant) none,
      .grant "alice" "Arch_junior" (.text "/players/alice") (some .revoked) none,
      .grant "alice" "alice" (.text "/players") (some .grant) none,
      .changeMembership "alice" "alice" "Arch_full" true,
      .reset "alice" "*"]
    (s.after requests).db.has "bob" ∧
    ∃ e : Evaluation,
      (s.run (Call.effectiveLevel (.text "/players/bob/work") "carol" none)).1 = .ok e ∧
      ((s.after requests).run
        (Call.effectiveLevel (.text "/players/bob/work") "carol" none)).1 = .ok e := by
  intro s requests
  have hactors : ∀ a, a = "alice" → s.Unprivileged a := by
    rintro a rfl
    exact ⟨by decide, by decide, by decide, by decide⟩
  have hrequests : ∀ r ∈ requests, ∀ a ∈ r.acting?, a = "alice" := by
    simp [requests, Request.acting?]
  have houtside : ∀ a, a = "alice" → ¬["d", a] <+: ["players", "bob", "work"] ∧
      ¬["players", a] <+: ["players", "bob", "work"] := by
    rintro a rfl
    decide
  have hpath : s.resolver.resolve (.text "/players/bob/work") (some "carol") none false =
      .ok ["players", "bob", "work"] :=
    congrArg Except.ok (by decide)
  refine ⟨?_, effectiveLevel_after ⟨rfl, rfl, rfl, rfl⟩ hactors hrequests hpath houtside⟩
  decide +kernel

end Service

end PathAccess
