import PathAccess.Proofs.Service.GroupLookup
import PathAccess.Proofs.Service.Paired
import PathAccess.Proofs.Service.Reachability
/-!
# Joining a group and leaving it again

A player who joins a group has it after the groups joined before, and before those that come with tier and
affiliations. Who leaves it right after has everything back as it was: the entry that was made for the
membership goes with it, and one that was there before is not empty without it (`leaving_undoes_joining`). That
no reachable database has an empty entry is what carries this.

Only the rank that comes with a built-in group keeps a player in it. The empty name is no player that has
groups, though a membership can be stored under it, and there stays (`nameless_player_cannot_leave`).
-/

namespace PathAccess

namespace Database

variable {db : Database} {s : GroupSources} {name : String}

/-- Where nothing is stale, the stored memberships are all left. -/
theorem explicit_groupsOf_of_forall_has (hne : name ≠ "") (hplayer : db.rules.isPlayer name)
    (h : ∀ g ∈ db.memberships name, db.has g) :
    (db.groupsOf s name).explicit = db.memberships name := by
  rw [groupsOf_of_player hne hplayer]
  exact List.filter_eq_self.2 h

/-- A player's groups after memberships in groups that have a tree were stored. -/
theorem Distinct.explicit_groupsOf_setMemberships (hdb : db.Distinct) (hne : name ≠ "")
    (hplayer : db.rules.isPlayer name) {groups : List String} (h : ∀ g ∈ groups, db.has g) :
    ((db.setMemberships name groups).groupsOf s name).explicit = groups := by
  have hstored : (db.setMemberships name groups).memberships name = groups := by
    rw [hdb.memberships_setMemberships, if_pos rfl]
  rw [explicit_groupsOf_of_forall_has hne (by rwa [rules_setMemberships]), hstored]
  rw [hstored]
  exact fun g hg ↦ hdb.has_setMemberships_of_mem name hg (h g hg)

end Database

namespace Service

variable {s s' : Service} {acting target group : String}

/-- Memberships in groups that have a tree are stored and saved. Nothing is stale then, and so nothing else is
changed. -/
theorem CanSave.run_storeMemberships_of_has (h : s.CanSave) (hdb : s.db.Distinct) {groups : List String}
    (hhas : ∀ g ∈ groups, s.db.has g) :
    s.run (Call.storeMemberships target groups) =
      (.ok ((s.db.setMemberships target groups).groupsOf s.groupSources target).groups,
        ({ s with db := s.db.setMemberships target groups } : Service).saved) := by
  have hpruned : ((s.db.setMemberships target groups).groupsOf s.groupSources target).pruned = [] :=
    hdb.pruned_groupsOf_setMemberships s.groupSources hhas
  have hhealed : (s.db.setMemberships target groups).healed s.groupSources target =
      s.db.setMemberships target groups := by
    rw [Database.healed_eq, if_pos hpruned]
  refine (h.run_storeMemberships target groups).trans ?_
  refine congrArg (Prod.mk _) ?_
  exact congrArg (fun db ↦ { ({ s with db := s.db.setMemberships target groups } : Service).saved with db })
    hhealed

variable (acting group) in
/-- **A change of membership where nothing is stale** is refused and leaves everything as it is, or the changed
memberships are stored and saved. -/
theorem CanSave.run_changeMembership (hsave : s.CanSave) (hdb : s.db.Distinct)
    (hplayer : s.rules.isPlayer target) (hpruned : (s.db.groupsOf s.groupSources target).pruned = [])
    (add : Bool) :
    s.run (Call.changeMembership acting target group add) =
      let r := s.db.groupsOf s.groupSources target
      match if add then Call.joiningProblem? s r acting target group
        else Call.leavingProblem? s r target group with
      | some refusal => (.ok { target, group, verdict := .error refusal }, s)
      | none =>
        let db := s.db.setMemberships target
          (if add then r.explicit ++ [group] else r.explicit.filter (· != group))
        (.ok { target, group, verdict := .ok (if add then .added else .removed)
               groups := (db.groupsOf s.groupSources target).groups },
          ({ s with db } : Service).saved) := by
  have hkind : (s.rules.kindOf target != .player) = false := by
    simpa [PrincipalRules.isPlayer] using hplayer
  have hhealed : s.db.healed s.groupSources target = s.db := by rw [Database.healed_eq, if_pos hpruned]
  rw [Call.changeMembership, run_bind_of_ok s.run_get, hkind]
  simp only [Bool.false_eq_true, if_false]
  rw [run_bind_of_ok (run_resolveGroups hpruned), run_bind_of_ok s.run_get]
  cases hproblem : if add then Call.joiningProblem? s (s.db.groupsOf s.groupSources target) acting target group
    else Call.leavingProblem? s (s.db.groupsOf s.groupSources target) target group with
  | some refusal => rfl
  | none =>
    have hhas := has_of_membershipProblem?_eq_none hdb (by rw [hhealed]; exact hproblem)
    rw [hhealed] at hhas
    dsimp only
    rw [run_bind_of_ok (hsave.run_storeMemberships_of_has hdb hhas)]
    rfl

/-- Only rank keeps a player in a group that was joined explicitly. -/
theorem leavingProblem?_of_mem_explicit {r : GroupResolution} (hmem : group ∈ r.groups)
    (hexplicit : group ∈ r.explicit) :
    Call.leavingProblem? s r target group =
      if s.rules.isStaticGroup group ∧ s.tiers.juniorArchLevel ≤ s.privilegeOf target then
        some (.boundByRank target group)
      else none := by
  simp [Call.leavingProblem?, hmem, hexplicit]

variable (s target group) in
/-- The service after a player has joined a group. -/
def joined : Service :=
  let db := s.db.setMemberships target (s.db.memberships target ++ [group])
  ({ s with db } : Service).saved

/-- **Who was added to a group** was not in it, and the group has a tree. -/
theorem of_run_changeMembership_eq_added (hsave : s.CanSave) (hdb : s.db.Distinct)
    (hrules : s.db.rules = s.rules) (hne : target ≠ "") (hplayer : s.rules.isPlayer target)
    (hfresh : ∀ g ∈ s.db.memberships target, s.db.has g) {result : MembershipResult}
    (hrun : s.run (Call.changeMembership acting target group true) = (.ok result, s'))
    (hadded : result.verdict = .ok .added) :
    group ∉ s.db.memberships target ∧ s.db.has group ∧ s' = s.joined target group ∧
      result.groups = (s'.db.groupsOf s'.groupSources target).groups := by
  have hpruned : (s.db.groupsOf s.groupSources target).pruned = [] :=
    Database.pruned_groupsOf_eq_nil_iff.2 fun _ ↦ hfresh
  have hexplicit : (s.db.groupsOf s.groupSources target).explicit = s.db.memberships target :=
    Database.explicit_groupsOf_of_forall_has hne (hrules ▸ hplayer) hfresh
  rw [hsave.run_changeMembership acting group hdb hplayer hpruned true] at hrun
  simp only [if_true, hexplicit] at hrun
  split at hrun <;> rename_i hproblem
  · cases hrun
    exact nomatch hadded
  · cases hrun
    obtain ⟨hnew, -, hhas⟩ := of_joiningProblem?_eq_none hproblem
    exact ⟨fun hmem ↦ hnew (Database.mem_groups_of_mem_explicit (hexplicit ▸ hmem)), hhas, rfl, rfl⟩

section Joined

variable (hdb : s.db.Distinct) (hall : ∀ g ∈ s.db.memberships target ++ [group], s.db.has g)

include hdb hall

theorem pruned_groupsOf_joined :
    ((s.joined target group).db.groupsOf s.groupSources target).pruned = [] :=
  hdb.pruned_groupsOf_setMemberships s.groupSources hall

theorem explicit_groupsOf_joined (hne : target ≠ "") (hplayer : s.db.rules.isPlayer target) :
    ((s.joined target group).db.groupsOf s.groupSources target).explicit =
      s.db.memberships target ++ [group] :=
  hdb.explicit_groupsOf_setMemberships hne hplayer hall

/-- The groups of a player who has joined one more. -/
theorem run_groupsOf_joined :
    (s.joined target group).run (Call.groupsOf target) =
      (.ok ((s.joined target group).db.groupsOf s.groupSources target).groups, s.joined target group) := by
  have hlookup : (s.joined target group).run (Call.resolveGroups target) =
      (.ok ((s.joined target group).db.groupsOf s.groupSources target), s.joined target group) :=
    run_resolveGroups (pruned_groupsOf_joined hdb hall)
  rw [Call.groupsOf, run_bind_of_ok hlookup]
  rfl

end Joined

/-- To take out the group that was joined puts the stored memberships back, and no entry is left that was not there
before. -/
theorem setMemberships_joined (hsound : s.db.Sound) (hnot : group ∉ s.db.memberships target) :
    (s.joined target group).db.setMemberships target
      ((s.db.memberships target ++ [group]).filter (· != group)) = s.db := by
  have hkept : (s.db.memberships target ++ [group]).filter (· != group) = s.db.memberships target := by
    rw [List.filter_append, List.filter_eq_self.2 fun g hg ↦ by simpa using ne_of_mem_of_not_mem hg hnot]
    simp
  rw [hkept]
  exact Database.setMemberships_setMemberships (by simp) fun t ht ↦ (hsound.entries target t ht).occupied

/-- **Leaving a group undoes joining it.** A player who was added to a group has it after the groups joined before
and before those that come with tier and affiliations. Unless rank keeps the player in it, anyone can take it
away again right then, which brings back the groups and the database of before. -/
theorem leaving_undoes_joining (h : s.Reachable) (hsave : s.CanSave) (hne : target ≠ "")
    (hplayer : s.rules.isPlayer target) (hfresh : ∀ g ∈ s.db.memberships target, s.db.has g)
    {result : MembershipResult}
    (hrun : s.run (Call.changeMembership acting target group true) = (.ok result, s'))
    (hadded : result.verdict = .ok .added) :
    (∃ derived, derived = (s'.db.groupsOf s'.groupSources target).derived ∧
        result.groups = s.db.memberships target ++ group :: derived ∧
        s'.run (Call.groupsOf target) = (.ok result.groups, s')) ∧
      ∀ acting',
        if s.rules.isStaticGroup group ∧ s.tiers.juniorArchLevel ≤ s.privilegeOf target then
          s'.run (Call.changeMembership acting' target group false) =
            (.ok { target, group, verdict := .error (.boundByRank target group) }, s')
        else ∃ result' s'',
          s'.run (Call.changeMembership acting' target group false) = (.ok result', s'') ∧
            result'.verdict = .ok .removed ∧
            result'.groups = (s.db.groupsOf s.groupSources target).groups ∧ s''.db = s.db := by
  have hguarded := h.guarded
  have hdb := hguarded.sound.distinct
  obtain ⟨hnot, hhas, rfl, hgroups⟩ :=
    of_run_changeMembership_eq_added hsave hdb hguarded.rules hne hplayer hfresh hrun hadded
  have hall : ∀ g ∈ s.db.memberships target ++ [group], s.db.has g := fun g hg ↦ by
    rcases List.mem_append.1 hg with hold | hg
    · exact hfresh g hold
    · rwa [List.mem_singleton.1 hg]
  have hexplicit := explicit_groupsOf_joined hdb hall hne (hguarded.rules ▸ hplayer)
  have hmem : group ∈ ((s.joined target group).db.groupsOf s.groupSources target).explicit := by
    simp [hexplicit]
  refine ⟨⟨_, rfl, ?_, ?_⟩, fun acting' ↦ ?_⟩
  · have happend := (s.joined target group).db.groups_eq_explicit_append_derived s.groupSources target
    rw [hexplicit, List.append_assoc, List.singleton_append] at happend
    exact hgroups.trans happend
  · rw [hgroups]
    exact run_groupsOf_joined hdb hall
  · have hsave' : (s.joined target group).CanSave := canSave_saved_iff.2 hsave
    have hleave := hsave'.run_changeMembership acting' group (hdb.setMemberships _ _) hplayer
      (pruned_groupsOf_joined hdb hall) false
    have hproblem : Call.leavingProblem? (s.joined target group)
        ((s.joined target group).db.groupsOf s.groupSources target) target group =
        if s.rules.isStaticGroup group ∧ s.tiers.juniorArchLevel ≤ s.privilegeOf target then
          some (.boundByRank target group)
        else none :=
      leavingProblem?_of_mem_explicit (Database.mem_groups_of_mem_explicit hmem) hmem
    -- The service has the directories that it had before.
    have hsources : (s.joined target group).groupSources = s.groupSources := rfl
    rw [hsources] at hleave
    simp only [hproblem, hexplicit, setMemberships_joined hguarded.sound hnot, Bool.false_eq_true,
      if_false] at hleave
    split <;> rename_i hbound
    · rw [if_pos hbound] at hleave
      exact hleave
    · rw [if_neg hbound] at hleave
      exact ⟨_, _, hleave, rfl, rfl, rfl⟩

/-- A player with an affiliation, and a group, joins another one, and the same actor takes it out again. -/
theorem leaving_undoes_joining_frogo :
    let directory : Directory :=
      { players := [("aedil", { level := 45 }), ("frogo", { affiliations := ["qc"] })] }
    let start : Service := {
      db := .seeded {}
      store := some {}
      identity := some directory
      affiliations := some directory }
    let s := start.afterActions [.request (.changeMembership "aedil" "frogo" "Arch_law" true)]
    ∃ result s' result' s'',
      s.run (Call.changeMembership "aedil" "frogo" "Arch_docs" true) = (.ok result, s') ∧
        result.groups = ["Arch_law", "Arch_docs", "Arch_qc"] ∧
        s'.run (Call.changeMembership "aedil" "frogo" "Arch_docs" false) = (.ok result', s'') ∧
        result'.groups = ["Arch_law", "Arch_qc"] ∧ s''.db = s.db := by
  intro directory start s
  have hstart : start.Reachable := reachable_of_document_eq_none rfl (by decide)
  have hplayer : s.rules.isPlayer "frogo" := by decide +kernel
  have hstored : s.db.memberships "frogo" = ["Arch_law"] := by decide +kernel
  have hfresh : ∀ g ∈ s.db.memberships "frogo", s.db.has g := by decide +kernel
  have hbefore : (s.db.groupsOf s.groupSources "frogo").groups = ["Arch_law", "Arch_qc"] := by
    decide +kernel
  have hfree : ¬(s.rules.isStaticGroup "Arch_docs" ∧ s.tiers.juniorArchLevel ≤ s.privilegeOf "frogo") := by
    decide +kernel
  have hadded : (s.run (Call.changeMembership "aedil" "frogo" "Arch_docs" true)).1.toOption.bind
      (·.verdict.toOption) = some .added := by decide +kernel
  have hlast : ((s.run (Call.changeMembership "aedil" "frogo" "Arch_docs" true)).2.db.groupsOf
      (s.run (Call.changeMembership "aedil" "frogo" "Arch_docs" true)).2.groupSources "frogo").derived =
        ["Arch_qc"] := by decide +kernel
  have hsave : s.CanSave := by decide +kernel
  have hreachable : s.Reachable := hstart.afterActions _
  clear_value s
  rcases hrun : s.run (Call.changeMembership "aedil" "frogo" "Arch_docs" true) with ⟨_ | result, s'⟩
  · rw [hrun] at hadded
    exact nomatch hadded
  rw [hrun] at hadded hlast
  have hverdict : result.verdict = .ok .added := by
    rcases hverdict : result.verdict with _ | outcome
    · simp [hverdict, Except.toOption] at hadded
    · simpa [hverdict, Except.toOption] using hadded
  obtain ⟨⟨derived, hderived, hgroups, -⟩, hleave⟩ :=
    leaving_undoes_joining hreachable hsave (by decide) hplayer hfresh hrun hverdict
  have hleave := hleave "aedil"
  rw [if_neg hfree] at hleave
  obtain ⟨result', s'', hrun', -, hgroups', hdb⟩ := hleave
  refine ⟨result, s', result', s'', rfl, ?_, hrun', hgroups'.trans hbefore, hdb⟩
  rw [hgroups, hstored, hderived, hlast]
  rfl

/-- **The empty name is stored as a member and never is one.** It counts as the name of a player, and so can be
added to a group. No groups are looked up for it, though, and so it is in none and cannot leave any. -/
theorem nameless_player_cannot_leave :
    let s : Service := {
      db := .seeded {}
      store := some {}
      identity := some { players := [("bob", { level := 50 })] } }
    let s' := (s.run (Call.changeMembership "bob" "" "Arch_law" true)).2
    let left := s'.run (Call.changeMembership "bob" "" "Arch_law" false)
    s.Reachable ∧ s.CanSave ∧ s.rules.isPlayer "" ∧ s.db.memberships "" = [] ∧
      (s.run (Call.changeMembership "bob" "" "Arch_law" true)).1.toOption.bind (·.verdict.toOption) =
        some .added ∧
      (s'.run (Call.groupsOf "")).1.toOption = some [] ∧
      left.1.toOption.bind (·.verdict.toOption) = none ∧ left.2.db.memberships "" = ["Arch_law"] := by
  exact ⟨reachable_of_document_eq_none rfl (by decide), by decide +kernel⟩

end Service

end PathAccess
