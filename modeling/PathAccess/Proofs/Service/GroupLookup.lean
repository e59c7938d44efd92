import PathAccess.Proofs.Database.Thinned
import PathAccess.Proofs.Principal
import PathAccess.Proofs.Service.Lookups
/-!
# The groups of a player, and how they heal

The order of a player's groups is that of their priority: stored memberships first, then the group of the
tier, then those of the affiliations. Groups without a tree do not count. A stored membership in one is
pruned when it is come upon, a derived one is passed over (`Database.GroupsFound`).

Pruning changes the database that the groups are looked up in, and may even take away the entry of the player.
The groups are the same all the same when they are looked up again, and nothing is left to prune
(`Database.Distinct.groupsOf_healed`). That would fail for a player who is a group of his own and loses his
tree with his last membership. The names of derived groups are those of groups, so no player is one, and a
stored membership of a player in himself keeps his entry.

So the database is saved once for what was stale (`Service.groups_looked_up`).
-/

namespace PathAccess

namespace Database

variable {db : Database} {s : GroupSources} {name : String}

theorem ne_of_mem_derivedGroups (hplayer : db.rules.isPlayer name)
    (hstem : isGroupName db.rules.affiliationStem) (hfull : isGroupName s.tiers.fullGroup)
    (hjunior : isGroupName s.tiers.juniorGroup) {group : String}
    (h : group ∈ db.derivedGroups s name) : group ≠ name := by
  have hgroup : isGroupName group := by
    rcases of_mem_derivedGroups h with rfl | rfl | ⟨affiliation, rfl⟩
    · exact hfull
    · exact hjunior
    · exact isGroupName_append hstem affiliation
  rintro rfl
  simp only [PrincipalRules.isPlayer, PrincipalRules.kindOf, hgroup] at hplayer
  split at hplayer <;> exact nomatch hplayer

/-- **A derived group is added once**, if it has a tree and is not among the groups before. -/
theorem foldl_addDerived (db : Database) (names groups : List String) :
    names.foldl db.addDerived groups =
      groups ++ (names.filter fun g ↦ db.has g && !groups.contains g).eraseDups := by
  induction names generalizing groups with
  | nil => simp
  | cons name names ih =>
    rw [List.foldl_cons, ih, addDerived]
    split <;> rename_i hadd
    · have hfilter : (names.filter fun g ↦ db.has g && !(groups ++ [name]).contains g) =
          (names.filter fun g ↦ db.has g && !groups.contains g).filter (!· == name) := by
        rw [List.filter_filter]
        refine List.filter_congr fun g _ ↦ ?_
        rw [List.contains_append, List.contains_cons, List.contains_nil]
        simp only [Bool.or_false, Bool.not_or]
        ac_rfl
      rw [hfilter, List.filter_cons, if_pos hadd, List.eraseDups_cons, List.append_assoc,
        List.singleton_append]
    · rw [List.filter_cons, if_neg hadd]

/-- The derived groups follow the stored ones that are left. -/
theorem groups_eq_explicit_append_derived (db : Database) (s : GroupSources) (name : String) :
    (db.groupsOf s name).groups = (db.groupsOf s name).explicit ++ (db.groupsOf s name).derived := by
  have happend : ∃ added : List String,
      (db.groupsOf s name).groups = (db.groupsOf s name).explicit ++ added ∧
        ∀ g ∈ added, g ∉ (db.groupsOf s name).explicit := by
    unfold groupsOf
    split
    · exact ⟨[], rfl, fun _ h ↦ nomatch h⟩
    · refine ⟨_, db.foldl_addDerived _ _, fun g hg ↦ ?_⟩
      have hkept := (List.mem_filter.1 (List.mem_eraseDups.1 hg)).2
      simp_all
  obtain ⟨added, hgroups, hnew⟩ := happend
  have hderived : (db.groupsOf s name).derived = added := by
    rw [GroupResolution.derived, hgroups, List.filter_append]
    have hold : (db.groupsOf s name).explicit.filter
        (!(db.groupsOf s name).explicit.contains ·) = [] := by
      simp
    rw [hold, List.nil_append]
    exact List.filter_eq_self.2 fun g hg ↦ by simpa using hnew g hg
  rw [hderived, hgroups]

/-- The groups of a player. -/
theorem groupsOf_of_player (hne : name ≠ "") (hplayer : db.rules.isPlayer name) :
    db.groupsOf s name =
      { groups := (db.derivedGroups s name).foldl db.addDerived ((db.memberships name).filter db.has)
        explicit := (db.memberships name).filter db.has
        pruned := (db.memberships name).filter (!db.has ·) } := by
  have hmember : ¬(name == "" || !db.rules.isPlayer name) := by simp [hne, hplayer]
  rw [groupsOf, if_neg hmember, List.partition_eq_filter_filter]
  rfl

/-- **To look up groups again is to find the same.** The entry of a player whose memberships are pruned may go,
and this is told from the groups only if the player is one of them. -/
theorem Distinct.groupsOf_healed (h : db.Distinct) (hne : name ≠ "")
    (hplayer : db.rules.isPlayer name) (hderived : ∀ g ∈ db.derivedGroups s name, g ≠ name) :
    (db.healed s name).groupsOf s name = { db.groupsOf s name with pruned := [] } := by
  by_cases hpruned : (db.groupsOf s name).pruned = []
  · rw [healed_eq, if_pos hpruned, ← hpruned]
  have hmemberships : (db.healed s name).memberships name = (db.groupsOf s name).explicit := by
    rw [healed_eq, if_neg hpruned, h.memberships_setMemberships, if_pos rfl]
  have hkept : ∀ g ∈ (db.groupsOf s name).explicit, (db.healed s name).has g :=
    fun g hg ↦ h.has_healed_of_mem_explicit hg
  have hadded : ∀ g ∈ db.derivedGroups s name, (db.healed s name).has g = db.has g := by
    intro g hg
    rw [healed_eq, if_neg hpruned, h.has_setMemberships_of_ne (hderived g hg)]
  have hsources : (db.healed s name).derivedGroups s name = db.derivedGroups s name := by
    rw [derivedGroups, derivedGroups, rules_healed]
  have hstale : (db.groupsOf s name).explicit.filter (!(db.healed s name).has ·) = [] :=
    List.filter_eq_nil_iff.2 fun g hg ↦ by simp [hkept g hg]
  rw [groupsOf_of_player hne (by rwa [rules_healed]), hmemberships, hsources, hstale,
    List.filter_eq_self.2 hkept, foldl_addDerived_congr hadded, groupsOf_of_player hne hplayer]

/-- Where fewer names have a tree, the derived groups are those of before whose name still has one. -/
theorem foldl_addDerived_filter {db' : Database} (hsub : ∀ g, db'.has g → db.has g)
    (names groups : List String) :
    names.foldl db'.addDerived (groups.filter db'.has) = (names.foldl db.addDerived groups).filter db'.has := by
  induction names generalizing groups with
  | nil => rfl
  | cons name names ih =>
    have hadd : db'.addDerived (groups.filter db'.has) name = (db.addDerived groups name).filter db'.has := by
      rw [addDerived, addDerived]
      by_cases hkept : db'.has name
      · by_cases hmem : name ∈ groups <;> simp [hkept, hsub name hkept, hmem]
      · by_cases hnew : db.has name ∧ name ∉ groups <;> simp [hkept, hnew]
    rw [List.foldl_cons, List.foldl_cons, hadd, ih]

/-- **The groups that are found again** are those whose tree was not pruned away. -/
theorem Distinct.groups_groupsOf_healed (h : db.Distinct) (s : GroupSources) (name : String) :
    ((db.healed s name).groupsOf s name).groups =
      (db.groupsOf s name).groups.filter (db.healed s name).has := by
  by_cases hmember : name ≠ "" ∧ db.rules.isPlayer name
  · obtain ⟨hne, hplayer⟩ := hmember
    have hsub : ∀ g, (db.healed s name).has g → db.has g := fun g hg ↦ h.has_of_has_healed hg
    have hstored : ((db.healed s name).memberships name).filter (db.healed s name).has =
        ((db.memberships name).filter db.has).filter (db.healed s name).has := by
      have hfilter : ((db.memberships name).filter db.has).filter (db.healed s name).has =
          (db.memberships name).filter (db.healed s name).has := by
        rw [List.filter_filter]
        refine List.filter_congr fun g _ ↦ ?_
        by_cases hg : (db.healed s name).has g <;> simp [hg, hsub g]
      rcases h.memberships_healed s name name with heq | heq
      · rw [heq, hfilter]
      · rw [heq]
    have hsources : (db.healed s name).derivedGroups s name = db.derivedGroups s name := by
      rw [derivedGroups, derivedGroups, rules_healed]
    rw [groupsOf_of_player hne (by rwa [rules_healed]), groupsOf_of_player hne hplayer, hsources, hstored]
    exact foldl_addDerived_filter hsub _ _
  · have hnone : ∀ db' : Database, db'.rules = db.rules → (db'.groupsOf s name).groups = [] := by
      intro db' hrules
      have hnot : name == "" || !db'.rules.isPlayer name := by
        rw [hrules]
        by_cases hne : name = "" <;> simp_all
      rw [groupsOf, if_pos hnot]
    rw [hnone _ (rules_healed db s name), hnone db rfl]
    rfl

/-- The entries of all others stay as they are, and where they are. -/
theorem filter_trees_setMemberships (db : Database) (name : String) (groups : List String) :
    (db.setMemberships name groups).trees.filter (·.1 != name) = db.trees.filter (·.1 != name) := by
  have hset : ∀ t, (db.set name t).trees.filter (·.1 != name) = db.trees.filter (·.1 != name) := by
    intro t
    have hfilter := Entries.filter_set (· != name) db.trees name t
    rwa [if_neg (by simp)] at hfilter
  unfold Database.setMemberships
  split
  · split
    · unfold discardIfEmpty
      split
      · split
        · exact (Entries.filter_remove _ _).trans (hset _)
        · exact hset _
      · exact hset _
    · rfl
  · exact hset _

/-- What looking up the groups of a player finds, and the database that it leaves. -/
structure GroupsFound (db : Database) (s : GroupSources) (name : String) (r : GroupResolution)
    (db' : Database) : Prop where
  /-- Kept are the stored memberships in groups that have a tree, in stored order. -/
  explicit : r.explicit = (db.memberships name).filter db.has
  /-- The others are pruned. -/
  pruned : r.pruned = (db.memberships name).filter (!db.has ·)
  /-- The groups are those that were kept, then the group of the tier, then those of the affiliations in
  their order, the derived ones each once, if they have a tree and are not among the kept. -/
  groups : r.groups = r.explicit ++
    (((s.identity.bind fun d ↦ s.tiers.group? (d.levelOf name)).toList ++
        ((s.affiliations.map (·.affiliationsOf name)).getD []).map (db.rules.affiliationStem ++ ·)).filter
      fun g ↦ db.has g && !r.explicit.contains g).eraseDups
  /-- Stored afterwards are the memberships that were kept. -/
  memberships : db'.memberships name = r.explicit
  /-- The entry of the player goes only if a pruning left it with nothing. -/
  entry : db'.find? name = (db.find? name).bind fun t ↦
    if r.pruned ≠ [] ∧ r.explicit = [] ∧ t.root.isEmpty then none
    else some { t with groups := r.explicit }
  /-- The other entries are the same, in the same order. -/
  others : db'.trees.filter (·.1 != name) = db.trees.filter (·.1 != name)
  /-- To look up the groups again gives the same, prunes nothing and leaves the same. -/
  again : db'.resolveGroups s name = ({ r with pruned := [] }, db')

theorem Distinct.find?_healed_self (h : db.Distinct) (hne : name ≠ "") (hplayer : db.rules.isPlayer name) :
    (db.healed s name).find? name = (db.find? name).bind fun t ↦
      if (db.groupsOf s name).pruned ≠ [] ∧ (db.groupsOf s name).explicit = [] ∧ t.root.isEmpty then none
      else some { t with groups := (db.groupsOf s name).explicit } := by
  rw [healed_eq]
  cases hfind : db.find? name with
  | none =>
    have hnone : db.memberships name = [] := by
      rw [Database.memberships, treeOf, hfind]
      rfl
    rw [if_pos (pruned_groupsOf_of_memberships_eq_nil s hnone), hfind]
    rfl
  | some t =>
    have htree : db.treeOf name = t := treeOf_of_find? db hfind
    rw [Option.bind_some]
    split <;> rename_i hpruned
    · -- Nothing is stale, so the memberships that are kept are those of the tree.
      have hall : ∀ g ∈ db.memberships name, db.has g := pruned_groupsOf_eq_nil_iff.1 hpruned ⟨hne, hplayer⟩
      have hkept : (db.groupsOf s name).explicit = t.groups := by
        rw [groupsOf_of_player hne hplayer, ← htree]
        exact List.filter_eq_self.2 hall
      rw [if_neg fun hboth ↦ hboth.1 hpruned, hkept, hfind]
    · rw [h.find?_setMemberships, if_pos rfl, hfind, htree, Option.bind_some]
      split <;> rename_i hexplicit
      · simp [hpruned, hexplicit]
      · rw [if_neg fun hboth ↦ hexplicit hboth.2.1]

theorem Distinct.groupsFound (h : db.Distinct) (hne : name ≠ "") (hplayer : db.rules.isPlayer name)
    (hderived : ∀ g ∈ db.derivedGroups s name, g ≠ name) :
    db.GroupsFound s name (db.groupsOf s name) (db.healed s name) where
  explicit := by rw [groupsOf_of_player hne hplayer]
  pruned := by rw [groupsOf_of_player hne hplayer]
  groups := by
    rw [groupsOf_of_player hne hplayer]
    exact db.foldl_addDerived _ _
  memberships := by
    rw [healed_eq]
    split <;> rename_i hpruned
    · rw [groupsOf_of_player hne hplayer]
      have hall := pruned_groupsOf_eq_nil_iff.1 hpruned ⟨hne, hplayer⟩
      exact (List.filter_eq_self.2 hall).symm
    · rw [h.memberships_setMemberships, if_pos rfl]
  entry := h.find?_healed_self hne hplayer
  others := by
    rw [healed_eq]
    split
    · rfl
    · exact db.filter_trees_setMemberships name _
  again := by
    have hagain : ((db.healed s name).resolveGroups s name).1 = { db.groupsOf s name with pruned := [] } :=
      h.groupsOf_healed hne hplayer hderived
    exact Prod.ext hagain (h.healed_healed s name)

end Database

namespace Service

variable {s : Service} {name : String}

/-- **Groups are looked up in order of priority, and what is stale heals itself once.** The database is saved if
something was stale, and only then. Where it cannot be saved it has healed all the same, and the next lookup
succeeds. -/
theorem groups_looked_up (hdb : s.db.Distinct) (hne : name ≠ "") (hplayer : s.db.rules.isPlayer name)
    (hstem : isGroupName s.db.rules.affiliationStem) (hfull : isGroupName s.tiers.fullGroup)
    (hjunior : isGroupName s.tiers.juniorGroup) :
    ∃ r db, s.db.resolveGroups s.groupSources name = (r, db) ∧
      s.db.GroupsFound s.groupSources name r db ∧
      (s.CanSave ∨ r.pruned = [] →
        ∃ s', s.run (Call.resolveGroups name) = (.ok r, s') ∧ s'.db = db ∧
          s'.store = (if r.pruned = [] then s.store else s.store.map fun store ↦
            { store with document := some db.toDocument, saves := store.saves + 1 }) ∧
          s'.run (Call.resolveGroups name) = (.ok { r with pruned := [] }, s')) ∧
      (¬s.CanSave → r.pruned ≠ [] →
        ∃ e, s.run (Call.resolveGroups name) = (.error e, { s with db }) ∧
          ({ s with db } : Service).run (Call.resolveGroups name) =
            (.ok { r with pruned := [] }, { s with db })) := by
  have hderived : ∀ g ∈ s.db.derivedGroups s.groupSources name, g ≠ name :=
    fun g hg ↦ Database.ne_of_mem_derivedGroups (s := s.groupSources) hplayer hstem hfull hjunior hg
  have hfound := hdb.groupsFound hne hplayer hderived
  -- Whoever has the database that was left finds nothing stale in it.
  have hagain : ∀ s' : Service, s'.db = s.db.healed s.groupSources name →
      s'.groupSources = s.groupSources → s'.run (Call.resolveGroups name) =
        (.ok { s.db.groupsOf s.groupSources name with pruned := [] }, s') := by
    intro s' hleft hsources
    have hgroups : s'.db.groupsOf s'.groupSources name =
        { s.db.groupsOf s.groupSources name with pruned := [] } := by
      rw [hleft, hsources]
      exact congrArg Prod.fst hfound.again
    rw [run_resolveGroups (by rw [hgroups]), hgroups]
  have hsame := s.sameBut_afterLookup name
  have hreads (hsaves : s.CanSave ∨ (s.db.groupsOf s.groupSources name).pruned = []) :
      s.run (Call.resolveGroups name) = (.ok (s.db.groupsOf s.groupSources name), s.afterLookup name) := by
    rcases hsaves with hsave | hpruned
    · exact (s.run_resolveGroups_cases name).resolve_right fun hfails ↦ hfails.1 hsave
    · rw [run_resolveGroups hpruned, afterLookup, if_pos hpruned]
  refine ⟨s.db.groupsOf s.groupSources name, s.db.healed s.groupSources name, rfl, hfound,
    fun hsaves ↦ ⟨s.afterLookup name, hreads hsaves, hsame.db_eq, ?_,
      hagain _ hsame.db_eq hsame.groupSources_eq⟩, fun hsave hpruned ↦ ?_⟩
  · rw [afterLookup]
    split <;> rfl
  · obtain ⟨e, hrun⟩ := run_resolveGroups_of_not_canSave hsave hpruned
    exact ⟨e, hrun, hagain _ rfl rfl⟩

/-- A player whose only membership is stale loses the entry, and keeps the groups that come with tier and
affiliations. -/
theorem groups_looked_up_bob :
    let bob : Directory := { players := [("bob", { level := 45, affiliations := ["docs", "none", "docs"] })] }
    let s : Service := {
      db := { trees := [("bob", { groups := ["Arch_gone"] }),
        ("Arch_docs", Tree.ofEntries none [("doc", .leaf .write)]),
        ("Arch_full", Tree.ofEntries (some .grantWrite) [])] }
      store := some {}
      identity := some bob
      affiliations := some bob }
    ∃ r s', s.run (Call.resolveGroups "bob") = (.ok r, s') ∧ r.groups = ["Arch_full", "Arch_docs"] ∧
      r.pruned = ["Arch_gone"] ∧ s'.db.principals = ["Arch_docs", "Arch_full"] ∧
      s'.store.map (·.saves) = some 1 ∧
      s'.run (Call.resolveGroups "bob") = (.ok { r with pruned := [] }, s') := by
  intro bob s
  have hdb : s.db.Distinct := by
    unfold Database.Distinct
    decide
  have hname : "bob" ≠ "" := by decide
  obtain ⟨r, db, hresolve, -, hsaves, -⟩ :=
    groups_looked_up hdb hname (by decide) (by decide) (by decide) (by decide)
  obtain ⟨s', hrun, rfl, hstore, hagain⟩ := hsaves (.inl (by decide))
  have hgroups : (s.db.resolveGroups s.groupSources "bob").1.groups = ["Arch_full", "Arch_docs"] := by
    decide +kernel
  have hpruned : (s.db.resolveGroups s.groupSources "bob").1.pruned = ["Arch_gone"] := by
    decide +kernel
  have hleft : (s.db.resolveGroups s.groupSources "bob").2.principals = ["Arch_docs", "Arch_full"] := by
    decide +kernel
  rw [hresolve] at hgroups hpruned hleft
  dsimp only at hgroups hpruned hleft
  have hstale : r.pruned ≠ [] := by simp [hpruned]
  have hsaved : s'.store.map (·.saves) = some 1 := by
    rw [hstore, if_neg hstale]
    rfl
  exact ⟨r, s', hrun, hgroups, hpruned, hleft, hsaved, hagain⟩

/-- **The empty name has no groups**, whatever is stored under it, though it counts as the name of a player. -/
theorem nameless_player_without_groups :
    let s : GroupSources := {}
    let db : Database := {
      trees := [("Arch_law", Tree.ofEntries (some .write) []), ("", { groups := ["Arch_law"] })] }
    (db.rules.isPlayer "" ∧ isGroupName db.rules.affiliationStem ∧ isGroupName s.tiers.fullGroup ∧
        isGroupName s.tiers.juniorGroup) ∧
      (db.memberships "").filter db.has = ["Arch_law"] ∧ (db.resolveGroups s "").1.groups = [] := by
  decide

end Service

end PathAccess
