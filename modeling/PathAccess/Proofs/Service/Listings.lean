import PathAccess.Proofs.Service.Agreement
import PathAccess.Proofs.Service.Decisions
import PathAccess.Proofs.Service.GroupLookup
import PathAccess.Proofs.Tree.ShortestForm
/-!
# What a listing shows

A listing shows the trees that decide for a principal, highest priority first, and so explains its levels: whoever
evaluates the sections finds what the service answers right after (`listing_explains_levels`). Two things could be
in the way. To look up the trees prunes what is stale, and with it the own tree may go that is shown; but then it
is empty and says nothing. And sections without entries are left out, which shifts the others; but all that the rules
about homes ask is whether the own tree decides, and one that does is not empty and comes first.

Whether the default tree is shown instead is decided before anything is pruned. A player whose entry holds
nothing but stale memberships (`Database.OnlyStale`) is therefore shown his own trees once, and from then on
what is shown of a name without an entry (`listing_changed_by_listing`). Everyone else is shown the same again
(`listing_again`).
-/

namespace PathAccess

namespace Database

variable {db : Database} {s : GroupSources} {name : String}

/-- Whether the entry of a player holds nothing but memberships in groups that are gone. It goes when the groups
of the player are looked up. -/
structure OnlyStale (db : Database) (name : String) : Prop where
  /-- The name is that of a player. -/
  player : name ≠ "" ∧ db.rules.isPlayer name
  /-- It is not that of the default, for which no groups are looked up. -/
  other : name ≠ defaultPrincipal
  /-- The entry has no paths and some memberships, all of them stale. -/
  entry : ∃ t, db.find? name = some t ∧ t.root.isEmpty ∧ t.groups ≠ [] ∧ ∀ g ∈ t.groups, db.has g = false

section OnlyStale

variable (h : db.OnlyStale name) (s : GroupSources)

include h

theorem OnlyStale.explicit_groupsOf : (db.groupsOf s name).explicit = [] := by
  obtain ⟨⟨hne, hplayer⟩, -, t, hfind, -, -, hstale⟩ := h
  rw [groupsOf_of_player hne hplayer, memberships, treeOf_of_find? db hfind]
  exact List.filter_eq_nil_iff.2 fun g hg ↦ by simp [hstale g hg]

theorem OnlyStale.pruned_groupsOf_ne_nil : (db.groupsOf s name).pruned ≠ [] := by
  obtain ⟨⟨hne, hplayer⟩, -, t, hfind, -, hgroups, hstale⟩ := h
  rw [groupsOf_of_player hne hplayer, memberships, treeOf_of_find? db hfind]
  obtain ⟨g, hg⟩ := List.exists_mem_of_ne_nil _ hgroups
  exact List.ne_nil_of_mem (List.mem_filter.2 ⟨hg, by simp [hstale g hg]⟩)

theorem OnlyStale.find?_healed (hdb : db.Distinct) : (db.healed s name).find? name = none := by
  have hgoes := And.intro (h.pruned_groupsOf_ne_nil s) (h.explicit_groupsOf s)
  obtain ⟨⟨hne, hplayer⟩, -, t, hfind, hroot, -, -⟩ := h
  rw [hdb.find?_healed_self hne hplayer, hfind, Option.bind_some, if_pos ⟨hgoes.1, hgoes.2, hroot⟩]

end OnlyStale

/-- Any other entry stays, with the memberships that are kept. -/
theorem Distinct.find?_healed_of_not_onlyStale (h : db.Distinct) (s : GroupSources)
    (hname : name ≠ defaultPrincipal) (hnot : ¬db.OnlyStale name) :
    (db.healed s name).find? name = (db.find? name).map fun t ↦
      if (db.groupsOf s name).changed then { t with groups := (db.groupsOf s name).explicit } else t := by
  by_cases hpruned : (db.groupsOf s name).pruned = []
  · simp [healed_eq, hpruned, GroupResolution.changed]
  have hplayer : name ≠ "" ∧ db.rules.isPlayer name := by
    by_contra hplayer
    exact hpruned (pruned_groupsOf_eq_nil_iff.2 fun h ↦ absurd h hplayer)
  have hchanged : (db.groupsOf s name).changed = true := by simp [GroupResolution.changed, hpruned]
  rw [h.find?_healed_self hplayer.1 hplayer.2, hchanged]
  cases hfind : db.find? name with
  | none => rfl
  | some t =>
    have hmemberships : db.memberships name = t.groups := by
      rw [memberships, treeOf_of_find? db hfind]
    rw [Option.bind_some, Option.map_some, if_pos rfl, if_neg]
    rintro ⟨-, hexplicit, hroot⟩
    rw [groupsOf_of_player hplayer.1 hplayer.2, hmemberships] at hpruned hexplicit
    refine hnot ⟨hplayer, hname, t, hfind, hroot, fun hnil ↦ hpruned (by rw [hnil]; rfl), fun g hg ↦ ?_⟩
    simpa using List.filter_eq_nil_iff.1 hexplicit g hg

end Database

namespace Service

variable {s s' : Service} {name : String}

/-! ### The trees that are shown -/

variable (s name) in
/-- The own tree of a principal, as it is looked up. -/
def ownRead : Option OwnedTree :=
  let r := s.db.groupsOf s.groupSources name
  (s.db.find? name).map fun t ↦ ⟨name, if r.changed then { t with groups := r.explicit } else t⟩

variable (s name) in
/-- The trees that apply to a principal beside its own, as they are looked up. -/
def othersRead : List OwnedTree :=
  let db := s.db.healed s.groupSources name
  (s.db.groupsOf s.groupSources name).groups.filterMap (fun group ↦ (db.find? group).map (⟨group, ·⟩)) ++
    [⟨defaultPrincipal, db.defaultTree⟩]

theorem treesRead_of_ne (hname : name ≠ defaultPrincipal) :
    s.treesRead name = ((s.ownRead name).toList ++ s.othersRead name, (s.db.find? name).isSome) := by
  rw [treesRead, if_neg (by simpa using hname), ownRead, othersRead, List.append_assoc]

theorem db_afterRead_of_ne (hname : name ≠ defaultPrincipal) :
    (s.afterRead name).db = s.db.healed s.groupSources name := by
  rw [(s.sameBut_afterRead name).db_eq, dbAfterRead, if_neg (by simpa using hname)]

/-- The trees beside the own one are the same when they are looked up again. -/
theorem othersRead_afterRead (hdb : s.db.Distinct) (hname : name ≠ defaultPrincipal) :
    (s.afterRead name).othersRead name = s.othersRead name := by
  rw [othersRead, othersRead, db_afterRead_of_ne hname, (s.sameBut_afterRead name).groupSources_eq,
    hdb.healed_healed, hdb.groups_groupsOf_healed, List.filterMap_filter]
  congr 1
  refine List.filterMap_congr fun group _ ↦ ?_
  rw [Database.has_eq_isSome_find?]
  cases (s.db.healed s.groupSources name).find? group <;> rfl

theorem ownRead_afterRead (hdb : s.db.Distinct) (hname : name ≠ defaultPrincipal) :
    (s.afterRead name).ownRead name =
      ((s.db.healed s.groupSources name).find? name).map (⟨name, ·⟩) := by
  have hpruned := hdb.pruned_groupsOf_healed s.groupSources name
  rw [ownRead, db_afterRead_of_ne hname, (s.sameBut_afterRead name).groupSources_eq]
  simp [GroupResolution.changed, hpruned]

/-- **The trees that are shown again are the same**, unless the entry of the principal went. -/
theorem treesRead_afterRead (hdb : s.db.Distinct) (hnot : ¬s.db.OnlyStale name) :
    (s.afterRead name).treesRead name = s.treesRead name := by
  by_cases hname : name = defaultPrincipal
  · subst hname
    rfl
  rw [treesRead_of_ne hname, treesRead_of_ne hname, othersRead_afterRead hdb hname,
    ownRead_afterRead hdb hname, db_afterRead_of_ne hname,
    hdb.find?_healed_of_not_onlyStale _ hname hnot, ownRead, Option.map_map, Option.isSome_map]
  rfl

/-- What is shown of an entry that goes is an empty tree, and the rest is shown again. -/
theorem treesRead_of_onlyStale (hdb : s.db.Distinct) (h : s.db.OnlyStale name) :
    (s.treesRead name).1 = ⟨name, {}⟩ :: ((s.afterRead name).treesRead name).1 := by
  have hname := h.other
  have hexplicit := h.explicit_groupsOf s.groupSources
  have hchanged : (s.db.groupsOf s.groupSources name).changed = true := by
    simp [GroupResolution.changed, h.pruned_groupsOf_ne_nil s.groupSources]
  obtain ⟨t, hfind, hroot, -, -⟩ := h.entry
  rw [treesRead_of_ne hname, treesRead_of_ne hname, othersRead_afterRead hdb hname,
    ownRead_afterRead hdb hname, h.find?_healed s.groupSources hdb]
  have hempty : ({ t with groups := [] } : Tree) = {} := by rw [Branch.eq_of_isEmpty hroot]
  simp only [ownRead, hfind, hchanged, hexplicit, Option.map_some, if_true, hempty]
  rfl

/-! ### Running a listing -/

section Run

variable (s) (name : String) (mode : Option ListingMode)

/-- Whether a name is shown the default tree, or why nothing is shown. -/
def fallback? : Except ServiceError Bool :=
  if s.rules.isFake name || s.db.has name then .ok false else s.fallsBackResult name

/-- What is shown of a name, by the default tree or by its own ones. -/
def shown (fallback : Bool) : Listing :=
  let listedAs := if fallback then defaultPrincipal else name
  let mode := mode.getD (if listedAs == defaultPrincipal then .effective else .detailed)
  ⟨name, listedAs, mode, listingSections listedAs (s.treesRead listedAs).1 mode, fallback⟩

/-- What is listed, or why nothing is. -/
def listing : Except ServiceError Listing :=
  (s.fallback? name).map (s.shown name mode)

variable {s name}

/-- To look up a name without an entry changes nothing. -/
theorem afterRead_of_not_has (h : s.db.has name = false) : s.afterRead name = s := by
  rw [afterRead, afterLookup, if_pos (Database.pruned_groupsOf_of_not_has _ h), ite_self]

/-- Only a name without an entry is shown the default tree, or is unknown. -/
theorem not_has_of_fallback? (h : s.fallback? name ≠ .ok false) : s.db.has name = false := by
  unfold fallback? at h
  split at h <;> rename_i hknown
  · exact absurd rfl h
  · simp_all

theorem run_fallsBack : s.run (Call.fallsBack name) = (s.fallback? name, s) := by
  rw [Call.fallsBack, run_bind_of_ok s.run_get, fallback?, fallsBackResult]
  split <;> rename_i hknown
  · rfl
  · have hnot : s.db.has name = false := by simp_all
    rw [run_bind_of_ok (run_resolveGroups (Database.pruned_groupsOf_of_not_has _ hnot))]
    split
    · rfl
    · split
      · rfl
      · split <;> rfl

variable (s name)

/-- **A listing is made**, or what was pruned for it cannot be saved. Whatever is shown, the database afterwards is
the one after the trees of the name were looked up. -/
theorem run_list_cases :
    s.run (Call.list name mode) = (s.listing name mode, s.afterRead name) ∨
      ¬s.CanSave ∧ ∃ e s', s.run (Call.list name mode) = (.error e, s') := by
  rw [Call.list, run_bind, run_fallsBack, listing]
  rcases hfallback : s.fallback? name with e | fallback
  · left
    rw [afterRead_of_not_has (not_has_of_fallback? (by simp [hfallback]))]
    rfl
  · dsimp only
    cases fallback with
    | true =>
      left
      rw [afterRead_of_not_has (not_has_of_fallback? (by simp [hfallback]))]
      rfl
    | false =>
      rcases s.run_treesFor_cases name with hrun | ⟨hsave, e, hrun⟩
      · left
        simp only [Bool.false_eq_true, if_false]
        rw [run_bind_of_ok hrun]
        rfl
      · right
        simp only [Bool.false_eq_true, if_false]
        exact ⟨hsave, e, _, by rw [run_bind, hrun]⟩

end Run

/-! ### What the shown trees say -/

/-- A tree that is shown says what the stored tree of its owner says. -/
theorem levelAt_of_mem_treesRead (hdb : s.db.Distinct) {t : OwnedTree} (ht : t ∈ (s.treesRead name).1)
    (path : List String) : t.tree.levelAt path = s.levelOf path t.owner := by
  by_cases hname : name = defaultPrincipal
  · subst hname
    obtain rfl := List.mem_singleton.1 ht
    rfl
  rw [treesRead_of_ne hname, othersRead] at ht
  rcases List.mem_append.1 ht with hown | hother
  · obtain ⟨u, hfind, rfl⟩ := Option.map_eq_some_iff.1 (Option.mem_toList.1 hown)
    rw [levelOf, Database.treeOf_of_find? _ hfind]
    dsimp only
    split <;> (cases path <;> rfl)
  rcases List.mem_append.1 hother with hgroup | hdefault
  · obtain ⟨group, -, hmap⟩ := List.mem_filterMap.1 hgroup
    obtain ⟨u, hfind, rfl⟩ := Option.map_eq_some_iff.1 hmap
    rw [← levelAt_find?_healed hdb name group path, hfind]
    rfl
  · obtain rfl := List.mem_singleton.1 hdefault
    exact Tree.levelAt_of_root_eq (hdb.root_treeOf_healed _ _ _) path

/-- The own tree is the first that is shown. -/
theorem exists_treesRead_eq_cons {path : List String} (h : (s.levelOf path name).isSome) :
    ∃ t others, (s.treesRead name).1 = ⟨name, t⟩ :: others := by
  by_cases hname : name = defaultPrincipal
  · subst hname
    exact ⟨_, [], rfl⟩
  rw [levelOf_eq_bind] at h
  obtain ⟨t, hfind⟩ : ∃ t, s.db.find? name = some t := by
    cases hfind : s.db.find? name <;> simp_all
  rw [treesRead_of_ne hname, ownRead, hfind]
  exact ⟨_, _, rfl⟩

/-- Empty trees say nothing. -/
theorem verdicts_listingSections (listedAs : String) (trees : List OwnedTree) {mode : ListingMode}
    (hmode : mode ≠ .effective) (path : List String) :
    verdicts (listingSections listedAs trees mode) path = verdicts trees path := by
  cases mode with
  | effective => exact absurd rfl hmode
  | raw => rfl
  | detailed =>
    rw [listingSections, verdicts, List.filterMap_filter, verdicts]
    refine List.filterMap_congr fun t _ ↦ ?_
    cases hempty : t.tree.root.isEmpty with
    | false => rfl
    | true =>
      rw [Tree.levelAt_of_isEmpty hempty]
      rfl

theorem listingSections_subset (listedAs : String) (trees : List OwnedTree) {mode : ListingMode}
    (hmode : mode ≠ .effective) : listingSections listedAs trees mode ⊆ trees := by
  cases mode with
  | effective => exact absurd rfl hmode
  | raw => exact List.Subset.refl _
  | detailed => exact List.filter_subset_self _

/-- The section of a principal is the first one, if its tree says anything. -/
theorem owner_head?_listingSections (hdb : s.db.Distinct) {mode : ListingMode} (hmode : mode ≠ .effective)
    {path : List String} (h : (s.levelOf path name).isSome) :
    (listingSections name (s.treesRead name).1 mode).head?.any (·.owner == name) := by
  obtain ⟨t, others, htrees⟩ := exists_treesRead_eq_cons h
  have hstored : t.levelAt path = s.levelOf path name :=
    levelAt_of_mem_treesRead hdb (by rw [htrees]; exact List.mem_cons_self) path
  have hnonempty : t.root.isEmpty = false := by
    refine Bool.eq_false_iff.2 fun hempty ↦ ?_
    rw [← hstored, Tree.levelAt_of_isEmpty hempty] at h
    exact nomatch h
  cases mode with
  | effective => exact absurd rfl hmode
  | raw => simp [listingSections, htrees]
  | detailed => simp [listingSections, htrees, hnonempty]

/-- **Whether the own tree decides can be told from sections** that say what the stored trees of their owners say,
if it is the first of them whenever it says anything. -/
theorem ownDecides_of_levelAt {path : List String} {sections : List OwnedTree}
    (hstored : ∀ t ∈ sections, t.tree.levelAt path = s.levelOf path t.owner)
    (hfirst : (s.levelOf path name).isSome → sections.head?.any (·.owner == name)) :
    ownDecides sections path (sections.head?.any (·.owner == name)) =
      (!path.isEmpty && (s.levelOf path name).isSome) := by
  cases sections with
  | nil =>
    have hnone : (s.levelOf path name).isSome = false := Bool.eq_false_iff.2 fun h ↦ nomatch hfirst h
    simp [ownDecides, hnone]
  | cons t rest =>
    have hhead : (t :: rest).head?.any (·.owner == name) = (t.owner == name) := rfl
    rw [hhead] at hfirst ⊢
    by_cases howner : t.owner = name
    · have hlevel := hstored t List.mem_cons_self
      rw [ownDecides, beq_iff_eq.2 howner, Bool.true_and, decision?_trace_eq_zero, hlevel, howner]
    · have hnone : (s.levelOf path name).isSome = false :=
        Bool.eq_false_iff.2 fun h ↦ howner (eq_of_beq (hfirst h))
      rw [ownDecides, beq_eq_false_iff_ne.2 howner, Bool.false_and, hnone, Bool.and_false]

/-- **The sections of a listing say what the trees of the principal say**, and whether it is the own one that
decides. -/
theorem evaluateFor_listingSections (hdb : s.db.Distinct) {mode : ListingMode} (hmode : mode ≠ .effective)
    (path : List String) :
    let sections := listingSections name (s.treesRead name).1 mode
    evaluateFor s.homes sections path name (sections.head?.any (·.owner == name)) = s.evaluation path name := by
  refine evaluateFor_congr _ _ ?_ ?_
  · rw [verdicts_listingSections _ _ hmode, verdicts_treesRead hdb]
  · rw [ownDecides_treesOf]
    refine ownDecides_of_levelAt (fun t ht ↦ ?_) (owner_head?_listingSections hdb hmode)
    exact levelAt_of_mem_treesRead hdb (listingSections_subset _ _ hmode ht) path

/-- What a listing shows that is not by the default tree. -/
theorem eq_of_listing_eq_ok {mode : Option ListingMode} {l : Listing} (h : s.listing name mode = .ok l)
    (hfallback : l.fallback = false) : l = s.shown name mode false := by
  rw [listing] at h
  rcases hfalls : s.fallback? name with e | fallback
  · rw [hfalls] at h
    exact nomatch h
  · rw [hfalls] at h
    obtain rfl := Except.ok.inj h
    obtain rfl : fallback = false := hfallback
    rfl

/-- **A listing explains the levels of a principal.** Whoever evaluates the sections that are shown, the first of them
as the own one if it is, finds the level and the source that the service gives right after. -/
theorem listing_explains_levels (hdb : s.db.Distinct) {mode : Option ListingMode} {l : Listing}
    (hrun : s.run (Call.list name mode) = (.ok l, s')) (hmode : l.mode ≠ .effective)
    (hfallback : l.fallback = false) (path : Value) (cwd : Option String) :
    s'.run (Call.effectiveLevel path name cwd) =
      (((s'.resolver.resolve path (some name) cwd false).mapError .invalidPath).map fun segments ↦
        evaluateFor s'.homes l.sections segments name (l.sections.head?.any (·.owner == name)), s') := by
  rcases s.run_list_cases name mode with hlist | ⟨-, e, s'', hlist⟩
  · rw [hrun, Prod.mk.injEq] at hlist
    obtain ⟨hl, rfl⟩ := hlist
    obtain rfl := eq_of_listing_eq_ok hl.symm hfallback
    cases hpath : (s.afterRead name).resolver.resolve path (some name) cwd false with
    | error e =>
      rw [Call.effectiveLevel, run_bind, run_resolvePath, hpath]
      rfl
    | ok segments =>
      rw [(settled_afterRead hdb name).run_effectiveLevel hpath, evaluation_afterRead hdb,
        (s.sameBut_afterRead name).homes_eq, ← evaluateFor_listingSections hdb hmode]
      rfl
  · cases hrun.symm.trans hlist

/-- A player in a group that is there and in one that is gone. -/
theorem listing_explains_levels_bob :
    let s : Service := {
      db := {
        trees := [("*", Tree.ofEntries (some .read) []), ("Arch_law", Tree.ofEntries none [("data", .leaf .write)]),
          ("bob", { root := { own := some .read }, groups := ["Arch_gone", "Arch_law"] })] }
      store := some {} }
    ∃ l s', s.run (Call.list "bob" (some .detailed)) = (.ok l, s') ∧
      l.sections.map (·.owner) = ["bob", "Arch_law", "*"] ∧
      s'.run (Call.effectiveLevel (.text "/data") "bob" none) =
        (.ok (evaluateFor s'.homes l.sections ["data"] "bob" true), s') ∧
      (evaluateFor s'.homes l.sections ["data"] "bob" true).level = some .write := by
  intro s
  have hlist : ((s.run (Call.list "bob" (some .detailed))).1.toOption.map fun l ↦
      (l.mode, l.fallback, l.sections.map (·.owner), l.sections.head?.any (·.owner == "bob"),
        (evaluateFor (s.run (Call.list "bob" (some .detailed))).2.homes l.sections ["data"] "bob" true).level)) =
          some (.detailed, false, ["bob", "Arch_law", "*"], true, some .write) := by decide +kernel
  have hpath : (s.run (Call.list "bob" (some .detailed))).2.resolver.resolve (.text "/data") (some "bob") none
      false = .ok ["data"] := congrArg Except.ok (by decide +kernel)
  have hdb : s.db.Distinct := by
    unfold Database.Distinct
    decide
  clear_value s
  rcases hrun : s.run (Call.list "bob" (some .detailed)) with ⟨_ | l, s'⟩
  · rw [hrun] at hlist
    exact nomatch hlist
  rw [hrun] at hlist hpath
  simp only [Except.toOption, Option.map_some, Option.some.injEq, Prod.mk.injEq] at hlist
  obtain ⟨hmode, hfallback, howners, howns, hlevel⟩ := hlist
  have hexplains := listing_explains_levels hdb hrun (by simp [hmode]) hfallback (.text "/data") none
  rw [hpath, howns] at hexplains
  exact ⟨l, s', rfl, howners, hexplains, hlevel⟩

/-! ### Listing twice -/

/-- To look up what is settled changes nothing. -/
theorem Settled.afterRead_eq (h : s.Settled name) : s.afterRead name = s := by
  rw [afterRead]
  rcases h with rfl | hpruned
  · rfl
  · rw [afterLookup, if_pos hpruned, ite_self]

theorem listing_of_has (h : s.db.has name) (mode : Option ListingMode) :
    s.listing name mode = .ok (s.shown name mode false) := by
  rw [listing, fallback?, h, Bool.or_true, if_pos rfl]
  rfl

/-- A listing is the same again, unless the entry of the principal went. -/
theorem listing_afterRead (hdb : s.db.Distinct) (hnot : ¬s.db.OnlyStale name) (mode : Option ListingMode) :
    (s.afterRead name).listing name mode = s.listing name mode := by
  cases hhas : s.db.has name with
  | false => rw [afterRead_of_not_has hhas]
  | true =>
    have hstays : (s.afterRead name).db.has name := by
      by_cases hname : name = defaultPrincipal
      · subst hname
        exact hhas
      · rw [Database.has_eq_isSome_find?, db_afterRead_of_ne hname,
          hdb.find?_healed_of_not_onlyStale _ hname hnot, Option.isSome_map]
        exact hhas
    have htrees := treesRead_afterRead hdb hnot
    rw [listing_of_has hstays, listing_of_has hhas, shown, shown]
    simp only [Bool.false_eq_true, if_false, htrees]

/-- An empty tree is shown only where trees are listed as they are stored. -/
theorem listingSections_cons_empty (listedAs : String) (trees : List OwnedTree) (mode : ListingMode) :
    listingSections listedAs (⟨name, {}⟩ :: trees) mode =
      (if mode = .raw then [⟨name, {}⟩] else []) ++ listingSections listedAs trees mode := by
  cases mode <;> rfl

theorem sections_shown_of_onlyStale (hdb : s.db.Distinct) (h : s.db.OnlyStale name)
    (mode : Option ListingMode) :
    (s.shown name mode false).sections =
      (if (s.shown name mode false).mode = .raw then [⟨name, {}⟩] else []) ++
        ((s.afterRead name).shown name mode false).sections :=
  (congrArg (listingSections name · _) (treesRead_of_onlyStale hdb h)).trans
    (listingSections_cons_empty name _ _)

/-- What is listed of a name without an entry. -/
theorem listing_of_not_has (h : s.db.has name = false) (mode : Option ListingMode) :
    s.listing name mode =
      if s.rules.isFake name ∨ 1 < (s.db.groupsOf s.groupSources name).groups.length then
        .ok (s.shown name mode false)
      else if s.rules.isGroup name then .error (.unknownPrincipal name "no such group in the database")
      else if s.playerExists name then .ok (s.shown name mode true)
      else .error (.unknownPrincipal name "no such player") := by
  rw [listing, fallback?, fallsBackResult, h, Bool.or_false]
  by_cases hfake : s.rules.isFake name
  · rw [if_pos hfake, if_pos (.inl hfake)]
    rfl
  by_cases hmany : 1 < (s.db.groupsOf s.groupSources name).groups.length
  · rw [if_neg hfake, if_pos hmany, if_pos (.inr hmany)]
    rfl
  rw [if_neg hfake, if_neg hmany, if_neg (not_or.2 ⟨hfake, hmany⟩)]
  split
  · rfl
  · cases s.playerExists name <;> rfl

/-- **A listing is the same when it is made again**, or fails for the same reason, unless the entry of a player
goes. -/
theorem listing_again (hdb : s.db.Distinct) (hsave : s.CanSave) (name : String) (mode : Option ListingMode) :
    ∃ r s' r', s.run (Call.list name mode) = (r, s') ∧ s'.run (Call.list name mode) = (r', s') ∧
      (¬s.db.OnlyStale name → r' = r) ∧
      (s.db.OnlyStale name → ∃ l sections, r = .ok l ∧ l.listedAs = name ∧ l.fallback = false ∧
        l.sections = (if l.mode = .raw then [⟨name, {}⟩] else []) ++ sections ∧ s'.db.has name = false ∧
        r' =
          if s.rules.isFake name ∨ 1 < (s'.db.groupsOf s'.groupSources name).groups.length then
            .ok { l with sections }
          else if s.rules.isGroup name then
            .error (.unknownPrincipal name "no such group in the database")
          else if s.playerExists name then
            let mode := mode.getD .effective
            .ok ⟨name, defaultPrincipal, mode,
              listingSections defaultPrincipal [⟨defaultPrincipal, s'.db.defaultTree⟩] mode, true⟩
          else .error (.unknownPrincipal name "no such player")) := by
  have hsame := s.sameBut_afterRead name
  have hsettled := settled_afterRead hdb name
  have hrun : s.run (Call.list name mode) = (s.listing name mode, s.afterRead name) :=
    (s.run_list_cases name mode).resolve_right fun h ↦ h.1 hsave
  have hagain : (s.afterRead name).run (Call.list name mode) =
      ((s.afterRead name).listing name mode, s.afterRead name) := by
    have hlist := ((s.afterRead name).run_list_cases name mode).resolve_right fun h ↦
      h.1 ((canSave_afterRead_iff name).2 hsave)
    rwa [hsettled.afterRead_eq] at hlist
  refine ⟨_, _, _, hrun, hagain, fun hnot ↦ listing_afterRead hdb hnot mode, fun h ↦ ?_⟩
  have hhas : s.db.has name := by
    obtain ⟨t, hfind, -⟩ := h.entry
    rw [Database.has_eq_isSome_find?, hfind]
    rfl
  have hgone : (s.afterRead name).db.has name = false := by
    rw [Database.has_eq_isSome_find?, db_afterRead_of_ne h.other, h.find?_healed _ hdb]
    rfl
  refine ⟨_, _, listing_of_has hhas mode, rfl, rfl, sections_shown_of_onlyStale hdb h mode, hgone, ?_⟩
  rw [listing_of_not_has hgone, hsame.rules_eq, hsame.playerExists_eq]
  rfl

/-- An archwizard of some affiliation, whose entry only has a membership in a group that is gone. -/
theorem listing_again_bob :
    let directory : Directory := { players := [("bob", { level := 45, affiliations := ["law"] })] }
    let s : Service := {
      db := {
        trees := [("*", Tree.ofEntries (some .read) []), ("Arch_full", Tree.ofEntries (some .grant) []),
          ("Arch_law", Tree.ofEntries none [("data", .leaf .write)]), ("bob", { groups := ["Arch_gone"] })] }
      store := some {}
      identity := some directory
      affiliations := some directory }
    ∃ l sections s', s.run (Call.list "bob" (some .raw)) = (.ok l, s') ∧ l.sections = ⟨"bob", {}⟩ :: sections ∧
      s'.run (Call.list "bob" (some .raw)) = (.ok { l with sections }, s') := by
  intro directory s
  have hdb : s.db.Distinct := by
    unfold Database.Distinct
    decide
  have hstale : s.db.OnlyStale "bob" :=
    ⟨by decide, by decide, { groups := ["Arch_gone"] }, rfl, by decide, by decide, by decide⟩
  have hmany : 1 < ((s.run (Call.list "bob" (some .raw))).2.db.groupsOf
      (s.run (Call.list "bob" (some .raw))).2.groupSources "bob").groups.length := by decide +kernel
  have hraw : (s.run (Call.list "bob" (some .raw))).1.toOption.map (·.mode) = some .raw := by decide +kernel
  obtain ⟨r, s', r', hrun, hagain, -, hgoes⟩ := listing_again hdb (by decide) "bob" (some .raw)
  obtain ⟨l, sections, rfl, -, -, hsections, -, rfl⟩ := hgoes hstale
  rw [hrun] at hmany hraw
  rw [if_pos (.inr hmany)] at hagain
  rw [if_pos (Option.some.inj hraw)] at hsections
  exact ⟨l, sections, s', hrun, hsections, hagain⟩

/-- **A listing that makes the entry of a player go** is followed by another one, of the default tree. -/
theorem listing_changed_by_listing :
    let s : Service := {
      db := { trees := [("*", Tree.ofEntries (some .read) []), ("bob", { groups := ["Arch_gone"] })] }
      store := some {}
      identity := some { players := [("bob", {})] } }
    let list := Call.list "bob" (some .detailed)
    s.CanSave ∧ (s.run list).1.toOption.map (fun l ↦ (l.listedAs, l.fallback)) = some ("bob", false) ∧
      ((s.run list).2.run list).1.toOption.map (fun l ↦ (l.listedAs, l.fallback)) = some ("*", true) := by
  decide +kernel

end Service

end PathAccess
