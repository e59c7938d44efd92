import PathAccess.Database.Seed
import PathAccess.Proofs.Database.Memberships
import PathAccess.Proofs.Tree.Frame
/-!
# Thinned databases

To look up the groups of a player prunes memberships in groups that are gone, and an entry of which nothing
is left then goes. Two databases that began as one, and of which one was asked more often, differ in
this way: the one is the other, **thinned** (`Database.Thinned`). No root differs, only players have lost
memberships, and these are in groups that are gone.

As long as the groups that are gone do not come back, the difference cannot be told from the groups of
anyone (`Database.Thinned.groups_groupsOf`), and it stays what it is: pruning both databases keeps it
(`Database.Thinned.healed`), and so does every change that is made to one entry of both
(`Database.Thinned.of_find?`). To prune one database alone is to thin it (`Database.Thinned.healed_self`).
-/

namespace PathAccess

/-! ### Lists -/

/-- Whether a list is another one without some names, all of which are gone. -/
inductive Thinned (gone : String → Prop) : List String → List String → Prop
  /-- Nothing is left out of nothing. -/
  | nil : Thinned gone [] []
  /-- A name is kept. -/
  | keep (name : String) {l l' : List String} (h : Thinned gone l l') :
    Thinned gone (name :: l) (name :: l')
  /-- A name that is gone is left out. -/
  | drop {name : String} {l l' : List String} (hname : gone name) (h : Thinned gone l l') :
    Thinned gone (name :: l) l'

namespace Thinned

variable {gone gone' : String → Prop} {p : String → Bool} {l l' l'' : List String}

theorem refl (l : List String) : Thinned gone l l := by
  induction l with
  | nil => exact .nil
  | cons name l ih => exact .keep name ih

theorem mono (h : Thinned gone l l') (hle : ∀ g, gone g → gone' g) : Thinned gone' l l' := by
  induction h with
  | nil => exact .nil
  | keep name _ ih => exact .keep name ih
  | drop hname _ ih => exact .drop (hle _ hname) ih

theorem trans (h : Thinned gone l l') (h' : Thinned gone l' l'') : Thinned gone l l'' := by
  induction h generalizing l'' with
  | nil => exact h'
  | keep name _ ih =>
    cases h' with
    | keep _ h' => exact .keep name (ih h')
    | drop hname h' => exact .drop hname (ih h')
  | drop hname _ ih => exact .drop hname (ih h')

theorem subset (h : Thinned gone l l') : l' ⊆ l := by
  induction h with
  | nil => exact List.Subset.refl _
  | keep name _ ih => exact List.cons_subset_cons name ih
  | drop _ _ ih => exact List.subset_cons_of_subset _ ih

/-- Everything may be left out if everything is gone, and only then. -/
theorem nil_right_iff : Thinned gone l [] ↔ ∀ g ∈ l, gone g := by
  constructor
  · intro h
    induction l with
    | nil => exact fun _ hmem ↦ absurd hmem List.not_mem_nil
    | cons name l ih =>
      obtain _ | _ | ⟨hname, h⟩ := h
      exact List.forall_mem_cons.2 ⟨hname, ih h⟩
  · intro h
    induction l with
    | nil => exact .nil
    | cons name l ih =>
      obtain ⟨hname, h⟩ := List.forall_mem_cons.1 h
      exact .drop hname (ih h)

/-- A test that only fails for what is gone leaves nothing else out. -/
theorem filter (h : ∀ g ∈ l, p g = false → gone g) : Thinned gone l (l.filter p) := by
  induction l with
  | nil => exact .nil
  | cons name l ih =>
    obtain ⟨hname, h⟩ := List.forall_mem_cons.1 h
    cases hp : p name with
    | true =>
      rw [List.filter_cons_of_pos hp]
      exact .keep name (ih h)
    | false =>
      rw [List.filter_cons_of_neg (by simp [hp])]
      exact .drop (hname hp) (ih h)

/-- **What is left out does not pass** a test that fails for all that is gone. -/
theorem filter_eq (h : Thinned gone l l') (hp : ∀ g, gone g → p g = false) :
    l'.filter p = l.filter p := by
  induction h with
  | nil => rfl
  | keep name _ ih => simp only [List.filter_cons, ih]
  | drop hname _ ih => rw [List.filter_cons_of_neg (by simp [hp _ hname]), ih]

end Thinned

/-! ### Entries -/

/-- Whether an entry is another one, thinned: it has the same root and thinned memberships, or it is gone,
having held nothing but memberships that may go. -/
inductive ThinnedEntry (gone : String → Prop) : Option Tree → Option Tree → Prop
  /-- There is no entry. -/
  | none : ThinnedEntry gone none none
  /-- The entry is kept. It is not left empty by what it has lost. -/
  | kept {t t' : Tree} (root : t'.root = t.root) (groups : Thinned gone t.groups t'.groups)
    (occupied : t'.isEmpty → t.groups = []) : ThinnedEntry gone (some t) (some t')
  /-- The entry is dropped. -/
  | dropped {t : Tree} (root : t.root.isEmpty) (groups : ∀ g ∈ t.groups, gone g) :
    ThinnedEntry gone (some t) none

/-- The memberships of a tree cut to those that pass a test. If one does not and nothing is left, neither
is the tree. -/
def Tree.thin? (p : String → Bool) (t : Tree) : Option Tree :=
  if t.groups.all p then some t
  else if (t.groups.filter p).isEmpty && t.root.isEmpty then none
  else some { t with groups := t.groups.filter p }

/-- A tree as an entry; none if it holds nothing. -/
def Tree.occupied? (t : Tree) : Option Tree :=
  if t.isEmpty then none else some t

namespace Tree

variable {p q : String → Bool} {t u : Tree}

theorem thin?_congr (h : ∀ g ∈ t.groups, p g = q g) : t.thin? p = t.thin? q := by
  have hall : t.groups.all p = t.groups.all q := by
    rw [Bool.eq_iff_iff, List.all_eq_true, List.all_eq_true]
    exact forall₂_congr fun g hg ↦ by rw [h g hg]
  rw [thin?, thin?, hall, List.filter_congr h]

/-- What is left of the memberships passes the test. -/
theorem all_of_thin? (h : t.thin? p = some u) : ∀ g ∈ u.groups, p g := by
  unfold thin? at h
  split at h <;> rename_i hall
  · obtain rfl := Option.some.inj h
    exact List.all_eq_true.1 hall
  · split at h
    · cases h
    · obtain rfl := Option.some.inj h
      exact fun g hg ↦ (List.mem_filter.1 hg).2

theorem groups_subset_of_thin? (h : t.thin? p = some u) : u.groups ⊆ t.groups := by
  unfold thin? at h
  split at h
  · obtain rfl := Option.some.inj h
    exact List.Subset.refl _
  · split at h
    · cases h
    · obtain rfl := Option.some.inj h
      exact List.filter_sublist.subset

end Tree

namespace ThinnedEntry

variable {gone gone' : String → Prop} {p : String → Bool} {e e' e'' : Option Tree}

theorem refl (e : Option Tree) : ThinnedEntry gone e e := by
  cases e with
  | none => exact .none
  | some t => exact .kept rfl (.refl _) fun h ↦ List.isEmpty_iff.1 (Bool.and_eq_true_iff.1 h).2

theorem mono (h : ThinnedEntry gone e e') (hle : ∀ g, gone g → gone' g) :
    ThinnedEntry gone' e e' := by
  cases h with
  | none => exact .none
  | kept root groups occupied => exact .kept root (groups.mono hle) occupied
  | dropped root groups => exact .dropped root fun g hg ↦ hle g (groups g hg)

theorem trans (h : ThinnedEntry gone e e') (h' : ThinnedEntry gone e' e'') :
    ThinnedEntry gone e e'' := by
  cases h with
  | none => exact h'
  | dropped root groups =>
    cases h'
    exact .dropped root groups
  | @kept t t' root groups occupied =>
    cases h' with
    | @kept _ t'' root' groups' occupied' =>
      refine .kept (root'.trans root) (groups.trans groups') fun hempty ↦ occupied ?_
      have hroot : t'.root.isEmpty := by
        rw [← root']
        exact (Bool.and_eq_true_iff.1 hempty).1
      simp [Tree.isEmpty, hroot, occupied' hempty]
    | dropped root' groups' =>
      refine .dropped (root ▸ root') ?_
      exact Thinned.nil_right_iff.1 (groups.trans (Thinned.nil_right_iff.2 groups'))

/-- Thinning is no more than leaving out. -/
theorem thin? (h : ∀ t ∈ e, ∀ g ∈ t.groups, p g = false → gone g) :
    ThinnedEntry gone e (e.bind (Tree.thin? p)) := by
  cases e with
  | none => exact .none
  | some t =>
    have hgone := h t rfl
    rw [Option.bind_some, Tree.thin?]
    split
    · exact refl _
    split <;> rename_i hleft
    · obtain ⟨hgroups, hroot⟩ := Bool.and_eq_true_iff.1 hleft
      refine .dropped hroot fun g hg ↦ hgone g hg ?_
      have hnone := List.filter_eq_nil_iff.1 (List.isEmpty_iff.1 hgroups) g hg
      simpa using hnone
    · refine .kept rfl (.filter hgone) fun hempty ↦ absurd ?_ hleft
      have hboth := Bool.and_eq_true_iff.1 hempty
      exact Bool.and_eq_true_iff.2 ⟨hboth.2, hboth.1⟩

/-- **Thinning both entries** by a test that fails for all that is gone. -/
theorem thin?_thin? (h : ThinnedEntry gone e e') (hp : ∀ g, gone g → p g = false) :
    ThinnedEntry gone (e.bind (Tree.thin? p)) (e'.bind (Tree.thin? p)) := by
  cases h with
  | none => exact .none
  | @dropped t root groups =>
    rw [Option.bind_none, Option.bind_some, Tree.thin?]
    split
    · exact .dropped root groups
    · have hnone : t.groups.filter p = [] :=
        List.filter_eq_nil_iff.2 fun g hg ↦ by simp [hp g (groups g hg)]
      rw [if_pos (by simp [hnone, root])]
      exact .none
  | @kept t t' root groups occupied =>
    have hsame : t'.groups.filter p = t.groups.filter p := groups.filter_eq hp
    rw [Option.bind_some, Option.bind_some]
    by_cases hall : t.groups.all p
    · -- Where the first keeps all, nothing was left out that the second could lose.
      have hall' : t'.groups.all p := by
        rw [List.all_eq_true] at hall ⊢
        exact fun g hg ↦ hall g (groups.subset hg)
      rw [Tree.thin?, Tree.thin?, if_pos hall, if_pos hall']
      exact .kept root groups occupied
    · rw [Tree.thin?, Tree.thin?, if_neg hall, hsame, root]
      by_cases hall' : t'.groups.all p
      · have hkept : t'.groups = t.groups.filter p := by
          rw [← hsame, List.filter_eq_self.2 (List.all_eq_true.1 hall')]
        rw [if_pos hall', if_neg fun hnone ↦ ?_]
        · refine .kept root ?_ fun hempty ↦ ?_
          · rw [hkept]
            exact .refl _
          · rw [← hkept]
            exact List.isEmpty_iff.1 (Bool.and_eq_true_iff.1 hempty).2
        · have hempty : t'.isEmpty := by
            rw [Tree.isEmpty, hkept, root, Bool.and_comm]
            exact hnone
          exact hall (by simp [occupied hempty])
      · rw [if_neg hall']
        split
        · exact .none
        · exact .kept rfl (.refl _) fun hempty ↦
            List.isEmpty_iff.1 (Bool.and_eq_true_iff.1 hempty).2

/-- Trees with the same root and thinned memberships, neither kept if it holds nothing. -/
theorem occupied? {t t' : Tree} (root : t'.root = t.root) (groups : Thinned gone t.groups t'.groups) :
    ThinnedEntry gone t.occupied? t'.occupied? := by
  rw [Tree.occupied?, Tree.occupied?]
  by_cases hright : t'.isEmpty
  · obtain ⟨hroot, hnil⟩ := Bool.and_eq_true_iff.1 hright
    rw [if_pos hright]
    split
    · exact .none
    · exact .dropped (root ▸ hroot) (Thinned.nil_right_iff.1 (List.isEmpty_iff.1 hnil ▸ groups))
  · have hleft : ¬t.isEmpty := by
      intro hleft
      obtain ⟨hroot, hnil⟩ := Bool.and_eq_true_iff.1 hleft
      have hnil' := List.subset_nil.1 (List.isEmpty_iff.1 hnil ▸ groups.subset)
      exact hright (Bool.and_eq_true_iff.2 ⟨root ▸ hroot, List.isEmpty_iff.2 hnil'⟩)
    rw [if_neg hright, if_neg hleft]
    exact .kept root groups fun hempty ↦ absurd hempty hright

/-- What the tree of a name without an entry is, a dropped entry was. -/
theorem root_getD (h : ThinnedEntry gone e e') : (e'.getD {}).root = (e.getD {}).root := by
  cases h with
  | none => rfl
  | kept root groups occupied => exact root
  | @dropped t root groups =>
    have hroot : ({ t with groups := [] } : Tree).root = {} :=
      Tree.root_eq_of_isEmpty (by simp [Tree.isEmpty, root])
    exact hroot.symm

theorem groups_getD (h : ThinnedEntry gone e e') :
    Thinned gone (e.getD {}).groups (e'.getD {}).groups := by
  cases h with
  | none => exact .nil
  | kept root groups occupied => exact groups
  | dropped root groups => exact Thinned.nil_right_iff.2 groups

/-- **What is left of an entry without its memberships** is the same. -/
theorem bind_root (h : ThinnedEntry gone e e') :
    (e'.bind fun t ↦ if t.root.isEmpty then Option.none else some { t with groups := [] }) =
      e.bind fun t ↦ if t.root.isEmpty then Option.none else some { t with groups := [] } := by
  cases h with
  | none => rfl
  | kept root => simp only [Option.bind_some, root]
  | dropped root => rw [Option.bind_none, Option.bind_some, if_pos root]

end ThinnedEntry

/-! ### Databases -/

namespace Database

variable {db db' : Database} {s : GroupSources} {name : String}

/-- Whether memberships are only in what is no player. -/
def GroupsAreNoPlayers (db : Database) : Prop :=
  ∀ name, ∀ g ∈ db.memberships name, db.rules.isPlayer g = false

/-- The groups of which a membership is lost from one database to another. -/
def Lost (db db' : Database) (g : String) : Prop :=
  ∃ name, g ∈ db.memberships name ∧ g ∉ db'.memberships name

theorem GroupsAreNoPlayers.of_lost (h : db.GroupsAreNoPlayers) {g : String} (hlost : db.Lost db' g) :
    db.rules.isPlayer g = false := by
  obtain ⟨name, hmem, -⟩ := hlost
  exact h name g hmem

/-- Whether nothing that is gone has a tree. -/
def Lacks (db : Database) (gone : String → Prop) : Prop :=
  ∀ g, gone g → db.has g = false

theorem mem_memberships_of_find? {t : Tree} {g : String} (hfind : db.find? name = some t)
    (hg : g ∈ t.groups) : g ∈ db.memberships name := by
  rwa [memberships, treeOf_of_find? db hfind]

/-- The groups of no player are never looked up. -/
theorem healed_of_not_player (s : GroupSources) (h : ¬(name ≠ "" ∧ db.rules.isPlayer name)) :
    db.healed s name = db := by
  rw [healed_eq, if_pos (pruned_groupsOf_eq_nil_iff.2 fun hboth ↦ absurd hboth h)]

/-- **The entries after the groups of a principal were looked up**: that of a player is thinned to the groups
that have a tree. -/
theorem Distinct.find?_healed (h : db.Distinct) (s : GroupSources) (name name' : String) :
    (db.healed s name).find? name' =
      if name' = name ∧ name ≠ "" ∧ db.rules.isPlayer name then
        (db.find? name).bind (Tree.thin? db.has)
      else db.find? name' := by
  by_cases hplayer : name ≠ "" ∧ db.rules.isPlayer name
  · by_cases hname : name' = name
    · rw [if_pos ⟨hname, hplayer⟩, hname, healed_eq]
      have hstale : (db.groupsOf s name).pruned = [] ↔ _ := pruned_groupsOf_eq_nil_iff
      split <;> rename_i hpruned
      · -- Nothing is stale, so all of the memberships pass.
        have hall := hstale.1 hpruned hplayer
        cases hfind : db.find? name with
        | none => rfl
        | some t =>
          rw [memberships, treeOf_of_find? _ hfind] at hall
          rw [Option.bind_some, Tree.thin?, if_pos (List.all_eq_true.2 hall)]
      · rw [h.find?_setMemberships, if_pos rfl, explicit_groupsOf hpruned]
        cases hfind : db.find? name with
        | none =>
          -- Without an entry there are no memberships to be stale.
          refine absurd (hstale.2 fun _ g hg ↦ ?_) hpruned
          rw [memberships, treeOf, hfind] at hg
          cases hg
        | some t =>
          have htree := treeOf_of_find? db hfind
          have hall : ¬t.groups.all db.has := by
            intro hall
            refine hpruned (hstale.2 fun _ g hg ↦ List.all_eq_true.1 hall g ?_)
            rwa [memberships, htree] at hg
          rw [Option.bind_some, Option.bind_some, Tree.thin?, if_neg hall, memberships, htree]
          cases hgroups : t.groups.filter db.has <;> simp
    · rw [if_neg fun hboth ↦ hname hboth.1, healed_eq]
      split
      · rfl
      · rw [h.find?_setMemberships, if_neg hname]
  · rw [if_neg fun hboth ↦ hplayer hboth.2, healed_of_not_player s hplayer]

/-- Puts a tree in place of that of a name, or removes the entry if the tree holds nothing. -/
def put (db : Database) (name : String) (t : Tree) : Database :=
  if t.isEmpty then db.remove name else db.set name t

theorem rules_put (db : Database) (name : String) (t : Tree) : (db.put name t).rules = db.rules := by
  unfold put
  split <;> rfl

theorem Distinct.put (h : db.Distinct) (name : String) (t : Tree) : (db.put name t).Distinct := by
  unfold Database.put
  split
  · exact h.remove name
  · exact h.set name t

theorem Distinct.find?_put (h : db.Distinct) (name : String) (t : Tree) (name' : String) :
    (db.put name t).find? name' = if name' = name then t.occupied? else db.find? name' := by
  unfold Database.put Tree.occupied?
  split
  · exact h.find?_remove name name'
  · exact find?_set db name name' t

/-- Whether a database is another one, thinned by memberships in groups that are gone. Both are as databases
should be, and only entries of players differ. -/
structure Thinned (gone : String → Prop) (db db' : Database) : Prop where
  /-- The names are distinct. -/
  distinct : db.Distinct
  /-- So they are in the second. -/
  distinct_right : db'.Distinct
  /-- The rules for names are the same. -/
  rules : db'.rules = db.rules
  /-- The entries are thinned. -/
  entries : ∀ name, ThinnedEntry gone (db.find? name) (db'.find? name)
  /-- Those of all but players are the same. -/
  others : ∀ name, db.rules.isPlayer name = false → db'.find? name = db.find? name
  /-- Memberships are in no players. -/
  groups : db.GroupsAreNoPlayers
  /-- What is gone was no player. -/
  gone : ∀ g, gone g → db.rules.isPlayer g = false

namespace Thinned

variable {gone gone' : String → Prop}

theorem refl (hdb : db.Distinct) (hgroups : db.GroupsAreNoPlayers) :
    Thinned (fun _ ↦ False) db db :=
  ⟨hdb, hdb, rfl, fun _ ↦ .refl _, fun _ _ ↦ rfl, hgroups, fun _ h ↦ h.elim⟩

theorem mono (h : Thinned gone db db') (hle : ∀ g, gone g → gone' g)
    (hgone : ∀ g, gone' g → db.rules.isPlayer g = false) : Thinned gone' db db' :=
  ⟨h.distinct, h.distinct_right, h.rules, fun name ↦ (h.entries name).mono hle, h.others, h.groups,
    hgone⟩

theorem trans {db'' : Database} (h : Thinned gone db db') (h' : Thinned gone db' db'') :
    Thinned gone db db'' where
  distinct := h.distinct
  distinct_right := h'.distinct_right
  rules := h'.rules.trans h.rules
  entries := fun name ↦ (h.entries name).trans (h'.entries name)
  others := fun name hname ↦ by
    rw [h'.others name (by rwa [h.rules]), h.others name hname]
  groups := h.groups
  gone := h.gone

/-- **No root differs.** -/
theorem root_treeOf (h : Thinned gone db db') (name : String) :
    (db'.treeOf name).root = (db.treeOf name).root :=
  (h.entries name).root_getD

theorem memberships (h : Thinned gone db db') (name : String) :
    PathAccess.Thinned gone (db.memberships name) (db'.memberships name) :=
  (h.entries name).groups_getD

/-- What is no player has a tree in both or in neither. -/
theorem has_eq (h : Thinned gone db db') (hname : db.rules.isPlayer name = false) :
    db'.has name = db.has name := by
  rw [has_eq_isSome_find?, has_eq_isSome_find?, h.others name hname]

theorem groups_right (h : Thinned gone db db') : db'.GroupsAreNoPlayers := by
  intro name g hg
  rw [h.rules]
  exact h.groups name g ((h.memberships name).subset hg)

/-! #### Groups -/

/-- The test by which memberships are pruned, in the second database, for those of the first. -/
theorem filter_has (h : Thinned gone db db') (name : String) :
    (db.memberships name).filter db'.has = (db.memberships name).filter db.has :=
  List.filter_congr fun g hg ↦ h.has_eq (h.groups name g hg)

/-- **The groups of everyone are the same**, if nothing that is gone has a tree. -/
theorem groups_groupsOf (h : Thinned gone db db') (hlacks : db'.Lacks gone) (s : GroupSources)
    (name : String)
    (hderived : ∀ g ∈ db.derivedGroups s name, db.rules.isPlayer g = false) :
    (db'.groupsOf s name).groups = (db.groupsOf s name).groups ∧
      (db'.groupsOf s name).explicit = (db.groupsOf s name).explicit := by
  have hkept : (db'.memberships name).filter db'.has = (db.memberships name).filter db.has := by
    rw [(h.memberships name).filter_eq hlacks, h.filter_has]
  have hsources : db'.derivedGroups s name = db.derivedGroups s name := by
    rw [derivedGroups, derivedGroups, h.rules]
  have hadd := foldl_addDerived_congr (fun g hg ↦ h.has_eq (hderived g hg))
    ((db.memberships name).filter db.has)
  unfold groupsOf
  rw [h.rules]
  split
  · exact ⟨rfl, rfl⟩
  · rw [List.partition_eq_filter_filter, List.partition_eq_filter_filter, hkept, hsources]
    exact ⟨hadd, rfl⟩

/-! #### Changes of one entry -/

/-- **A change of one entry in both** keeps everything, if the new entries are related as entries should
be. -/
theorem of_find? (h : Thinned gone db db') {d d' : Database} {target : String} {e e' : Option Tree}
    (hd : d.Distinct) (hd' : d'.Distinct) (hrules : d.rules = db.rules) (hrules' : d'.rules = db'.rules)
    (hfind : ∀ n, d.find? n = if n = target then e else db.find? n)
    (hfind' : ∀ n, d'.find? n = if n = target then e' else db'.find? n)
    (entry : ThinnedEntry gone e e') (other : db.rules.isPlayer target = false → e' = e)
    (hgroups : ∀ t ∈ e, ∀ g ∈ t.groups, db.rules.isPlayer g = false) : Thinned gone d d' where
  distinct := hd
  distinct_right := hd'
  rules := by rw [hrules', hrules, h.rules]
  entries := fun n ↦ by
    rw [hfind, hfind']
    split
    · exact entry
    · exact h.entries n
  others := fun n hn ↦ by
    rw [hrules] at hn
    rw [hfind, hfind']
    split <;> rename_i htarget
    · exact other (htarget ▸ hn)
    · exact h.others n hn
  groups := fun n g hg ↦ by
    rw [hrules]
    rw [Database.memberships, treeOf, hfind] at hg
    split at hg
    · cases e with
      | none => cases hg
      | some t => exact hgroups t rfl g hg
    · exact h.groups n g hg
  gone := fun g hg ↦ by
    rw [hrules]
    exact h.gone g hg

/-- **A tree that is put in both**, with the memberships that are there. -/
theorem put (h : Thinned gone db db') {target : String} {t t' : Tree} (root : t'.root = t.root)
    (groups : t.groups = db.memberships target) (groups' : t'.groups = db'.memberships target) :
    Thinned gone (db.put target t) (db'.put target t') := by
  refine h.of_find? (h.distinct.put target t) (h.distinct_right.put target t')
    (rules_put db target t) (rules_put db' target t') (h.distinct.find?_put target t)
    (h.distinct_right.find?_put target t') (.occupied? root ?_) (fun hother ↦ ?_) fun u hu g hg ↦ ?_
  · rw [groups, groups']
    exact h.memberships target
  · have hsame : t'.groups = t.groups := by
      rw [groups, groups', Database.memberships, treeOf, h.others target hother]
      rfl
    have htree : t' = t := congr (congrArg Tree.mk root) hsame
    rw [htree]
  · obtain ⟨-, htree⟩ := Option.ite_none_left_eq_some.1 hu
    obtain rfl := Option.some.inj htree
    exact h.groups target g (groups ▸ hg)

/-- An entry that is removed from both. -/
theorem remove (h : Thinned gone db db') (target : String) :
    Thinned gone (db.remove target) (db'.remove target) :=
  h.of_find? (h.distinct.remove target) (h.distinct_right.remove target) rfl rfl
    (h.distinct.find?_remove target) (h.distinct_right.find?_remove target) .none (fun _ ↦ rfl)
    fun _ hmem ↦ absurd hmem (Option.not_mem_none _)

/-- An entry that is removed from the first, when the second has none. -/
theorem remove_left (h : Thinned gone db db') {target : String} (hnone : db'.find? target = none) :
    Thinned gone (db.remove target) db' := by
  refine h.of_find? (h.distinct.remove target) h.distinct_right rfl rfl
    (h.distinct.find?_remove target) (fun n ↦ ?_) .none (fun _ ↦ rfl)
    fun _ hmem ↦ absurd hmem (Option.not_mem_none _)
  split <;> rename_i hname
  · rw [hname, hnone]
  · rfl

/-- The default tree that is restored in both. -/
theorem resetDefault (h : Thinned gone db db') : Thinned gone db.resetDefault db'.resetDefault :=
  h.of_find? (h.distinct.set _ _) (h.distinct_right.set _ _) rfl rfl
    (fun n ↦ find?_set db defaultPrincipal n _) (fun n ↦ find?_set db' defaultPrincipal n _)
    (.refl (some Tree.defaultSchema)) (fun _ ↦ rfl) fun _ ht _ hg ↦ by
      obtain rfl := Option.some.inj ht
      cases hg

/-- **Memberships that are replaced in both.** Nothing is left then to tell the two entries apart. -/
theorem setMemberships (h : Thinned gone db db') (target : String) {groups : List String}
    (hgroups : ∀ g ∈ groups, db.rules.isPlayer g = false) :
    Thinned gone (db.setMemberships target groups) (db'.setMemberships target groups) := by
  have hnone := (h.entries target).bind_root
  have htree : ({ db'.treeOf target with groups } : Tree) = { db.treeOf target with groups } := by
    simp only [h.root_treeOf]
  refine h.of_find? (h.distinct.setMemberships target groups)
    (h.distinct_right.setMemberships target groups) (rules_setMemberships db target groups)
    (rules_setMemberships db' target groups) (fun n ↦ h.distinct.find?_setMemberships target n groups)
    (fun n ↦ h.distinct_right.find?_setMemberships target n groups) ?_ (fun _ ↦ ?_) fun t ht g hg ↦ ?_
  · rw [hnone, htree]
    exact .refl _
  · rw [hnone, htree]
  · split at ht
    · obtain ⟨u, -, hleft⟩ := Option.bind_eq_some_iff.1 ht
      split at hleft
      · cases hleft
      · obtain rfl := Option.some.inj hleft
        cases hg
    · obtain rfl := Option.some.inj ht
      exact hgroups g hg

/-- **To look up the groups of someone in both** prunes the same. -/
theorem healed (h : Thinned gone db db') (hlacks : db'.Lacks gone) (s : GroupSources)
    (name : String) : Thinned gone (db.healed s name) (db'.healed s name) := by
  by_cases hplayer : name ≠ "" ∧ db.rules.isPlayer name
  · have hthin : (db.find? name).bind (Tree.thin? db.has) =
        (db.find? name).bind (Tree.thin? db'.has) := by
      refine Option.bind_congr fun t ht ↦ Tree.thin?_congr fun g hg ↦ ?_
      exact (h.has_eq (h.groups name g (mem_memberships_of_find? ht hg))).symm
    have hfind : ∀ n, (db.healed s name).find? n =
        if n = name then (db.find? name).bind (Tree.thin? db.has) else db.find? n := by
      intro n
      rw [h.distinct.find?_healed]
      simp only [and_iff_left hplayer]
    have hfind' : ∀ n, (db'.healed s name).find? n =
        if n = name then (db'.find? name).bind (Tree.thin? db'.has) else db'.find? n := by
      intro n
      rw [h.distinct_right.find?_healed, h.rules]
      simp only [and_iff_left hplayer]
    refine h.of_find? (h.distinct.healed s name) (h.distinct_right.healed s name)
      (rules_healed db s name) (rules_healed db' s name) hfind hfind' ?_ ?_ ?_
    · rw [hthin]
      exact (h.entries name).thin?_thin? hlacks
    · intro hother
      cases hplayer.2.symm.trans hother
    · intro t ht g hg
      obtain ⟨t', hfind, hkept⟩ := Option.bind_eq_some_iff.1 ht
      exact h.groups name g (mem_memberships_of_find? hfind (Tree.groups_subset_of_thin? hkept hg))
  · rw [healed_of_not_player s hplayer,
      healed_of_not_player s (by rwa [h.rules])]
    exact h

/-- Where the groups are the same, what is pruned is the same as well. -/
theorem healed_of_groupsOf_eq (h : Thinned gone db db') {s : GroupSources} {name : String}
    (hsame : db'.groupsOf s name = db.groupsOf s name) :
    Thinned gone (db.healed s name) (db'.healed s name) := by
  rw [healed_eq, healed_eq, hsame]
  split
  · exact h
  · refine h.setMemberships name fun g hg ↦ h.groups name g ?_
    exact (db.explicit_sublist_memberships s name).subset hg

/-- What is gone stays without a tree when groups are looked up. -/
theorem lacks_healed (h : Thinned gone db db') (hlacks : db'.Lacks gone) (s : GroupSources)
    (name : String) : (db'.healed s name).Lacks gone := by
  intro g hg
  have hother : db'.rules.isPlayer g = false := by
    rw [h.rules]
    exact h.gone g hg
  have hsame : (db'.healed s name).find? g = db'.find? g := by
    rw [h.distinct_right.find?_healed, if_neg fun hname ↦ ?_]
    obtain ⟨rfl, -, hplayer⟩ := hname
    cases hplayer.symm.trans hother
  rw [has_eq_isSome_find?, hsame]
  exact hlacks g hg

/-! #### Pruning -/

/-- Pruning loses memberships in groups without a tree. -/
theorem healed_self (hdb : db.Distinct) (hgroups : db.GroupsAreNoPlayers) (s : GroupSources)
    (name : String) : Thinned (Lost db (db.healed s name)) db (db.healed s name) where
  distinct := hdb
  distinct_right := hdb.healed s name
  rules := rules_healed db s name
  entries := fun n ↦ by
    have hfind := hdb.find?_healed s name n
    split at hfind <;> rename_i hname
    · obtain ⟨rfl, -, -⟩ := hname
      rw [hfind]
      refine .thin? fun t ht g hg hstale ↦ ⟨n, mem_memberships_of_find? ht hg, fun hkept ↦ ?_⟩
      -- What a lookup leaves of the memberships passes the test.
      rw [Database.memberships, treeOf, hfind, ht, Option.bind_some] at hkept
      cases hthin : t.thin? db.has with
      | none =>
        rw [hthin] at hkept
        cases hkept
      | some u =>
        rw [hthin] at hkept
        cases (Tree.all_of_thin? hthin g hkept).symm.trans hstale
    · rw [hfind]
      exact .refl _
  others := fun n hn ↦ by
    rw [hdb.find?_healed, if_neg fun hname ↦ ?_]
    obtain ⟨rfl, -, hplayer⟩ := hname
    cases hplayer.symm.trans hn
  groups := hgroups
  gone := fun _ ↦ hgroups.of_lost

end Thinned

end Database

end PathAccess
