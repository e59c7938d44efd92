import PathAccess.Proofs.Database.Sound
import PathAccess.Proofs.Database.Thinned
import PathAccess.Proofs.Service.Confinement
import PathAccess.Proofs.Service.Decisions
/-!
# A service beside a thinned one

Two services stand **beside** each other if they are set up the same and can save, and the database of the
second is that of the first, thinned by memberships in groups that are gone (`Service.Beside`). This
presupposes that nobody who plays counts as a group (`Service.GroupsApart`): then an entry that goes with
its last memberships is never looked for as a group.

While nothing that is gone has a tree, both give the same levels and the same groups, and they stay beside
each other when the same is looked up in both (`Beside.evaluation_eq`, `Beside.afterLookup`), or when
one and the same change is made to both (`Beside.changed`). And what a lookup prunes in the second alone
only makes more memberships differ (`Beside.lookups_right`).
-/

namespace PathAccess

/-- **What several lookups prune** are memberships, the groups of which are lost. -/
theorem Database.Thinned.healedAll_self {db : Database} (hdb : db.Distinct)
    (hgroups : db.GroupsAreNoPlayers) (s : GroupSources) (names : List String) :
    Database.Thinned (Database.Lost db (db.healedAll s names)) db (db.healedAll s names) := by
  induction names generalizing db with
  | nil => exact (Database.Thinned.refl hdb hgroups).mono (fun _ ↦ False.elim) fun _ ↦ hgroups.of_lost
  | cons name names ih =>
    have hfirst := Database.Thinned.healed_self hdb hgroups s name
    have hrest := ih (hdb.healed s name) hfirst.groups_right
    have hlost : ∀ g, Database.Lost db ((db.healed s name).healedAll s names) g →
        db.rules.isPlayer g = false := fun _ ↦ hgroups.of_lost
    rw [Database.healedAll_cons]
    refine (hfirst.mono (fun g ↦ ?_) hlost).trans (hrest.mono (fun g ↦ ?_) ?_)
    · -- What the first lookup prunes does not come back.
      rintro ⟨n, hmem, hnot⟩
      exact ⟨n, hmem, fun hlater ↦ hnot ((hrest.memberships n).subset hlater)⟩
    · rintro ⟨n, hmem, hnot⟩
      exact ⟨n, (hfirst.memberships n).subset hmem, hnot⟩
    · rwa [hfirst.rules]

namespace Service

variable {s s' t t' : Service} {gone gone' : String → Prop}

/-! ### Players and groups -/

/-- Whether nobody who plays counts as a group, nor as the default. By the default rules and tiers this holds
of every database that comes out of the seeded one (`groupsApart_of_sound`). -/
structure GroupsApart (s : Service) : Prop where
  /-- No stored membership is in a player. -/
  memberships : s.db.GroupsAreNoPlayers
  /-- What can be joined is no player. -/
  joined : ∀ group, s.rules.isGroup group → s.db.rules.isPlayer group = false
  /-- The group of archwizards is no player. -/
  fullGroup : s.db.rules.isPlayer s.tiers.fullGroup = false
  /-- The group of the junior tier is no player. -/
  juniorGroup : s.db.rules.isPlayer s.tiers.juniorGroup = false
  /-- No group that comes with an affiliation is a player. -/
  affiliations : ∀ affiliation,
    s.db.rules.isPlayer (s.db.rules.groupForAffiliation affiliation) = false
  /-- The default is no player. -/
  default : s.db.rules.isPlayer defaultPrincipal = false

namespace GroupsApart

theorem derivedGroups (h : s.GroupsApart) (name : String) :
    ∀ g ∈ s.db.derivedGroups s.groupSources name, s.db.rules.isPlayer g = false := by
  intro g hg
  rcases Database.of_mem_derivedGroups hg with rfl | rfl | ⟨affiliation, rfl⟩
  · exact h.fullGroup
  · exact h.juniorGroup
  · exact h.affiliations affiliation

/-- Only what is said of memberships depends on the entries. -/
theorem of_sameBut (h : s.GroupsApart) (hsame : s.SameBut s'.db s')
    (hrules : s'.db.rules = s.db.rules) (hgroups : s'.db.GroupsAreNoPlayers) : s'.GroupsApart := by
  obtain ⟨store, events, heq⟩ := hsame
  rw [heq] at hgroups ⊢
  refine ⟨hgroups, ?_, ?_, ?_, ?_, ?_⟩
  all_goals rw [hrules]
  · exact h.joined
  · exact h.fullGroup
  · exact h.juniorGroup
  · exact h.affiliations
  · exact h.default

end GroupsApart

theorem isPlayer_eq_false_of_isGroup {rules : PrincipalRules} {name : String}
    (h : rules.isGroup name) : rules.isPlayer name = false := by
  rw [PrincipalRules.isPlayer, eq_of_beq h]
  rfl

/-- **By the default rules and tiers nobody who plays counts as a group**, when the database is sound. -/
theorem groupsApart_of_sound (hdb : s.db.Sound) (hrules : s.db.rules = {}) (hown : s.rules = {})
    (htiers : s.tiers = {}) : s.GroupsApart where
  memberships := fun name g hg ↦ isPlayer_eq_false_of_isGroup ((hdb.memberships name).2.2 g hg)
  joined := fun group hgroup ↦ by
    rw [hrules]
    rw [hown] at hgroup
    exact isPlayer_eq_false_of_isGroup hgroup
  fullGroup := by
    rw [hrules, htiers]
    decide
  juniorGroup := by
    rw [hrules, htiers]
    decide
  affiliations := fun affiliation ↦ by
    rw [hrules]
    exact isPlayer_eq_false_of_isGroup (isGroup_groupForAffiliation affiliation)
  default := by
    rw [hrules]
    decide

/-! ### Standing beside each other -/

/-- Whether two services differ, but for their stores and audit trails, only in memberships in groups that
are gone, which the second does not have. -/
structure Beside (gone : String → Prop) (s t : Service) : Prop where
  /-- They are set up the same. -/
  same : s.SameBut t.db t
  /-- The database of the second is thinned. -/
  thinned : Database.Thinned gone s.db t.db
  /-- Nobody who plays counts as a group. -/
  apart : s.GroupsApart
  /-- The first can save. -/
  canSave : s.CanSave
  /-- The second can save. -/
  canSave_right : t.CanSave

namespace Beside

theorem refl (hdb : s.db.Distinct) (h : s.GroupsApart) (hsave : s.CanSave) :
    Beside (fun _ ↦ False) s s :=
  ⟨.refl s, .refl hdb h.memberships, h, hsave, hsave⟩

theorem mono (h : Beside gone s t) (hle : ∀ g, gone g → gone' g)
    (hgone : ∀ g, gone' g → s.db.rules.isPlayer g = false) : Beside gone' s t :=
  ⟨h.same, h.thinned.mono hle hgone, h.apart, h.canSave, h.canSave_right⟩

/-- What is done to both keeps them beside each other, if the databases stay thinned. -/
theorem of_sameBut (h : Beside gone s t) (hs : s.SameBut s'.db s') (ht : t.SameBut t'.db t')
    (hsave : s'.CanSave) (hsave' : t'.CanSave) (hrules : s'.db.rules = s.db.rules)
    (hthinned : Database.Thinned gone s'.db t'.db) : Beside gone s' t' where
  same := by
    obtain ⟨_, _, hs⟩ := hs
    obtain ⟨_, _, ht⟩ := h.same.trans ht
    rw [hs, ht]
    exact ⟨_, _, rfl⟩
  thinned := hthinned
  apart := h.apart.of_sameBut hs hrules hthinned.groups
  canSave := hsave
  canSave_right := hsave'

variable (h : Beside gone s t)

include h

/-- Nothing is changed but what is recorded. -/
theorem heard (e e' : AuditEvent) : Beside gone (s.heard e) (t.heard e') := by
  have hs := s.sameBut_heard e
  have ht := t.sameBut_heard e'
  refine h.of_sameBut hs.self ht.self ?_ ?_ (by rw [hs.db_eq]) ?_
  · rw [CanSave, store_heard]
    exact h.canSave
  · rw [CanSave, store_heard]
    exact h.canSave_right
  · rw [hs.db_eq, ht.db_eq]
    exact h.thinned

/-- The databases are changed, which is recorded and saved. -/
theorem changed {d d' : Database} (hrules : d.rules = s.db.rules)
    (hthinned : Database.Thinned gone d d') (e e' : AuditEvent) :
    Beside gone (s.changed d e) (t.changed d' e') := by
  have hs := s.sameBut_changed d e
  have ht := t.sameBut_changed d' e'
  refine h.of_sameBut hs.self ht.self (canSave_changed_iff.2 h.canSave)
    (canSave_changed_iff.2 h.canSave_right) (by rw [hs.db_eq, hrules]) ?_
  rw [hs.db_eq, ht.db_eq]
  exact hthinned

variable (hlacks : t.db.Lacks gone)

include hlacks

/-! #### Lookups -/

/-- **The groups are the same.** -/
theorem groups_groupsOf (name : String) :
    (t.db.groupsOf t.groupSources name).groups = (s.db.groupsOf s.groupSources name).groups ∧
      (t.db.groupsOf t.groupSources name).explicit =
        (s.db.groupsOf s.groupSources name).explicit := by
  rw [h.same.groupSources_eq]
  exact h.thinned.groups_groupsOf hlacks s.groupSources name (h.apart.derivedGroups name)

/-- **Levels and their sources are the same.** -/
theorem evaluation_eq (path : List String) (name : String) :
    t.evaluation path name = s.evaluation path name := by
  refine evaluation_congr h.same.homes_eq ?_ fun n ↦
    Tree.levelAt_of_root_eq (h.thinned.root_treeOf n) path
  rw [priority, priority, (h.groups_groupsOf hlacks name).1]

/-- **To look up the groups of someone in both** changes nothing in how they stand. -/
theorem afterLookup (name : String) : Beside gone (s.afterLookup name) (t.afterLookup name) ∧
    (t.afterLookup name).db.Lacks gone := by
  have hs := s.sameBut_afterLookup name
  have ht := t.sameBut_afterLookup name
  rw [h.same.groupSources_eq] at ht
  refine ⟨h.of_sameBut hs.self ht.self ((canSave_afterLookup_iff name).2 h.canSave)
    ((canSave_afterLookup_iff name).2 h.canSave_right) ?_ ?_, ?_⟩
  · rw [hs.db_eq, Database.rules_healed]
  · rw [hs.db_eq, ht.db_eq]
    exact h.thinned.healed hlacks s.groupSources name
  · rw [ht.db_eq]
    exact h.thinned.lacks_healed hlacks s.groupSources name

theorem afterRead (name : String) : Beside gone (s.afterRead name) (t.afterRead name) ∧
    (t.afterRead name).db.Lacks gone := by
  rw [Service.afterRead, Service.afterRead]
  split
  · exact ⟨h, hlacks⟩
  · exact h.afterLookup hlacks name

omit hlacks in
/-- **A lookup in the second alone** makes more memberships differ, by those that it prunes. -/
theorem lookups_right {names : List String}
    (ht : t.SameBut (t.db.healedAll t.groupSources names) t') (hsave : t'.CanSave) :
    Beside (fun g ↦ gone g ∨ Database.Lost t.db t'.db g) s t' := by
  have hpruned := Database.Thinned.healedAll_self h.thinned.distinct_right h.thinned.groups_right
    t.groupSources names
  rw [← ht.db_eq] at hpruned
  have hlost : ∀ g, (gone g ∨ Database.Lost t.db t'.db g) → s.db.rules.isPlayer g = false := by
    rintro g (hgone | hlost)
    · exact h.thinned.gone g hgone
    · rw [← h.thinned.rules]
      exact h.thinned.groups_right.of_lost hlost
  refine (h.mono (fun _ ↦ Or.inl) hlost).of_sameBut (.refl s) ht.self h.canSave hsave rfl ?_
  refine (h.thinned.mono (fun _ ↦ Or.inl) hlost).trans (hpruned.mono (fun _ ↦ Or.inr) fun g hg ↦ ?_)
  rw [h.thinned.rules]
  exact hlost g hg

end Beside

end Service

end PathAccess
