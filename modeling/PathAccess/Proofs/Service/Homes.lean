import PathAccess.Proofs.Service.Requests
import PathAccess.Proofs.Tree.Frame
/-!
# The database outside the homes of players

What players can change at all lies at or below their homes. This module gives the invariant of the
database that this leads to (`Confined`) and shows that an edit at or below a home keeps it
(`Confined.edited`). The invariant speaks of the trees and not of who may grant. Each tree says at the
paths outside the homes what the seeded one says, there are no stored memberships, and no group has
come or gone.

The last part rests on a fact about the first run. Each of its groups decides some path outside all
homes, so removing its entries below a home never empties its tree.
-/

namespace PathAccess

/-! ### Homes -/

/-- Whether a path is at or below one of the homes of a player. -/
def AtHome (name : String) (path : List String) : Prop :=
  ["d", name] <+: path ∨ ["players", name] <+: path

/-- Whether a path is outside the homes of some players. -/
def Outside (actors : String → Prop) (path : List String) : Prop :=
  ∀ a, actors a → ¬AtHome a path

theorem AtHome.mono {name : String} {path path' : List String} (h : AtHome name path)
    (hle : path <+: path') : AtHome name path' :=
  h.imp (·.trans hle) (·.trans hle)

/-- The homes lie below two directories. -/
theorem outside_of_head? {actors : String → Prop} {path : List String} (hd : path.head? ≠ some "d")
    (hplayers : path.head? ≠ some "players") : Outside actors path := by
  rintro a - (⟨rest, rfl⟩ | ⟨rest, rfl⟩)
  · exact hd rfl
  · exact hplayers rfl

theorem outside_of_length {actors : String → Prop} {path : List String} (h : path.length < 2) :
    Outside actors path := by
  rintro a - (hle | hle)
  · exact absurd hle.length_le (by simpa using h)
  · exact absurd hle.length_le (by simpa using h)

/-- The home of a name that is no modifier has an entry's directory in it, if it has the path at which
the actor's level for the entry is looked up. -/
theorem AtHome.editBase {name last : String} {path : List String} (hname : name ≠ restKey)
    (hpath : Ordinary path) (h : AtHome name ((path ++ [last]).filter (· != ownKey))) :
    AtHome name (PathAccess.editBase (path ++ [last])) := by
  rw [List.filter_append, hpath.filter_ne_ownKey] at h
  rw [editBase_concat]
  by_cases hown : last = ownKey
  · subst hown
    simpa [isModifier] using h
  · have hkeep : [last].filter (· != ownKey) = [last] := by simp [hown]
    rw [hkeep] at h
    by_cases hrest : last = restKey
    · subst hrest
      -- The `*` of a directory below the homes is not at home, since no player has that name.
      have hconcat : ∀ root, [root, name] <+: path ++ [restKey] → [root, name] <+: path := by
        intro root hle
        rcases List.prefix_concat_iff.1 hle with heq | hle
        · have hsplit : [root] ++ [name] = path ++ [restKey] := heq
          obtain ⟨-, hlast⟩ := List.append_inj' hsplit rfl
          exact absurd (List.head_eq_of_cons_eq hlast) hname
        · exact hle
      have hmodifier : isModifier restKey = true := rfl
      rw [if_pos hmodifier]
      exact h.imp (hconcat _) (hconcat _)
    · simpa [isModifier, hown, hrest] using h

/-! ### The invariant -/

/-- What holds of the database in all states of a run in which only `actors` act. -/
structure Confined (actors : String → Prop) (db : Database) : Prop where
  /-- The rules for names are the default. -/
  rules : db.rules = {}
  /-- The names are distinct. -/
  distinct : db.Distinct
  /-- The trees are well formed. -/
  wellFormed : ∀ name, (db.treeOf name).WellFormed
  /-- Nobody was added to a group. -/
  unjoined : ∀ name, db.memberships name = []
  /-- Outside the homes the trees say what they said at first. -/
  level : ∀ name path, Outside actors path →
    (db.treeOf name).levelAt path = ((Database.seeded {}).treeOf name).levelAt path
  /-- The groups are those of the first run. -/
  groups : ∀ name, PrincipalRules.isGroup {} name → db.has name = (Database.seeded {}).has name

namespace Database

/-! ### The first run -/

/-- Some paths outside all homes. -/
def outsidePaths : List (List String) :=
  [[], ["d"], ["help"], ["data", "Law"], ["data", "qc"], ["data", "www_docs"]]

theorem outside_of_mem_outsidePaths {actors : String → Prop} {path : List String}
    (h : path ∈ outsidePaths) : Outside actors path := by
  have hpath : path.length < 2 ∨ path.head? ≠ some "d" ∧ path.head? ≠ some "players" := by
    revert path
    decide
  rcases hpath with hlength | ⟨hd, hplayers⟩
  · exact outside_of_length hlength
  · exact outside_of_head? hd hplayers

/-- The trees of the first run are well formed and without memberships, and each decides some path
outside all homes. -/
theorem seeded_trees : ∀ e ∈ (seeded {}).trees,
    e.2.WellFormed ∧ e.2.groups = [] ∧
      ∃ path ∈ outsidePaths, (e.2.levelAt path).isSome := by
  decide

/-- The names of the first run are system names and built-in groups. -/
theorem seeded_names : ∀ e ∈ (seeded {}).trees,
    PrincipalRules.isPlayer {} e.1 = false ∧
      (PrincipalRules.isGroup {} e.1 → PrincipalRules.isStaticGroup {} e.1) := by
  decide

end Database

section Confined

variable {actors : String → Prop}

/-- **The invariant holds at first.** -/
theorem confined_seeded : Confined actors (Database.seeded {}) where
  rules := rfl
  distinct := by
    unfold Database.Distinct
    decide
  wellFormed := Database.treeOf_of_forall (by decide) fun e he ↦ (Database.seeded_trees e he).1
  unjoined := Database.treeOf_of_forall (P := fun t ↦ t.groups = []) rfl fun e he ↦
    (Database.seeded_trees e he).2.1
  level := fun _ _ _ ↦ rfl
  groups := fun _ _ ↦ rfl

variable {db db' : Database}

/-- A group that is there decides a path outside all homes. -/
theorem Confined.exists_levelAt_isSome (h : Confined actors db) {name : String}
    (hgroup : PrincipalRules.isGroup {} name) (hhas : db.has name) :
    ∃ path, Outside actors path ∧ ((db.treeOf name).levelAt path).isSome := by
  rw [h.groups name hgroup] at hhas
  obtain ⟨path, hpath, hsome⟩ := Database.of_has
    (P := fun _ t ↦ ∃ path ∈ Database.outsidePaths, (t.levelAt path).isSome)
    (fun e he ↦ (Database.seeded_trees e he).2.2) hhas
  have houtside : Outside actors path := Database.outside_of_mem_outsidePaths hpath
  exact ⟨path, houtside, by rwa [h.level name path houtside]⟩

/-- The invariant after the tree of one name is exchanged for one that says the same outside the
homes. -/
theorem Confined.set (h : Confined actors db) {target : String} {t : Tree} (hwf : t.WellFormed)
    (hgroups : t.groups = []) (hlevel : ∀ path, Outside actors path →
      t.levelAt path = (db.treeOf target).levelAt path)
    (hhas : PrincipalRules.isGroup {} target → db.has target) :
    Confined actors (db.set target t) where
  rules := h.rules
  distinct := h.distinct.set target t
  wellFormed := fun name ↦ by
    rw [Database.treeOf_set]
    split
    · exact hwf
    · exact h.wellFormed name
  unjoined := fun name ↦ by
    rw [Database.memberships, Database.treeOf_set]
    split
    · exact hgroups
    · exact h.unjoined name
  level := fun name path hpath ↦ by
    rw [Database.treeOf_set]
    split <;> rename_i heq
    · rw [hlevel path hpath, h.level target path hpath, heq]
    · exact h.level name path hpath
  groups := fun name hgroup ↦ by
    rw [Database.has_set, ← h.groups name hgroup]
    by_cases heq : name = target
    · subst heq
      simp [hhas hgroup]
    · simp [heq]

/-- The invariant after a tree goes that says nothing outside the homes. It is no group's. -/
theorem Confined.remove (h : Confined actors db) {target : String} (hlevel : ∀ path,
    Outside actors path → (db.treeOf target).levelAt path = none) :
    Confined actors (db.remove target) where
  rules := h.rules
  distinct := h.distinct.remove target
  wellFormed := fun name ↦ by
    rw [h.distinct.treeOf_remove]
    split
    · exact Branch.wellFormed_of_children_eq_nil rfl
    · exact h.wellFormed name
  unjoined := fun name ↦ by
    rw [Database.memberships, h.distinct.treeOf_remove]
    split
    · rfl
    · exact h.unjoined name
  level := fun name path hpath ↦ by
    rw [h.distinct.treeOf_remove]
    split <;> rename_i heq
    · rw [Tree.levelAt_of_isEmpty rfl, ← h.level name path hpath, heq, hlevel path hpath]
    · exact h.level name path hpath
  groups := fun name hgroup ↦ by
    rw [h.distinct.has_remove, ← h.groups name hgroup]
    by_cases heq : name = target
    · subst heq
      cases hhas : db.has name with
      | false => simp
      | true =>
        -- A group's tree decides a path outside all homes, so it is not the one that goes.
        obtain ⟨path, hpath, hsome⟩ := h.exists_levelAt_isSome hgroup hhas
        simp [hlevel path hpath] at hsome
    · simp [heq]

/-- **An edit at or below a home keeps the invariant.** -/
theorem Confined.edited (h : Confined actors db) {target a : String} {segments : List String}
    (hdb : Service.Edited db target segments db') (hproblem : grantPathProblem? segments = none)
    (ha : actors a) (hhome : AtHome a (editBase segments))
    (hgroup : PrincipalRules.isGroup {} target → db.has target) : Confined actors db' := by
  obtain ⟨path, last, rfl, hpath, hlast⟩ :=
    Service.exists_of_grantPathProblem?_eq_none hproblem
  have hwf : (db.treeOf target).WellFormed := h.wellFormed target
  have houtside : ∀ query, Outside actors query → ¬editBase (path ++ [last]) <+: query :=
    fun query hquery hle ↦ hquery a ha (hhome.mono hle)
  have hrevoked : ∀ query, Outside actors query →
      ((db.treeOf target).revoke (path ++ [last])).2.levelAt query =
        (db.treeOf target).levelAt query :=
    fun query hquery ↦ Tree.levelAt_revoke_of_not_prefix hwf (houtside query hquery)
  cases hdb with
  | granted g =>
    refine h.set ?_ (h.unjoined target) (fun query hquery ↦ ?_) hgroup
    · refine Branch.WellFormed.grant hwf (by simpa using hpath) ?_ g
      simpa using hlast
    · exact Tree.levelAt_grant_of_not_prefix hwf (houtside query hquery) g
  | removed has left =>
    refine h.set (hwf.revoke _) ?_ hrevoked hgroup
    rw [Tree.groups_revoke]
    exact h.unjoined target
  | principalRemoved has empty =>
    refine h.remove fun query hquery ↦ ?_
    rw [← hrevoked query hquery]
    exact Tree.levelAt_of_isEmpty (Bool.and_eq_true_iff.1 empty).1 query

end Confined

end PathAccess
