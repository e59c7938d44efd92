import PathAccess.Proofs.Database.WellFormed
import PathAccess.Proofs.Tree.Tidy
/-!
# Sound databases

What holds of every database that comes out of the seeded one: each entry is under a name of its own, and
its tree is well formed and tidy. No entry is empty. Only players have memberships, in groups and in
no group twice. Grades need no condition, since a tree holds nothing else.

A condition on each entry is kept by setting an entry that meets it, by removing one, and by replacing
memberships by others that meet it.
-/

namespace PathAccess

/-- What holds of the entry of a name. -/
structure Tree.SoundFor (rules : PrincipalRules) (name : String) (t : Tree) : Prop where
  /-- The children of each branch have distinct names that are not reserved. -/
  wellFormed : t.WellFormed
  /-- The children have names that paths can have, and no branch below the root is empty. -/
  tidy : t.Tidy
  /-- There are paths or memberships. -/
  occupied : t.isEmpty = false
  /-- Only a player has memberships. -/
  player : t.groups ≠ [] → rules.isPlayer name
  /-- No membership comes twice. -/
  nodup : t.groups.Nodup
  /-- Memberships are in groups. -/
  groups : ∀ group ∈ t.groups, rules.isGroup group

namespace Database

variable {db : Database}

/-- Distinct names, and under each of them an entry as it should be. -/
structure Sound (db : Database) : Prop where
  /-- The names are distinct. -/
  distinct : db.Distinct
  /-- The entries are sound. -/
  entries : ∀ name t, db.find? name = some t → t.SoundFor db.rules name

theorem Sound.wellFormed (h : db.Sound) : db.WellFormed where
  distinct := h.distinct
  trees := fun name ↦ by
    rw [treeOf]
    cases hfind : db.find? name with
    | none => exact wellFormed_empty
    | some t => exact (h.entries name t hfind).wellFormed

theorem Sound.tidy (h : db.Sound) (name : String) : (db.treeOf name).Tidy := by
  rw [treeOf]
  cases hfind : db.find? name with
  | none => exact Branch.tidy_of_children_eq_nil rfl
  | some t => exact (h.entries name t hfind).tidy

/-- Memberships are as they should be, also those of a name without an entry, which are none. -/
theorem Sound.memberships (h : db.Sound) (name : String) :
    (db.memberships name ≠ [] → db.rules.isPlayer name) ∧ (db.memberships name).Nodup ∧
      ∀ group ∈ db.memberships name, db.rules.isGroup group := by
  rw [Database.memberships, treeOf]
  cases hfind : db.find? name with
  | none => exact ⟨fun hne ↦ absurd rfl hne, List.nodup_nil, fun _ hmem ↦ absurd hmem List.not_mem_nil⟩
  | some t =>
    have ht := h.entries name t hfind
    exact ⟨ht.player, ht.nodup, ht.groups⟩

/-! ### Changes -/

theorem Sound.set (h : db.Sound) {name : String} {t : Tree} (ht : t.SoundFor db.rules name) :
    (db.set name t).Sound where
  distinct := h.distinct.set name t
  entries := fun name' t' hfind ↦ by
    rw [find?_set] at hfind
    split at hfind <;> rename_i heq
    · obtain rfl := Option.some.inj hfind
      rwa [heq]
    · exact h.entries name' t' hfind

theorem Sound.remove (h : db.Sound) (name : String) : (db.remove name).Sound where
  distinct := h.distinct.remove name
  entries := fun name' t' hfind ↦ by
    rw [h.distinct.find?_remove] at hfind
    split at hfind
    · exact nomatch hfind
    · exact h.entries name' t' hfind

/-- **Memberships may be replaced** by others in groups, each once, if the name is that of a player. An
entry that would be left empty goes. -/
theorem Sound.setMemberships (h : db.Sound) {name : String} {groups : List String}
    (hplayer : groups ≠ [] → db.rules.isPlayer name) (hnodup : groups.Nodup)
    (hgroups : ∀ group ∈ groups, db.rules.isGroup group) :
    (db.setMemberships name groups).Sound where
  distinct := h.distinct.setMemberships name groups
  entries := fun name' t' hfind ↦ by
    rw [rules_setMemberships]
    rw [h.distinct.find?_setMemberships] at hfind
    split at hfind <;> rename_i heq
    · subst heq
      split at hfind <;> rename_i hnone
      · obtain ⟨t, ht, hleft⟩ := Option.bind_eq_some_iff.1 hfind
        have hsound := h.entries name' t ht
        split at hleft <;> rename_i hroot
        · cases hleft
        · obtain rfl := Option.some.inj hleft
          have hoccupied : ({ t with groups := [] } : Tree).isEmpty = false := by
            simp [Tree.isEmpty, hroot]
          exact ⟨hsound.wellFormed, hsound.tidy, hoccupied, fun hne ↦ absurd rfl hne,
            List.nodup_nil, fun _ hmem ↦ absurd hmem List.not_mem_nil⟩
      · obtain rfl := Option.some.inj hfind
        have hoccupied : ({ db.treeOf name' with groups } : Tree).isEmpty = false := by
          simp [Tree.isEmpty, hnone]
        exact ⟨h.wellFormed.trees name', h.tidy name', hoccupied, hplayer, hnodup, hgroups⟩
    · exact h.entries name' t' hfind

/-! ### The first run -/

theorem soundFor_defaultSchema (rules : PrincipalRules) (name : String) :
    Tree.defaultSchema.SoundFor rules name where
  wellFormed := wellFormed_defaultSchema
  tidy := Tree.tidy_of_tests (by decide) (by decide)
  occupied := rfl
  player := fun hne ↦ absurd rfl hne
  nodup := List.nodup_nil
  groups := fun _ hmem ↦ nomatch hmem

/-- **The database of a first run is sound**, whatever the rules for names are. -/
theorem sound_seeded (rules : PrincipalRules) : (seeded rules).Sound where
  distinct := (wellFormed_seeded rules).distinct
  entries := fun name t hfind ↦ by
    have htests : ∀ e ∈ (seeded {}).trees, e.2.isEmpty = false ∧ e.2.groups = [] ∧
        (∀ child ∈ Entries.keys e.2.root.children, Path.IsSegment child) ∧
        Node.allTidy e.2.root.children = true := by decide
    have hwf := (wellFormed_seeded rules).trees name
    obtain ⟨hoccupied, hgroups, hnames, hbelow⟩ := htests _ (Entries.mem_of_find? hfind)
    rw [treeOf_of_find? _ hfind] at hwf
    have hnone : t.groups = [] := hgroups
    exact ⟨hwf, Tree.tidy_of_tests hnames hbelow, hoccupied, by simp [hnone], by simp [hnone],
      by simp [hnone]⟩

end Database

end PathAccess
