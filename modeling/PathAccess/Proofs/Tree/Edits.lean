import PathAccess.Proofs.Tree.Frame
import PathAccess.Proofs.Tree.Keyed
/-!
# Edits

To revoke an entry is to set it to no access, so both edits of a tree are one: the entry at a path is set to
a level (`Branch.edit?`), and nothing comes of it if there is no entry to be removed.

At ordinary names an edit reads no more of a branch than its `*` and the child through which it goes, and
changes no more than that child (`Branch.exists_slot`). If it goes further down, the child becomes the
shortest form of the branch below after the same edit (`Branch.edit?_cons`). Nothing is lost by that form:
whoever goes down again finds the branch itself (`Branch.below_putChild_compact`). So two edits along one
path are, below their common part, two edits of one branch.
-/

namespace PathAccess

/-- A path of ordinary names does not end at a modifier. -/
theorem Ordinary.isModifier_getLast? {path : List String} (h : Ordinary path) :
    ∀ last ∈ path.getLast?, isModifier last = false := fun last hlast ↦
  (isReserved_eq_false_iff.1 (h last (List.mem_of_getLast? hlast))).1

namespace Branch

variable {b : Branch} {path : List String} {name : String} {l : Level}

/-! ### The shortest form -/

/-- **Nothing is lost by the shortest form**: the branch is found again on the way down. -/
theorem below_putChild_compact (hb : (Entries.keys b.children).Nodup) (name : String) (c : Branch) :
    (b.putChild name c.compact).below name = c := by
  rw [below, find?_putChild_self hb]
  cases hempty : c.isEmpty with
  | true => rw [compact_of_isEmpty hempty, eq_of_isEmpty hempty]
  | false =>
    cases hfold : c.folded? with
    | none =>
      rw [compact_eq_toNode hempty hfold]
      rfl
    | some g => rw [compact_of_folded? hfold, eq_of_folded? hfold]

theorem below_congr {c : Branch}
    (h : Entries.find? c.children name = Entries.find? b.children name) : c.below name = b.below name := by
  rw [below, below, h]

/-! ### One edit -/

/-- Sets the entry at a path to a level, where no access is to remove it; nothing if there is none to be
removed. -/
def edit? (b : Branch) (path : List String) (l : Level) : Option Branch :=
  match l with
  | some g => some (b.grant path g)
  | none => b.revoke? path

/-- The branch after an edit. One that finds nothing leaves it as it was. -/
def edited (b : Branch) (path : List String) (l : Level) : Branch :=
  (b.edit? path l).getD b

theorem edited_of_edit?_eq_none (h : b.edit? path l = none) : b.edited path l = b := by
  rw [edited, h, Option.getD_none]

/-- A branch without children has nothing to be removed at a child's name or below. -/
theorem revoke?_of_children_eq_nil (h : b.children = [])
    (hlast : ∀ last ∈ path.getLast?, isModifier last = false) : b.revoke? path = none := by
  match path with
  | [] => rfl
  | [name] => simp [revoke?, find?_of_ne_modifier (hlast name rfl), h]
  | name :: name' :: path => simp [revoke?, h]

/-- **A grant of a child goes through the branch below**, which is put back in its shortest form. -/
theorem grant_cons (hne : path ≠ []) (hlast : ∀ last ∈ path.getLast?, isModifier last = false)
    (b : Branch) (name : String) (g : Grade) :
    b.grant (name :: path) g = b.putChild name ((b.below name).grant path g).compact := by
  match path with
  | [] => exact absurd rfl hne
  | [last] => simp [grant, hlast last rfl]
  | name' :: last :: path => rfl

/-- So does a removal, and it finds something exactly if it does there. -/
theorem revoke?_cons (hne : path ≠ []) (hlast : ∀ last ∈ path.getLast?, isModifier last = false)
    (b : Branch) (name : String) :
    b.revoke? (name :: path) =
      ((b.below name).revoke? path).map fun child ↦ b.putChild name child.compact := by
  obtain ⟨name', path, rfl⟩ := List.exists_cons_of_ne_nil hne
  cases h : Entries.find? b.children name with
  | none =>
    have hbelow : (b.below name).children = [] := by simp [below, h]
    rw [revoke?_of_children_eq_nil hbelow hlast]
    simp [revoke?, h]
  | some n =>
    cases n with
    | leaf g =>
      -- The removal does not split a leaf, and a split one names nothing.
      have hbelow : (b.below name).children = [] := by simp [below, h]
      rw [revoke?_of_children_eq_nil hbelow hlast]
      simp [revoke?, h]
    | branch own rest children => simp [revoke?, below, h]

/-- **An edit goes through the branch below**, which is put back in its shortest form. -/
theorem edit?_cons (hne : path ≠ []) (hpath : Ordinary path) (b : Branch) (name : String) (l : Level) :
    b.edit? (name :: path) l =
      ((b.below name).edit? path l).map fun child ↦ b.putChild name child.compact := by
  have hlast := hpath.isModifier_getLast?
  cases l with
  | none => exact revoke?_cons hne hlast b name
  | some g => exact congrArg some (grant_cons hne hlast b name g)

/-- **An edit reads the `*` and one child.** It puts the same in place of that child in every branch that
agrees in these. -/
theorem exists_slot (hpath : Ordinary (name :: path)) (b : Branch) (l : Level) :
    ∃ slot : Option (Option Node), ∀ c : Branch, c.rest = b.rest →
      Entries.find? c.children name = Entries.find? b.children name →
        c.edit? (name :: path) l = slot.map (c.putChild name) := by
  have hname := hpath.isModifier_head
  cases path with
  | cons name' path =>
    refine ⟨((b.below name).edit? (name' :: path) l).map compact, fun c _ hfind ↦ ?_⟩
    rw [edit?_cons (List.cons_ne_nil _ _) hpath.tail, below_congr hfind, Option.map_map]
    rfl
  | nil =>
    cases l with
    | some g =>
      refine ⟨some (if b.rest = some g then none else some (.leaf g)), fun c hrest _ ↦ ?_⟩
      exact congrArg some ((grantEntry_of_ne_modifier hname g).trans (by rw [hrest]))
    | none =>
      refine ⟨(Entries.find? b.children name).map fun _ ↦ none, fun c _ hfind ↦ ?_⟩
      rw [edit?, revoke?, find?_of_ne_modifier hname, hfind, remove_of_ne_modifier hname]
      cases Entries.find? b.children name <;> rfl

/-! ### What an edit leaves -/

/-- An edit leaves the branch, or the branch with another child. -/
theorem edited_cases (hpath : Ordinary (name :: path)) (b : Branch) (l : Level) :
    b.edited (name :: path) l = b ∨ ∃ n, b.edited (name :: path) l = b.putChild name n := by
  obtain ⟨slot, hslot⟩ := exists_slot hpath b l
  rw [edited, hslot b rfl rfl]
  cases slot with
  | none => exact Or.inl rfl
  | some n => exact Or.inr ⟨n, rfl⟩

theorem modifiers_edited (hpath : Ordinary (name :: path)) (b : Branch) (l : Level) :
    (b.edited (name :: path) l).own = b.own ∧ (b.edited (name :: path) l).rest = b.rest := by
  rcases edited_cases hpath b l with heq | ⟨n, heq⟩
  · simp [heq]
  · simp [heq]

/-- Other children are not touched. -/
theorem find?_edited_of_ne (hpath : Ordinary (name :: path)) {other : String} (h : other ≠ name)
    (b : Branch) (l : Level) :
    Entries.find? (b.edited (name :: path) l).children other = Entries.find? b.children other := by
  rcases edited_cases hpath b l with heq | ⟨n, heq⟩
  · rw [heq]
  · rw [heq, find?_putChild_of_ne h]

/-- What an edit makes of a child is the same in every branch that agrees in the `*` and the child. -/
theorem find?_edited_congr {c : Branch} (hpath : Ordinary (name :: path))
    (hb : (Entries.keys b.children).Nodup) (hc : (Entries.keys c.children).Nodup)
    (hrest : c.rest = b.rest) (hfind : Entries.find? c.children name = Entries.find? b.children name)
    (l : Level) : Entries.find? (c.edited (name :: path) l).children name =
      Entries.find? (b.edited (name :: path) l).children name := by
  obtain ⟨slot, hslot⟩ := exists_slot hpath b l
  rw [edited, edited, hslot b rfl rfl, hslot c hrest hfind]
  cases slot with
  | none => exact hfind
  | some n => exact (find?_putChild_self hc name n).trans (find?_putChild_self hb name n).symm

/-- An edit that goes further down puts back the shortest form of the branch below, if it finds its entry
there. -/
theorem edited_cons (hne : path ≠ []) (hpath : Ordinary path) (b : Branch) (name : String) (l : Level) :
    b.edited (name :: path) l =
      if ((b.below name).edit? path l).isSome then
        b.putChild name ((b.below name).edited path l).compact
      else b := by
  rw [edited, edit?_cons hne hpath, edited]
  cases (b.below name).edit? path l <;> rfl

/-- The child through which an edit finds its entry further down. -/
theorem find?_edited_self (hb : (Entries.keys b.children).Nodup) (hne : path ≠ []) (hpath : Ordinary path)
    (hfound : (b.edit? (name :: path) l).isSome) :
    Entries.find? (b.edited (name :: path) l).children name =
      ((b.below name).edited path l).compact := by
  rw [edit?_cons hne hpath, Option.isSome_map] at hfound
  rw [edited_cons hne hpath, if_pos hfound, find?_putChild_self hb]

/-- **The branch below an edit** is the edited branch below. -/
theorem below_edited (hb : (Entries.keys b.children).Nodup) (hne : path ≠ []) (hpath : Ordinary path)
    (name : String) (l : Level) :
    (b.edited (name :: path) l).below name = (b.below name).edited path l := by
  rw [edited_cons hne hpath]
  split <;> rename_i hfound
  · exact below_putChild_compact hb _ _
  · rw [edited_of_edit?_eq_none (Option.not_isSome_iff_eq_none.1 hfound)]

/-- An edit keeps a branch well formed. -/
theorem WellFormed.edited (hb : b.WellFormed) (hpath : Ordinary path) (l : Level) :
    (b.edited path l).WellFormed := by
  cases l with
  | some g => exact hb.grant hpath.dropLast hpath.groupsKey_notMem_getLast? g
  | none =>
    rw [Branch.edited, edit?]
    cases hc : b.revoke? path with
    | none => exact hb
    | some c => exact hb.revoke? hc

end Branch

/-! ### Trees -/

namespace Tree

variable {t : Tree} {path : List String} {l : Level}

/-- Sets the entry at a path to a level, where no access is to remove it. -/
def edit (t : Tree) (path : List String) (l : Level) : Tree :=
  match l with
  | some g => t.grant path g
  | none => (t.revoke path).2

theorem root_edit (t : Tree) (path : List String) (l : Level) :
    (t.edit path l).root = t.root.edited path l := by
  cases l with
  | some g => rfl
  | none => exact t.root_revoke path

theorem groups_edit (t : Tree) (path : List String) (l : Level) :
    (t.edit path l).groups = t.groups := by
  cases l with
  | some g => rfl
  | none => exact t.groups_revoke path

end Tree

end PathAccess
