import PathAccess.Proofs.Tree.Reading
import PathAccess.Proofs.Tree.WellFormed
/-!
# What an edit leaves alone

An edit at a path is about the directory or file that the path names or, when it ends in a modifier,
about the directory that the modifier belongs to: its **base**. At every path that is not at or below
the base, a grant and a removal leave the level by the tree as it is (`levelAt_grant_of_not_prefix`,
`levelAt_revoke_of_not_prefix`), although both may split leaves, make branches, delete and fold them
on the way.

Three facts about one branch carry this. Splitting a leaf and making a branch that holds nothing
change no level (`levelFrom_below`), bringing a branch into its shortest form changes none either
(`levelFrom_compact`), and putting a child changes levels through that child only
(`levelFrom_putChild`).
-/

namespace PathAccess

/-- What an edit at a path is about: the path, without a modifier at its end. -/
def editBase : List String → List String
  | [] => []
  | [name] => if isModifier name then [] else [name]
  | name :: name' :: path => name :: editBase (name' :: path)

theorem editBase_cons_cons (name name' : String) (path : List String) :
    editBase (name :: name' :: path) = name :: editBase (name' :: path) := rfl

/-- What an edit is about, by the last name of its path. -/
theorem editBase_concat (path : List String) (name : String) :
    editBase (path ++ [name]) = if isModifier name then path else path ++ [name] := by
  induction path with
  | nil => rfl
  | cons name' path ih =>
    obtain ⟨next, rest, hnext⟩ := List.exists_cons_of_ne_nil
      (List.append_ne_nil_of_right_ne_nil path (List.cons_ne_nil name []))
    rw [List.cons_append, hnext, editBase_cons_cons, ← hnext, ih]
    split <;> rfl

theorem Ordinary.editBase {path : List String} (h : Ordinary path) :
    PathAccess.editBase path = path := by
  induction path with
  | nil => rfl
  | cons name path ih =>
    cases path with
    | nil => simp [PathAccess.editBase, h.isModifier_head]
    | cons name' path => rw [editBase_cons_cons, ih h.tail]

namespace Branch

variable {b : Branch}

/-! ### One branch -/

@[simp] theorem rest_putChild (b : Branch) (name : String) (n : Option Node) :
    (b.putChild name n).rest = b.rest := by
  cases n <;> rfl

@[simp] theorem own_putChild (b : Branch) (name : String) (n : Option Node) :
    (b.putChild name n).own = b.own := by
  cases n <;> rfl

theorem find?_putChild_self (h : (Entries.keys b.children).Nodup) (name : String)
    (n : Option Node) :
    Entries.find? (b.putChild name n).children name = n := by
  cases n with
  | none => exact Entries.find?_remove_self h name
  | some n => exact Entries.find?_set_self _ _ _

theorem find?_putChild_of_ne {name segment : String} (h : segment ≠ name) (n : Option Node) :
    Entries.find? (b.putChild name n).children segment = Entries.find? b.children segment := by
  cases n with
  | none => exact Entries.find?_remove_of_ne h _
  | some n => exact Entries.find?_set_of_ne h _ _

/-- **A split leaf and an empty branch say what was there before.** -/
theorem levelFrom_below (b : Branch) (name : String) (above : Level) (path : List String) :
    levelFrom (some (b.below name).toNode) above path =
      levelFrom (Entries.find? b.children name) above path := by
  unfold Branch.below
  split <;> rename_i hf
  · rw [hf]
    rfl
  · rw [hf]
    cases path with
    | nil => cases above <;> rfl
    | cons segment path => simp [levelFrom_toNode_cons]
  · rw [hf]
    cases path with
    | nil => cases above <;> rfl
    | cons segment path => simp [levelFrom_toNode_cons]

/-- An empty branch says what no branch says. -/
theorem levelFrom_of_isEmpty (h : b.isEmpty) (above : Level) (path : List String) :
    levelFrom (some b.toNode) above path = above := by
  rw [eq_of_isEmpty h]
  exact levelFrom_empty above path

/-- A branch says what the leaf says into which it folds. -/
theorem levelFrom_of_folded? {g : Grade} (h : b.folded? = some g) (above : Level)
    (path : List String) : levelFrom (some b.toNode) above path = some g := by
  obtain ⟨hchildren, hown, hrest⟩ := folded?_eq_some_iff.1 h
  cases path with
  | nil => cases above <;> simp [levelFrom_toNode_nil, answer, hown, hrest]
  | cons segment path => simp [levelFrom_toNode_cons, hchildren, hrest]

/-- **The shortest form of a branch says what the branch says.** -/
theorem levelFrom_compact (b : Branch) (above : Level) (path : List String) :
    levelFrom b.compact above path = levelFrom (some b.toNode) above path := by
  unfold Branch.compact
  split <;> rename_i hempty
  · rw [levelFrom_none, levelFrom_of_isEmpty hempty]
  · split <;> rename_i hfold
    · rw [levelFrom_leaf, levelFrom_of_folded? hfold]
    · rfl

/-- Putting a child changes levels through that child only. -/
theorem levelFrom_putChild (h : (Entries.keys b.children).Nodup) (name segment : String)
    (n : Option Node) (above : Level) (path : List String) :
    levelFrom (some (b.putChild name n).toNode) above (segment :: path) =
      if segment = name then levelFrom n (b.rest <|> above) path
      else levelFrom (some b.toNode) above (segment :: path) := by
  rw [levelFrom_toNode_cons, rest_putChild]
  split <;> rename_i hs
  · rw [hs, find?_putChild_self h]
  · rw [find?_putChild_of_ne hs, levelFrom_toNode_cons]

/-- Kept or in its shortest form, the branch below a grant has the same levels. -/
theorem exists_grant_cons_cons (b : Branch) (name name' : String) (path : List String)
    (g : Grade) :
    ∃ n, b.grant (name :: name' :: path) g = b.putChild name n ∧ ∀ above query,
      levelFrom n above query =
        levelFrom (some ((b.below name).grant (name' :: path) g).toNode) above query := by
  obtain ⟨n, heq, hn⟩ := grant_cons_cons b name name' path g
  refine ⟨n, heq, fun above query ↦ ?_⟩
  rcases hn with rfl | rfl
  · rfl
  · exact levelFrom_compact _ _ _

/-- A grant of an entry changes the modifiers only when it is one. -/
theorem grantEntry_of_ne_modifier {name : String} (hname : isModifier name = false) (g : Grade) :
    b.grantEntry name g =
      b.putChild name (if b.rest = some g then none else some (.leaf g)) := by
  obtain ⟨hown, hrest⟩ : name ≠ ownKey ∧ name ≠ restKey := by simpa [isModifier] using hname
  by_cases h : b.rest = some g <;> simp [grantEntry, hown, hrest, h, putChild]

theorem find?_of_ne_modifier {name : String} (hname : isModifier name = false) (b : Branch) :
    b.find? name = Entries.find? b.children name := by
  obtain ⟨hown, hrest⟩ : name ≠ ownKey ∧ name ≠ restKey := by simpa [isModifier] using hname
  simp [Branch.find?, hown, hrest]

theorem remove_of_ne_modifier {name : String} (hname : isModifier name = false) :
    b.remove name = b.putChild name none := by
  obtain ⟨hown, hrest⟩ : name ≠ ownKey ∧ name ≠ restKey := by simpa [isModifier] using hname
  simp [Branch.remove, hown, hrest, putChild]

/-! ### Grants -/

/-- Away from the root, a grant leaves the modifiers of the root alone. -/
theorem modifiers_grant {path : List String} (h : editBase path ≠ []) (g : Grade) :
    (b.grant path g).own = b.own ∧ (b.grant path g).rest = b.rest := by
  match path with
  | [] => exact absurd rfl h
  | [name] =>
    have hname : isModifier name = false :=
      Bool.eq_false_iff.2 fun hm ↦ h (by simp [editBase, hm])
    rw [grant, grantEntry_of_ne_modifier hname]
    simp
  | name :: name' :: path =>
    obtain ⟨n, heq, -⟩ := exists_grant_cons_cons b name name' path g
    simp [heq]

/-- **A grant leaves every level alone that is not at or below its base.** -/
theorem levelFrom_grant_of_not_prefix (hb : b.WellFormed) {path query : List String}
    (h : ¬editBase path <+: query) (g : Grade) (above : Level) :
    levelFrom (some (b.grant path g).toNode) above query =
      levelFrom (some b.toNode) above query := by
  -- Down the granted path, with any level above: a `*` that is passed stands above the rest.
  induction path generalizing b query above with
  | nil => exact absurd List.nil_prefix h
  | cons name path ih =>
    cases query with
    | nil =>
      obtain ⟨hown, hrest⟩ := modifiers_grant (b := b) (fun he ↦ h (he ▸ List.nil_prefix)) g
      simp only [levelFrom_toNode_nil, answer, hown, hrest]
    | cons segment query =>
      cases path with
      | nil =>
        by_cases hm : isModifier name
        · exact absurd (by simp [editBase, hm]) h
        · have hs : segment ≠ name := by
            rintro rfl
            exact h (by simp [editBase, hm])
          rw [grant, grantEntry_of_ne_modifier (by simpa using hm),
            levelFrom_putChild hb.distinct, if_neg hs]
      | cons name' path =>
        obtain ⟨n, heq, hn⟩ := exists_grant_cons_cons b name name' path g
        rw [heq, levelFrom_putChild hb.distinct]
        split <;> rename_i hs
        · subst hs
          rw [editBase_cons_cons, List.cons_prefix_cons, not_and] at h
          rw [hn, ih (hb.below_branch segment) (h rfl), levelFrom_below, levelFrom_toNode_cons]
        · rfl

/-! ### Removals -/

/-- There is nothing to be removed from an empty branch. -/
theorem revoke?_of_isEmpty (h : b.isEmpty) (path : List String) : b.revoke? path = none := by
  obtain rfl := eq_of_isEmpty h
  match path with
  | [] => rfl
  | [name] =>
    unfold Branch.revoke? Branch.find?
    split <;> simp [Entries.find?]
  | name :: name' :: path => rfl

/-- Away from the root, a removal leaves the modifiers of the root alone. -/
theorem modifiers_revoke? {path : List String} (h : editBase path ≠ []) {c : Branch}
    (hc : b.revoke? path = some c) : c.own = b.own ∧ c.rest = b.rest := by
  match path with
  | [] => exact absurd rfl h
  | [name] =>
    have hname : isModifier name = false :=
      Bool.eq_false_iff.2 fun hm ↦ h (by simp [editBase, hm])
    obtain ⟨-, rfl⟩ := revoke?_singleton_eq_some_iff.1 hc
    rw [remove_of_ne_modifier hname]
    simp
  | name :: name' :: path =>
    obtain ⟨own, rest, children, child, -, -, rfl⟩ := revoke?_cons_cons_eq_some_iff.1 hc
    simp

/-- **A removal leaves every level alone that is not at or below its base.** -/
theorem levelFrom_revoke?_of_not_prefix (hb : b.WellFormed) {path query : List String}
    (h : ¬editBase path <+: query) {c : Branch} (hc : b.revoke? path = some c) (above : Level) :
    levelFrom (some c.toNode) above query = levelFrom (some b.toNode) above query := by
  induction path generalizing b c query above with
  | nil => exact absurd List.nil_prefix h
  | cons name path ih =>
    cases query with
    | nil =>
      obtain ⟨hown, hrest⟩ := modifiers_revoke? (fun he ↦ h (he ▸ List.nil_prefix)) hc
      simp only [levelFrom_toNode_nil, answer, hown, hrest]
    | cons segment query =>
      cases path with
      | nil =>
        by_cases hm : isModifier name
        · exact absurd (by simp [editBase, hm]) h
        · have hs : segment ≠ name := by
            rintro rfl
            exact h (by simp [editBase, hm])
          obtain ⟨-, rfl⟩ := revoke?_singleton_eq_some_iff.1 hc
          rw [remove_of_ne_modifier (by simpa using hm), levelFrom_putChild hb.distinct,
            if_neg hs]
      | cons name' path =>
        obtain ⟨own, rest, children, child, hf, hchild, rfl⟩ :=
          revoke?_cons_cons_eq_some_iff.1 hc
        rw [levelFrom_putChild hb.distinct]
        split <;> rename_i hs
        · subst hs
          rw [editBase_cons_cons, List.cons_prefix_cons, not_and] at h
          have hbelow := Node.wellFormed_branch_iff.1 (hb.of_find? hf)
          rw [levelFrom_compact, ih hbelow (h rfl) hchild, levelFrom_toNode_cons, hf]
          rfl
        · rfl

end Branch

/-! ### Trees -/

namespace Tree

variable {t : Tree}

/-- The level by a tree, from the level below its root and from the modifiers of the root. -/
theorem levelAt_congr {u : Tree} {query : List String} (hown : t.root.own = u.root.own)
    (hrest : t.root.rest = u.root.rest)
    (h : levelFrom (some t.root.toNode) none query = levelFrom (some u.root.toNode) none query) :
    t.levelAt query = u.levelAt query := by
  cases query with
  | nil => simp only [levelAt, hown, hrest]
  | cons segment query => exact h

/-- **A grant leaves a tree's level alone at every path that is not at or below its base.** -/
theorem levelAt_grant_of_not_prefix (ht : t.WellFormed) {path query : List String}
    (h : ¬editBase path <+: query) (g : Grade) :
    (t.grant path g).levelAt query = t.levelAt query := by
  obtain ⟨hown, hrest⟩ :=
    Branch.modifiers_grant (b := t.root) (fun he ↦ h (he ▸ List.nil_prefix)) g
  exact levelAt_congr hown hrest (Branch.levelFrom_grant_of_not_prefix ht h g none)

/-- **A removal leaves a tree's level alone at every path that is not at or below its base.** -/
theorem levelAt_revoke_of_not_prefix (ht : t.WellFormed) {path query : List String}
    (h : ¬editBase path <+: query) : (t.revoke path).2.levelAt query = t.levelAt query := by
  unfold revoke
  split <;> rename_i hc
  · rfl
  · obtain ⟨hown, hrest⟩ := Branch.modifiers_revoke? (fun he ↦ h (he ▸ List.nil_prefix)) hc
    exact levelAt_congr hown hrest (Branch.levelFrom_revoke?_of_not_prefix ht h hc none)

theorem root_revoke (t : Tree) (path : List String) :
    (t.revoke path).2.root = (t.root.revoke? path).getD t.root := by
  rw [revoke]
  cases t.root.revoke? path <;> rfl

theorem root_eq_of_isEmpty (h : t.isEmpty) : t.root = {} :=
  Branch.eq_of_isEmpty (Bool.and_eq_true_iff.1 h).1

theorem groups_revoke (t : Tree) (path : List String) : (t.revoke path).2.groups = t.groups := by
  unfold revoke
  split <;> rfl

/-- A removal keeps a tree well formed. -/
theorem WellFormed.revoke (ht : t.WellFormed) (path : List String) :
    (t.revoke path).2.WellFormed := by
  unfold Tree.revoke
  split <;> rename_i hc
  · exact ht
  · exact Branch.WellFormed.revoke? ht hc

end Tree

end PathAccess
