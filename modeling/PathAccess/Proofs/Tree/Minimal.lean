import PathAccess.Proofs.Tree.Edits
import PathAccess.Proofs.Tree.Modifiers
import PathAccess.Proofs.Tree.Tidy
/-!
# Minimal trees

A tree is **minimal** if every branch below the root is in its shortest form: none is empty, and none is
equivalent to a leaf. An edit of a child keeps a tree so, and so does every removal, since all branches on
the way back are brought into their shortest form. After a grant of a modifier this is left out, and the
branch may have become equivalent to a leaf with it. Exactly then, and below the root, the tree is no longer
minimal (`Tree.minimal_after_edit`).

In a minimal tree the way down to a place and back again changes nothing (`Branch.Minimal.compact_below`).
So a grant where nothing is stored is undone by a removal, down to the order of the children
(`Tree.revoke_grant`).
-/

namespace PathAccess

/-- Neither empty branches nor branches equivalent to a leaf. -/
inductive Node.Minimal : Node → Prop
  | leaf (g : Grade) : Node.Minimal (.leaf g)
  | branch {own rest : Option Grade} {children : List (String × Node)}
      (nonempty : Branch.isEmpty ⟨own, rest, children⟩ = false)
      (unfolded : Branch.folded? ⟨own, rest, children⟩ = none)
      (below : ∀ c ∈ children, Node.Minimal c.2) : Node.Minimal (.branch own rest children)

/-- A branch with minimal children. It may itself be empty or equivalent to a leaf, as the root of a tree
may be. -/
def Branch.Minimal (b : Branch) : Prop :=
  ∀ c ∈ b.children, c.2.Minimal

/-- A tree in which every branch below the root is in its shortest form. -/
def Tree.Minimal (t : Tree) : Prop :=
  t.root.Minimal

theorem Node.minimal_branch_iff {own rest : Option Grade} {children : List (String × Node)} :
    (Node.branch own rest children).Minimal ↔ Branch.isEmpty ⟨own, rest, children⟩ = false ∧
      Branch.folded? ⟨own, rest, children⟩ = none ∧ Branch.Minimal ⟨own, rest, children⟩ := by
  constructor
  · rintro (_ | ⟨nonempty, unfolded, below⟩)
    exact ⟨nonempty, unfolded, below⟩
  · rintro ⟨nonempty, unfolded, below⟩
    exact .branch nonempty unfolded below

theorem Branch.minimal_toNode_iff {b : Branch} :
    b.toNode.Minimal ↔ b.isEmpty = false ∧ b.folded? = none ∧ b.Minimal :=
  Node.minimal_branch_iff

mutual

/-- The test for minimality. -/
def Node.isMinimal : Node → Bool
  | leaf _ => true
  | branch own rest children =>
    !Branch.isEmpty ⟨own, rest, children⟩ && (Branch.folded? ⟨own, rest, children⟩).isNone &&
      Node.allMinimal children

/-- The test on all children. -/
def Node.allMinimal : List (String × Node) → Bool
  | [] => true
  | (_, n) :: cs => Node.isMinimal n && Node.allMinimal cs

end

mutual

theorem Node.isMinimal_iff : (n : Node) → (n.isMinimal = true ↔ n.Minimal)
  | .leaf g => iff_of_true rfl (.leaf g)
  | .branch own rest children => by
    rw [Node.isMinimal, Bool.and_eq_true, Bool.and_eq_true, Bool.not_eq_true', Option.isNone_iff_eq_none,
      Node.allMinimal_iff children, Node.minimal_branch_iff, and_assoc]
    rfl

theorem Node.allMinimal_iff : (cs : List (String × Node)) →
    (Node.allMinimal cs = true ↔ ∀ c ∈ cs, c.2.Minimal)
  | [] => iff_of_true rfl fun _ h ↦ nomatch h
  | (name, n) :: cs => by
    rw [Node.allMinimal, Bool.and_eq_true, Node.isMinimal_iff n, Node.allMinimal_iff cs,
      List.forall_mem_cons]

end

instance (t : Tree) : Decidable t.Minimal :=
  decidable_of_iff (Node.allMinimal t.root.children = true) (Node.allMinimal_iff _)

namespace Branch

variable {b : Branch} {path : List String} {name : String} {n : Node}

theorem minimal_of_children_eq_nil (h : b.children = []) : b.Minimal := by
  simp [Minimal, h]

theorem Minimal.of_find? (h : b.Minimal) (hf : Entries.find? b.children name = some n) : n.Minimal :=
  h _ (Entries.mem_of_find? hf)

/-- The modifiers play no part, and neither do children that are dropped. -/
theorem Minimal.of_sublist (h : b.Minimal) {children : Entries String Node}
    (hs : children.Sublist b.children) (own rest : Option Grade) :
    Branch.Minimal ⟨own, rest, children⟩ :=
  fun c hc ↦ h c (hs.subset hc)

theorem minimal_setChild_iff (h : b.Minimal) : (b.setChild name n).Minimal ↔ n.Minimal := by
  constructor
  · intro hset
    exact hset.of_find? (Entries.find?_set_self _ _ _)
  · intro hn c hc
    rcases Entries.mem_set hc with heq | hc
    · rwa [heq]
    · exact h c hc

theorem Minimal.putChild (h : b.Minimal) {n : Option Node} (hn : ∀ n' ∈ n, n'.Minimal) :
    (b.putChild name n).Minimal := by
  cases n with
  | none => exact h.of_sublist (Entries.remove_sublist _ _) _ _
  | some n => exact (minimal_setChild_iff h).2 (hn n rfl)

theorem Minimal.below_branch (h : b.Minimal) (name : String) : (b.below name).Minimal := by
  unfold Branch.below
  split <;> rename_i hf
  · exact (Node.minimal_branch_iff.1 (h.of_find? hf)).2.2
  · exact minimal_of_children_eq_nil rfl
  · exact minimal_of_children_eq_nil rfl

/-- **The shortest form is minimal.** -/
theorem Minimal.of_mem_compact (h : b.Minimal) (hn : n ∈ b.compact) : n.Minimal := by
  rcases eq_of_mem_compact hn with ⟨g, rfl⟩ | ⟨rfl, hempty, hfold⟩
  · exact .leaf g
  · exact minimal_toNode_iff.2 ⟨hempty, hfold, h⟩

/-- **To go down and back changes nothing** in a minimal tree: what is there is the shortest form of the
branch that is made of it. -/
theorem Minimal.compact_below (h : b.Minimal) (name : String) :
    (b.below name).compact = Entries.find? b.children name := by
  unfold Branch.below
  split <;> rename_i hf
  · obtain ⟨hempty, hfold, -⟩ := Node.minimal_branch_iff.1 (h.of_find? hf)
    rw [hf, compact_eq_toNode hempty hfold]
    rfl
  · rw [hf]
    exact compact_of_folded? (folded?_eq_some_iff.2 ⟨rfl, rfl, rfl⟩)
  · rw [hf]
    rfl

/-! ### Edits of a child, and removals -/

theorem Minimal.grantEntry (h : b.Minimal) (name : String) (g : Grade) :
    (b.grantEntry name g).Minimal := by
  unfold Branch.grantEntry
  split
  · exact h.of_sublist List.filter_sublist _ _
  · split
    · exact h
    · split
      · exact h.of_sublist (Entries.remove_sublist _ _) _ _
      · exact (minimal_setChild_iff h).2 (.leaf g)

/-- **A grant of a child keeps a branch minimal.** -/
theorem Minimal.grant (h : b.Minimal) (hlast : ∀ last ∈ path.getLast?, isModifier last = false)
    (g : Grade) : (b.grant path g).Minimal := by
  induction path generalizing b with
  | nil => exact h
  | cons name path ih =>
    cases path with
    | nil => exact h.grantEntry name g
    | cons name' path =>
      rw [List.getLast?_cons_cons] at hlast
      rw [grant_cons (List.cons_ne_nil _ _) hlast]
      have hchild : ((b.below name).grant (name' :: path) g).Minimal := ih (h.below_branch name) hlast
      exact h.putChild fun n hn ↦ hchild.of_mem_compact hn

theorem Minimal.remove (h : b.Minimal) (name : String) : (b.remove name).Minimal := by
  unfold Branch.remove
  split
  · exact h
  · split
    · exact h
    · exact h.of_sublist (Entries.remove_sublist _ _) _ _

/-- **A removal keeps a branch minimal**, be it that of a child or of a modifier. -/
theorem Minimal.revoke? (h : b.Minimal) {c : Branch} (hc : b.revoke? path = some c) : c.Minimal := by
  revert h
  refine revoke?_induction (motive := fun b c ↦ b.Minimal → c.Minimal) ?_ ?_ hc
  · intro b name h
    exact h.remove name
  · intro b name own rest children child hf ih h
    have hbelow : child.Minimal := ih (Node.minimal_branch_iff.1 (h.of_find? hf)).2.2
    exact h.putChild fun n hn ↦ hbelow.of_mem_compact hn

/-! ### Grants of a modifier -/

/-- A branch with a child is in its shortest form as soon as the child is minimal. -/
theorem minimal_toNode_setChild_iff (h : b.Minimal) :
    (b.setChild name n).toNode.Minimal ↔ n.Minimal := by
  rw [minimal_toNode_iff, isEmpty_setChild, folded?_setChild, minimal_setChild_iff h]
  simp

/-- **A change keeps a branch minimal** exactly if the branch that it leads to becomes minimal. -/
theorem minimal_changeAt_iff (h : b.Minimal) (hne : path ≠ []) (f : Branch → Branch) :
    (b.changeAt path f).Minimal ↔ (f (b.branchAt path)).toNode.Minimal := by
  induction path generalizing b with
  | nil => exact absurd rfl hne
  | cons name path ih =>
    rw [changeAt, minimal_setChild_iff h]
    cases path with
    | nil => exact Iff.rfl
    | cons name' path =>
      have hbelow := h.below_branch name
      -- A branch on the way has a child, so it depends on the last one only.
      refine Iff.trans ?_ (ih hbelow (List.cons_ne_nil _ _))
      rw [changeAt, minimal_toNode_setChild_iff hbelow, minimal_setChild_iff hbelow]

theorem Minimal.branchAt (h : b.Minimal) (path : List String) : (b.branchAt path).Minimal := by
  induction path generalizing b with
  | nil => exact h
  | cons name path ih => exact ih (h.below_branch name)

/-- Whether a branch becomes equivalent to a leaf when one of its modifiers is set to a grade: the other
modifier has the grade already, and no child is left. When `*` is set, the leaves that agree with it go. -/
def FoldsWith (b : Branch) (modifier : String) (g : Grade) : Prop :=
  modifier = ownKey ∧ b.rest = some g ∧ b.children = [] ∨
    modifier = restKey ∧ b.own = some g ∧ ∀ c ∈ b.children, c.2 = .leaf g

theorem not_foldsWith_of_ne_modifier (hname : isModifier name = false) (g : Grade) :
    ¬b.FoldsWith name g := by
  obtain ⟨hown, hrest⟩ : name ≠ ownKey ∧ name ≠ restKey := by simpa [isModifier] using hname
  rintro (⟨heq, -⟩ | ⟨heq, -⟩)
  · exact hown heq
  · exact hrest heq

theorem folded?_grantEntry_eq_none_iff (hname : isModifier name) (g : Grade) :
    (b.grantEntry name g).folded? = none ↔ ¬b.FoldsWith name g := by
  have hnone : (b.grantEntry name g).folded? = none ↔
      ¬∃ h, (b.grantEntry name g).folded? = some h := by
    rw [not_exists, Option.eq_none_iff_forall_ne_some]
  rw [hnone, not_iff_not]
  simp only [folded?_eq_some_iff]
  obtain rfl | rfl : name = ownKey ∨ name = restKey := by simpa [isModifier] using hname
  · have hkeys : ownKey ≠ restKey := by decide
    simp [grantEntry_own, FoldsWith, hkeys, and_comm]
  · have hkeys : restKey ≠ ownKey := by decide
    simp [grantEntry_rest, FoldsWith, hkeys, Node.isLeafOf_iff, and_comm]

/-! ### A grant and its removal -/

/-- What stood at a name is put back in its place. -/
theorem putChild_setChild_find? (b : Branch) (name : String) (n : Node) :
    (b.setChild name n).putChild name (Entries.find? b.children name) = b := by
  cases hf : Entries.find? b.children name with
  | none =>
    rw [putChild, setChild, removeChild, Entries.remove_set_of_notMem (Entries.find?_eq_none_iff.1 hf)]
  | some n' => rw [putChild, setChild, setChild, Entries.set_set, Entries.set_of_find? hf]

theorem putChild_find? (b : Branch) (name : String) :
    b.putChild name (Entries.find? b.children name) = b := by
  cases hf : Entries.find? b.children name with
  | none => rw [putChild, removeChild, Entries.remove_of_notMem (Entries.find?_eq_none_iff.1 hf)]
  | some n => rw [putChild, setChild, Entries.set_of_find? hf]

/-- To revoke an entry that a branch does not have leaves the branch, whether or not it was put there. -/
theorem edited_putChild_of_find?_eq_none (hname : isModifier name = false)
    (hnone : Entries.find? b.children name = none) (n : Option Node) :
    (b.putChild name n).edited [name] none = b := by
  cases n with
  | none =>
    rw [← hnone, putChild_find?]
    refine edited_of_edit?_eq_none ?_
    simp [edit?, Branch.revoke?, find?_of_ne_modifier hname, hnone]
  | some n =>
    have hfound : (b.setChild name n).find? name = some n := by
      rw [find?_of_ne_modifier hname]
      exact Entries.find?_set_self _ _ _
    have hback := putChild_setChild_find? b name n
    rw [hnone] at hback
    rw [putChild, edited, edit?, Branch.revoke?, hfound, remove_of_ne_modifier hname, hback]
    rfl

/-- **A grant where nothing is stored is undone by a removal.** -/
theorem Minimal.edited_grant (h : b.Minimal) (hb : b.Keyed) (hpath : Ordinary path)
    (hnone : b.toNode.nodeAt? path = none) (g : Grade) : (b.grant path g).edited path none = b := by
  -- Down the path. What the grant makes of the branch below is no empty branch, so there is a child to
  -- put back in the end, in the place that it had.
  induction path generalizing b with
  | nil => exact nomatch hnone
  | cons name path ih =>
    have hname := hpath.isModifier_head
    cases path with
    | nil =>
      rw [nodeAt?_singleton] at hnone
      rw [Branch.grant, grantEntry_of_ne_modifier hname, edited_putChild_of_find?_eq_none hname hnone]
    | cons name' path =>
      have hne : name' :: path ≠ [] := List.cons_ne_nil _ _
      have hrest := hpath.tail
      rw [← nodeAt?_below b name hne] at hnone
      have hundone := ih (h.below_branch name) (hb.below_branch name) hrest hnone
      obtain ⟨n, hn⟩ := exists_compact_eq_some ((b.below name).isEmpty_grant hne g)
      have hdown := below_putChild_compact hb.distinct name ((b.below name).grant (name' :: path) g)
      rw [grant_cons hne hrest.isModifier_getLast?, edited_cons hne hrest, hdown, hundone, h.compact_below]
      split <;> rename_i hfound
      · rw [hn]
        exact putChild_setChild_find? b name n
      · -- Nothing is found if the grant stored nothing, and then it left the branch below as it was.
        have hkept := edited_of_edit?_eq_none (Option.not_isSome_iff_eq_none.1 hfound)
        rw [← hkept, hundone, h.compact_below, putChild_find?]

end Branch

namespace Tree

variable {t : Tree} {path : List String}

/-- **What edits do to a minimal tree.** A removal leaves it minimal, and so does a grant, unless it is the
grant of a modifier below the root with which the branch becomes equivalent to a leaf. Such a branch is left
as it is. -/
theorem minimal_after_edit (ht : t.Minimal) :
    (∀ path, (t.revoke path).2.Minimal) ∧
    ∀ path last g, (t.grant (path ++ [last]) g).Minimal ↔
      path = [] ∨ ¬(t.root.branchAt path).FoldsWith last g := by
  refine ⟨fun path ↦ ?_, fun path last g ↦ ?_⟩
  · unfold revoke
    split <;> rename_i hc
    · exact ht
    · exact Branch.Minimal.revoke? ht hc
  · by_cases hlast : isModifier last
    · rw [grant_concat hlast]
      have hchanged : ((t.root.branchAt path).grantEntry last g).Minimal :=
        (Branch.Minimal.branchAt ht path).grantEntry last g
      by_cases hne : path = []
      · subst hne
        exact iff_of_true hchanged (Or.inl rfl)
      · have hiff := Branch.minimal_changeAt_iff ht hne (·.grantEntry last g)
        rw [or_iff_right hne, ← Branch.folded?_grantEntry_eq_none_iff hlast]
        refine hiff.trans ?_
        rw [Branch.minimal_toNode_iff, Branch.isEmpty_grantEntry]
        exact ⟨fun h ↦ h.2.1, fun h ↦ ⟨rfl, h, hchanged⟩⟩
    · rw [Bool.not_eq_true] at hlast
      have hend : ∀ name ∈ (path ++ [last]).getLast?, isModifier name = false := by simpa using hlast
      exact iff_of_true (Branch.Minimal.grant ht hend g)
        (Or.inr (Branch.not_foldsWith_of_ne_modifier hlast g))

/-- A directory with one child, which a removal folds. The grant of a `*` that agrees with its `.` takes the
child away and leaves a branch that is equivalent to a leaf, and the grant of any other `*` does not. -/
theorem minimal_after_edit_folding :
    let t : Tree := {
      root := { children := [("d", .branch (some .read) none [("x", .leaf .read)])] } }
    t.Minimal ∧ (t.revoke ["d", "x"]).2.Minimal ∧ ¬(t.grant ["d", restKey] .read).Minimal ∧
      (t.grant ["d", restKey] .write).Minimal := by
  intro t
  have ht : t.Minimal := by decide
  have hfolds : (t.root.branchAt ["d"]).FoldsWith restKey .read :=
    Or.inr ⟨rfl, rfl, List.forall_mem_singleton.2 rfl⟩
  have hother : ¬(t.root.branchAt ["d"]).FoldsWith restKey .write := by
    rintro (⟨hkey, -⟩ | ⟨-, hown, -⟩)
    · exact absurd hkey (by decide)
    · exact nomatch hown
  obtain ⟨hrevoke, hgrant⟩ := minimal_after_edit ht
  refine ⟨ht, hrevoke ["d", "x"], fun hmin ↦ ?_, (hgrant ["d"] restKey .write).2 (Or.inr hother)⟩
  rcases (hgrant ["d"] restKey .read).1 hmin with hroot | hnot
  · exact nomatch hroot
  · exact hnot hfolds

/-- **A tree does not stay minimal.** The `*` of a directory is set to the grade of its `.`, nothing else is
in it, and the branch stays. -/
theorem grant_not_minimal :
    let t : Tree := { root := { children := [("d", .branch (some .write) (some .read) [])] } }
    t.WellFormed ∧ t.Minimal ∧ ¬(t.grant ["d", restKey] .write).Minimal := by
  decide

/-- **A grant where nothing is stored is undone by a removal.** The path may leave the tree at any place,
below a leaf too, which is split and folded again. The tree is the same down to the order of the children. -/
theorem revoke_grant (ht : t.WellFormed) (hmin : t.Minimal) (hpath : Ordinary path)
    (hnone : t.nodeAt? path = none) (g : Grade) : ((t.grant path g).revoke path).2 = t := by
  have hroot : ((t.grant path g).revoke path).2.root = t.root :=
    (root_revoke _ _).trans (Branch.Minimal.edited_grant hmin ht.keyed hpath hnone g)
  have hgroups : ((t.grant path g).revoke path).2.groups = t.groups := groups_revoke _ _
  exact congrArg₂ Tree.mk hroot hgroups

/-- The path leaves the tree at a leaf. For one grade the grant stores nothing, since the leaf has it. -/
theorem revoke_grant_below_leaf :
    let t : Tree := {
      root := { rest := some .read, children := [("d", .leaf .write), ("e", .leaf .revoked)] } }
    (t.WellFormed ∧ t.Minimal ∧ Ordinary ["d", "x", "y"] ∧ t.nodeAt? ["d", "x", "y"] = none ∧
      Ordinary ["d", "x"] ∧ t.nodeAt? ["d", "x"] = none) ∧
      ((t.grant ["d", "x", "y"] .grant).revoke ["d", "x", "y"]).2 = t ∧
      ((t.grant ["d", "x"] .write).revoke ["d", "x"]).2 = t := by
  intro t
  have ht : t.WellFormed := by decide
  have hmin : t.Minimal := by decide
  have hlong : Ordinary ["d", "x", "y"] := by decide
  have hshort : Ordinary ["d", "x"] := by decide
  exact ⟨⟨ht, hmin, hlong, rfl, hshort, rfl⟩, revoke_grant ht hmin hlong rfl .grant,
    revoke_grant ht hmin hshort rfl .write⟩

end Tree

end PathAccess
