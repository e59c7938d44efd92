import PathAccess.Proofs.Path
import PathAccess.Proofs.Tree.WellFormed
/-!
# Tidy trees

A tree is **tidy** if every child has a name that a resolved path can have, and no branch below the root
is empty. Both edits keep it so, at paths that were resolved. A grant leaves something in every branch
it passes (`Branch.isEmpty_grant`), so what it makes on the way is never empty, and a removal takes away
each branch that it empties.
-/

namespace PathAccess

/-- Names that paths can have, and no empty branch. -/
inductive Node.Tidy : Node → Prop
  | leaf (g : Grade) : Node.Tidy (.leaf g)
  | branch {own rest : Option Grade} {children : List (String × Node)}
      (names : ∀ name ∈ Entries.keys children, Path.IsSegment name)
      (nonempty : Branch.isEmpty ⟨own, rest, children⟩ = false)
      (below : ∀ c ∈ children, Node.Tidy c.2) : Node.Tidy (.branch own rest children)

/-- A branch that is tidy but for being empty, as the root of a tree may be. -/
structure Branch.Tidy (b : Branch) : Prop where
  /-- The children have names that paths can have. -/
  names : ∀ name ∈ Entries.keys b.children, Path.IsSegment name
  /-- The children are tidy. -/
  below : ∀ c ∈ b.children, c.2.Tidy

/-- A tree whose root is tidy. -/
def Tree.Tidy (t : Tree) : Prop :=
  t.root.Tidy

theorem Node.tidy_branch_iff {own rest : Option Grade} {children : List (String × Node)} :
    (Node.branch own rest children).Tidy ↔
      Branch.Tidy ⟨own, rest, children⟩ ∧ Branch.isEmpty ⟨own, rest, children⟩ = false := by
  constructor
  · rintro (_ | ⟨names, nonempty, below⟩)
    exact ⟨⟨names, below⟩, nonempty⟩
  · rintro ⟨⟨names, below⟩, nonempty⟩
    exact .branch names nonempty below

theorem Branch.tidy_toNode_iff {b : Branch} : b.toNode.Tidy ↔ b.Tidy ∧ b.isEmpty = false :=
  Node.tidy_branch_iff

mutual

/-- The test for tidiness. -/
def Node.isTidy : Node → Bool
  | leaf _ => true
  | branch own rest children =>
    decide (∀ name ∈ Entries.keys children, Path.IsSegment name) &&
      !Branch.isEmpty ⟨own, rest, children⟩ && Node.allTidy children

/-- The test on all children. -/
def Node.allTidy : List (String × Node) → Bool
  | [] => true
  | (_, n) :: cs => Node.isTidy n && Node.allTidy cs

end

mutual

theorem Node.tidy_of_isTidy : (n : Node) → n.isTidy = true → n.Tidy
  | .leaf g, _ => .leaf g
  | .branch own rest children, h => by
    rw [Node.isTidy, Bool.and_eq_true, Bool.and_eq_true, decide_eq_true_iff] at h
    exact .branch h.1.1 (by simpa using h.1.2) (Node.tidy_of_allTidy children h.2)

theorem Node.tidy_of_allTidy : (cs : List (String × Node)) → Node.allTidy cs = true →
    ∀ c ∈ cs, c.2.Tidy
  | [], _ => fun _ h ↦ nomatch h
  | (name, n) :: cs, h => by
    rw [Node.allTidy, Bool.and_eq_true] at h
    exact List.forall_mem_cons.2 ⟨Node.tidy_of_isTidy n h.1, Node.tidy_of_allTidy cs h.2⟩

end

/-- The test for a tree, whose root may be empty. -/
theorem Tree.tidy_of_tests {t : Tree} (hnames : ∀ name ∈ Entries.keys t.root.children,
    Path.IsSegment name) (hbelow : Node.allTidy t.root.children = true) : t.Tidy :=
  ⟨hnames, Node.tidy_of_allTidy _ hbelow⟩

namespace Branch

variable {b : Branch}

theorem tidy_of_children_eq_nil (h : b.children = []) : b.Tidy := by
  constructor <;> simp [h, Entries.keys]

theorem Tidy.of_find? (h : b.Tidy) {name : String} {n : Node}
    (hf : Entries.find? b.children name = some n) : Path.IsSegment name ∧ n.Tidy :=
  have hmem := Entries.mem_of_find? hf
  ⟨h.names name (List.mem_map.2 ⟨_, hmem, rfl⟩), h.below _ hmem⟩

theorem Tidy.with_modifiers (h : b.Tidy) (own rest : Option Grade) :
    Branch.Tidy ⟨own, rest, b.children⟩ :=
  ⟨h.names, h.below⟩

theorem Tidy.setChild (h : b.Tidy) {name : String} (hname : Path.IsSegment name) {n : Node}
    (hn : n.Tidy) : (b.setChild name n).Tidy where
  names := fun name' hmem ↦ by
    rcases Entries.mem_keys_set.1 hmem with rfl | hmem
    · exact hname
    · exact h.names name' hmem
  below := fun c hmem ↦ by
    rcases Entries.mem_set hmem with heq | hmem
    · rwa [heq]
    · exact h.below c hmem

theorem Tidy.of_sublist (h : b.Tidy) {children : Entries String Node}
    (hs : children.Sublist b.children) (own rest : Option Grade) :
    Branch.Tidy ⟨own, rest, children⟩ where
  names := fun name hmem ↦ h.names name ((hs.map _).subset hmem)
  below := fun c hmem ↦ h.below c (hs.subset hmem)

theorem Tidy.putChild (h : b.Tidy) {name : String} (hname : Path.IsSegment name)
    {n : Option Node} (hn : ∀ n' ∈ n, n'.Tidy) : (b.putChild name n).Tidy := by
  cases n with
  | none => exact h.of_sublist (Entries.remove_sublist _ _) _ _
  | some n => exact h.setChild hname (hn n rfl)

theorem Tidy.below_branch (h : b.Tidy) (name : String) : (b.below name).Tidy := by
  unfold Branch.below
  split <;> rename_i hf
  · exact (Node.tidy_branch_iff.1 (h.of_find? hf).2).1
  · exact tidy_of_children_eq_nil rfl
  · exact tidy_of_children_eq_nil rfl

/-- The shortest form of a branch is never an empty one. -/
theorem Tidy.of_mem_compact (h : b.Tidy) {n : Node} (hn : n ∈ b.compact) : n.Tidy := by
  rcases eq_of_mem_compact hn with ⟨g, rfl⟩ | ⟨rfl, hempty, -⟩
  · exact .leaf g
  · exact tidy_toNode_iff.2 ⟨h, hempty⟩

/-! ### What a grant leaves -/

theorem isEmpty_grantEntry (b : Branch) (name : String) (g : Grade) :
    (b.grantEntry name g).isEmpty = false := by
  unfold grantEntry
  split
  · simp [isEmpty]
  · split
    · simp [isEmpty]
    · split <;> rename_i hrest
      · -- The child is not stored, because the grade for unnamed children is the same.
        have hrest' : b.rest = some g := by simpa using hrest
        simp [isEmpty, removeChild, hrest']
      · exact b.isEmpty_setChild name _

/-- **A grant leaves something.** -/
theorem isEmpty_grant (b : Branch) {path : List String} (hpath : path ≠ []) (g : Grade) :
    (b.grant path g).isEmpty = false := by
  induction path generalizing b with
  | nil => exact absurd rfl hpath
  | cons name path ih =>
    cases path with
    | nil => exact b.isEmpty_grantEntry name g
    | cons name' path =>
      have hchild := ih (b.below name) (List.cons_ne_nil _ _)
      obtain ⟨n, heq, hn⟩ := grant_cons_cons b name name' path g
      have hsome : ∃ n', n = some n' := by
        rcases hn with rfl | rfl
        · exact ⟨_, rfl⟩
        · exact exists_compact_eq_some hchild
      obtain ⟨n', rfl⟩ := hsome
      rw [heq]
      exact b.isEmpty_setChild name n'

/-! ### Edits -/

theorem Tidy.grantEntry (h : b.Tidy) {name : String} (hname : Path.IsSegment name) (g : Grade) :
    (b.grantEntry name g).Tidy := by
  unfold Branch.grantEntry
  split
  · exact h.of_sublist List.filter_sublist _ _
  · split
    · exact h.with_modifiers _ _
    · split
      · exact h.of_sublist (Entries.remove_sublist _ _) _ _
      · exact h.setChild hname (.leaf g)

/-- **A grant keeps a branch tidy.** -/
theorem Tidy.grant (h : b.Tidy) {path : List String} (hpath : ∀ name ∈ path, Path.IsSegment name)
    (g : Grade) : (b.grant path g).Tidy := by
  induction path generalizing b with
  | nil => exact h
  | cons name path ih =>
    have hname := hpath name List.mem_cons_self
    cases path with
    | nil => exact h.grantEntry hname g
    | cons name' path =>
      have hchild : ((b.below name).grant (name' :: path) g).Tidy :=
        ih (h.below_branch name) fun s hs ↦ hpath s (List.mem_cons_of_mem _ hs)
      have hleft := (b.below name).isEmpty_grant (List.cons_ne_nil name' path) g
      obtain ⟨n, heq, hn⟩ := grant_cons_cons b name name' path g
      rw [heq]
      refine h.putChild hname fun n' hn' ↦ ?_
      rcases hn with rfl | rfl
      · obtain rfl : Branch.toNode _ = n' := by simpa using hn'
        exact tidy_toNode_iff.2 ⟨hchild, hleft⟩
      · exact hchild.of_mem_compact hn'

theorem Tidy.remove (h : b.Tidy) (name : String) : (b.remove name).Tidy := by
  unfold Branch.remove
  split
  · exact h.with_modifiers _ _
  · split
    · exact h.with_modifiers _ _
    · exact h.of_sublist (Entries.remove_sublist _ _) _ _

/-- **A removal keeps a branch tidy.** -/
theorem Tidy.revoke? (h : b.Tidy) {path : List String} {c : Branch}
    (hc : b.revoke? path = some c) : c.Tidy := by
  revert h
  refine revoke?_induction (motive := fun b c ↦ b.Tidy → c.Tidy) ?_ ?_ hc
  · intro b name h
    exact h.remove name
  · intro b name own rest children child hf ih h
    obtain ⟨hname, hn⟩ := h.of_find? hf
    have hbelow : child.Tidy := ih (Node.tidy_branch_iff.1 hn).1
    exact h.putChild hname fun n hn ↦ hbelow.of_mem_compact hn

end Branch

namespace Tree

variable {t : Tree}

theorem Tidy.grant (h : t.Tidy) {path : List String} (hpath : ∀ name ∈ path, Path.IsSegment name)
    (g : Grade) : (t.grant path g).Tidy :=
  Branch.Tidy.grant h hpath g

theorem Tidy.revoke (h : t.Tidy) (path : List String) : (t.revoke path).2.Tidy := by
  unfold Tree.revoke
  split <;> rename_i hc
  · exact h
  · exact Branch.Tidy.revoke? h hc

/-- A tree with a granted entry is not empty. -/
theorem isEmpty_grant (t : Tree) {path : List String} (hpath : path ≠ []) (g : Grade) :
    (t.grant path g).isEmpty = false := by
  simp [isEmpty, grant, t.root.isEmpty_grant hpath g]

end Tree

end PathAccess
