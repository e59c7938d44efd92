import PathAccess.Proofs.Tree.ShortestForm
/-!
# Well-formed trees

A tree is **well formed** if the names of the children of each of its branches are distinct, and none
of them is reserved for the entries that a branch has beside its children. Stored levels need no
condition, since a tree holds grades.

Both edits keep trees well formed. The name at which a grant ends may stand for a modifier, since it
makes no child then; the names before it become children and must be ordinary.
-/

namespace PathAccess

/-- Names that stand for children on every path: no modifier, and not the memberships. -/
def Ordinary (path : List String) : Prop :=
  ∀ name ∈ path, isReserved name = false

instance (path : List String) : Decidable (Ordinary path) :=
  inferInstanceAs (Decidable (∀ name ∈ path, isReserved name = false))

theorem isReserved_eq_false_iff {name : String} :
    isReserved name = false ↔ isModifier name = false ∧ name ≠ groupsKey := by
  simp [isReserved]

theorem Ordinary.tail {name : String} {path : List String} (h : Ordinary (name :: path)) :
    Ordinary path :=
  fun s hs ↦ h s (List.mem_cons_of_mem _ hs)

theorem Ordinary.isModifier_head {name : String} {path : List String} (h : Ordinary (name :: path)) :
    isModifier name = false :=
  (isReserved_eq_false_iff.1 (h name List.mem_cons_self)).1

/-- Distinct and ordinary names of children, at every branch. -/
inductive Node.WellFormed : Node → Prop
  | leaf (g : Grade) : Node.WellFormed (.leaf g)
  | branch {own rest : Option Grade} {children : List (String × Node)}
      (distinct : (Entries.keys children).Nodup) (ordinary : Ordinary (Entries.keys children))
      (below : ∀ c ∈ children, Node.WellFormed c.2) : Node.WellFormed (.branch own rest children)

/-- A branch whose node is well formed. -/
structure Branch.WellFormed (b : Branch) : Prop where
  /-- The children's names are distinct. -/
  distinct : (Entries.keys b.children).Nodup
  /-- The children's names are not reserved. -/
  ordinary : Ordinary (Entries.keys b.children)
  /-- The children are well formed. -/
  below : ∀ c ∈ b.children, c.2.WellFormed

/-- A tree whose root is well formed. -/
def Tree.WellFormed (t : Tree) : Prop :=
  t.root.WellFormed

theorem Node.wellFormed_branch_iff {own rest : Option Grade} {children : List (String × Node)} :
    (Node.branch own rest children).WellFormed ↔ Branch.WellFormed ⟨own, rest, children⟩ := by
  constructor
  · rintro (_ | ⟨distinct, ordinary, below⟩)
    exact ⟨distinct, ordinary, below⟩
  · rintro ⟨distinct, ordinary, below⟩
    exact .branch distinct ordinary below

theorem Branch.wellFormed_toNode_iff {b : Branch} : b.toNode.WellFormed ↔ b.WellFormed :=
  Node.wellFormed_branch_iff

mutual

/-- The test for well-formedness. -/
def Node.isWellFormed : Node → Bool
  | leaf _ => true
  | branch _ _ children =>
    decide (Entries.keys children).Nodup && decide (Ordinary (Entries.keys children)) &&
      Node.allWellFormed children

/-- The test on all children. -/
def Node.allWellFormed : List (String × Node) → Bool
  | [] => true
  | (_, n) :: cs => Node.isWellFormed n && Node.allWellFormed cs

end

mutual

theorem Node.isWellFormed_iff : (n : Node) → (n.isWellFormed = true ↔ n.WellFormed)
  | .leaf g => iff_of_true rfl (.leaf g)
  | .branch own rest children => by
    rw [Node.isWellFormed, Bool.and_eq_true, Bool.and_eq_true, decide_eq_true_iff,
      decide_eq_true_iff, Node.allWellFormed_iff children, Node.wellFormed_branch_iff, and_assoc]
    exact ⟨fun ⟨hd, ho, hb⟩ ↦ ⟨hd, ho, hb⟩, fun ⟨hd, ho, hb⟩ ↦ ⟨hd, ho, hb⟩⟩

theorem Node.allWellFormed_iff : (cs : List (String × Node)) →
    (Node.allWellFormed cs = true ↔ ∀ c ∈ cs, c.2.WellFormed)
  | [] => iff_of_true rfl fun _ h ↦ nomatch h
  | (name, n) :: cs => by
    rw [Node.allWellFormed, Bool.and_eq_true, Node.isWellFormed_iff n, Node.allWellFormed_iff cs,
      List.forall_mem_cons]

end

instance (t : Tree) : Decidable t.WellFormed :=
  decidable_of_iff (t.root.toNode.isWellFormed = true)
    ((Node.isWellFormed_iff _).trans Branch.wellFormed_toNode_iff)

namespace Branch

variable {b : Branch}

/-- Without children there is nothing to ask for. -/
theorem wellFormed_of_children_eq_nil (h : b.children = []) : b.WellFormed := by
  refine ⟨?_, ?_, ?_⟩ <;> simp [h, Entries.keys, Ordinary]

theorem WellFormed.of_find? (h : b.WellFormed) {name : String} {n : Node}
    (hf : Entries.find? b.children name = some n) : n.WellFormed :=
  h.below _ (Entries.mem_of_find? hf)

/-- The modifiers play no part. -/
theorem WellFormed.with_modifiers (h : b.WellFormed) (own rest : Option Grade) :
    Branch.WellFormed ⟨own, rest, b.children⟩ :=
  ⟨h.distinct, h.ordinary, h.below⟩

theorem WellFormed.setChild (h : b.WellFormed) {name : String} (hname : isReserved name = false)
    {n : Node} (hn : n.WellFormed) : (b.setChild name n).WellFormed where
  distinct := Entries.nodup_keys_set h.distinct name n
  ordinary := fun name' hmem ↦ by
    rcases Entries.mem_keys_set.1 hmem with rfl | hmem
    · exact hname
    · exact h.ordinary name' hmem
  below := fun c hmem ↦ by
    rcases Entries.mem_set hmem with heq | hmem
    · rwa [heq]
    · exact h.below c hmem

/-- Dropping children keeps a branch well formed. -/
theorem WellFormed.of_sublist (h : b.WellFormed) {children : Entries String Node}
    (hs : children.Sublist b.children) (own rest : Option Grade) :
    Branch.WellFormed ⟨own, rest, children⟩ where
  distinct := h.distinct.sublist (hs.map _)
  ordinary := fun name hmem ↦ h.ordinary name ((hs.map _).subset hmem)
  below := fun c hmem ↦ h.below c (hs.subset hmem)

theorem WellFormed.removeChild (h : b.WellFormed) (name : String) :
    (b.removeChild name).WellFormed :=
  h.of_sublist (Entries.remove_sublist _ _) _ _

theorem WellFormed.putChild (h : b.WellFormed) {name : String} (hname : isReserved name = false)
    {n : Option Node} (hn : ∀ n' ∈ n, n'.WellFormed) : (b.putChild name n).WellFormed := by
  cases n with
  | none => exact h.removeChild name
  | some n => exact h.setChild hname (hn n rfl)

theorem WellFormed.below_branch (h : b.WellFormed) (name : String) :
    (b.below name).WellFormed := by
  unfold Branch.below
  split <;> rename_i hf
  · exact Node.wellFormed_branch_iff.1 (h.of_find? hf)
  · exact wellFormed_of_children_eq_nil rfl
  · exact wellFormed_of_children_eq_nil rfl

theorem WellFormed.of_mem_compact (h : b.WellFormed) {n : Node} (hn : n ∈ b.compact) :
    n.WellFormed := by
  rcases eq_of_mem_compact hn with ⟨g, rfl⟩ | ⟨rfl, -, -⟩
  · exact .leaf g
  · exact wellFormed_toNode_iff.2 h

/-! ### Edits -/

/-- On the way back from a grant the branch below is kept, if one of its modifiers was set, or else
put in its shortest form. -/
theorem grant_cons_cons (b : Branch) (name name' : String) (path : List String) (g : Grade) :
    ∃ n, b.grant (name :: name' :: path) g = b.putChild name n ∧
      (n = some ((b.below name).grant (name' :: path) g).toNode ∨
        n = ((b.below name).grant (name' :: path) g).compact) := by
  cases path with
  | cons last path => exact ⟨_, rfl, Or.inr rfl⟩
  | nil =>
    by_cases hm : isModifier name'
    · exact ⟨_, by simp [grant, hm], Or.inl rfl⟩
    · exact ⟨_, by simp [grant, hm], Or.inr rfl⟩

theorem WellFormed.grantEntry (h : b.WellFormed) {name : String} (hname : name ≠ groupsKey)
    (g : Grade) : (b.grantEntry name g).WellFormed := by
  unfold Branch.grantEntry
  split
  · exact h.of_sublist List.filter_sublist _ _
  · split
    · exact h.with_modifiers _ _
    · rename_i hrest hown
      have hres : isReserved name = false := by
        simp only [isReserved, isModifier]
        simp_all
      split
      · exact h.removeChild name
      · exact h.setChild hres (.leaf g)

/-- **A grant keeps a branch well formed.** -/
theorem WellFormed.grant (h : b.WellFormed) {path : List String} (hpath : Ordinary path.dropLast)
    (hlast : groupsKey ∉ path.getLast?) (g : Grade) : (b.grant path g).WellFormed := by
  induction path generalizing b with
  | nil => exact h
  | cons name path ih =>
    cases path with
    | nil => exact h.grantEntry (fun heq ↦ hlast (by simp [heq])) g
    | cons name' path =>
      rw [List.dropLast_cons_cons] at hpath
      rw [List.getLast?_cons_cons] at hlast
      have hchild : ((b.below name).grant (name' :: path) g).WellFormed :=
        ih (h.below_branch name) hpath.tail hlast
      obtain ⟨n, heq, hn⟩ := grant_cons_cons b name name' path g
      rw [heq]
      refine h.putChild (hpath name List.mem_cons_self) fun n' hn' ↦ ?_
      rcases hn with rfl | rfl
      · obtain rfl : Branch.toNode _ = n' := by simpa using hn'
        exact wellFormed_toNode_iff.2 hchild
      · exact hchild.of_mem_compact hn'

theorem WellFormed.remove (h : b.WellFormed) (name : String) : (b.remove name).WellFormed := by
  unfold Branch.remove
  split
  · exact h.with_modifiers _ _
  · split
    · exact h.with_modifiers _ _
    · exact h.removeChild name

/-- On the way back from a removal the branch below is put in its shortest form. -/
theorem revoke?_cons_cons_eq_some_iff {name name' : String} {path : List String} {c : Branch} :
    b.revoke? (name :: name' :: path) = some c ↔ ∃ own rest children child,
      Entries.find? b.children name = some (.branch own rest children) ∧
      Branch.revoke? ⟨own, rest, children⟩ (name' :: path) = some child ∧
      c = b.putChild name child.compact := by
  rw [Branch.revoke?]
  · split <;> rename_i hf
    · rw [Option.map_eq_some_iff]
      constructor
      · rintro ⟨child, hchild, rfl⟩
        exact ⟨_, _, _, child, hf, hchild, rfl⟩
      · rintro ⟨own, rest, children, child, hf', hchild, rfl⟩
        obtain ⟨rfl, rfl, rfl⟩ : _ ∧ _ ∧ _ := by simpa using hf.symm.trans hf'
        exact ⟨child, hchild, rfl⟩
    · simp only [reduceCtorEq, false_iff]
      rintro ⟨own, rest, children, -, heq, -⟩
      exact hf own rest children heq
  · simp

theorem revoke?_singleton_eq_some_iff {name : String} {c : Branch} :
    b.revoke? [name] = some c ↔ (b.find? name).isSome ∧ c = b.remove name := by
  rw [Branch.revoke?]
  split <;> rename_i hf
  · simp [hf, eq_comm]
  · simp [hf]

/-- **What a removal keeps**, of a branch and what it becomes: an entry is removed at the end of the path, and
on the way back each branch gets the shortest form of the one below. -/
theorem revoke?_induction {motive : Branch → Branch → Prop}
    (entry : ∀ b name, motive b (b.remove name))
    (child : ∀ b name own rest children c,
      Entries.find? b.children name = some (.branch own rest children) →
        motive ⟨own, rest, children⟩ c → motive b (b.putChild name c.compact))
    {path : List String} {c : Branch} (h : b.revoke? path = some c) : motive b c := by
  induction path generalizing b c with
  | nil => simp [Branch.revoke?] at h
  | cons name path ih =>
    cases path with
    | nil =>
      obtain ⟨-, rfl⟩ := revoke?_singleton_eq_some_iff.1 h
      exact entry b name
    | cons name' path =>
      obtain ⟨own, rest, children, c, hf, hc, rfl⟩ := revoke?_cons_cons_eq_some_iff.1 h
      exact child b name own rest children c hf (ih hc)

/-- A name at which a child is found is ordinary. -/
theorem WellFormed.isReserved_of_find? (h : b.WellFormed) {name : String} {n : Node}
    (hf : Entries.find? b.children name = some n) : isReserved name = false :=
  h.ordinary name (List.mem_map.2 ⟨_, Entries.mem_of_find? hf, rfl⟩)

/-- **A removal keeps a branch well formed**, at any path. -/
theorem WellFormed.revoke? (h : b.WellFormed) {path : List String} {c : Branch}
    (hc : b.revoke? path = some c) : c.WellFormed := by
  revert h
  refine revoke?_induction (motive := fun b c ↦ b.WellFormed → c.WellFormed) ?_ ?_ hc
  · intro b name h
    exact h.remove name
  · intro b name own rest children child hf ih h
    have hbelow : child.WellFormed := ih (Node.wellFormed_branch_iff.1 (h.of_find? hf))
    exact h.putChild (h.isReserved_of_find? hf) fun n hn ↦ hbelow.of_mem_compact hn

end Branch

/-- No name of an ordinary path is a dot. -/
theorem Ordinary.filter_ne_ownKey {path : List String} (h : Ordinary path) :
    path.filter (· != ownKey) = path := by
  refine List.filter_eq_self.2 fun name hname ↦ ?_
  have hmodifier := (isReserved_eq_false_iff.1 (h name hname)).1
  simp only [isModifier, Bool.or_eq_false_iff] at hmodifier
  simpa using hmodifier.1

theorem Ordinary.dropLast {path : List String} (h : Ordinary path) : Ordinary path.dropLast :=
  fun name hmem ↦ h name (List.dropLast_subset path hmem)

/-- A path of ordinary names does not end at the memberships. -/
theorem Ordinary.groupsKey_notMem_getLast? {path : List String} (h : Ordinary path) :
    groupsKey ∉ path.getLast? := fun hmem ↦ by
  have := h groupsKey (List.mem_of_getLast? hmem)
  revert this
  decide

theorem Tree.WellFormed.grant {t : Tree} (h : t.WellFormed) {path : List String}
    (hpath : Ordinary path) (g : Grade) : (t.grant path g).WellFormed :=
  Branch.WellFormed.grant h hpath.dropLast hpath.groupsKey_notMem_getLast? g

end PathAccess
