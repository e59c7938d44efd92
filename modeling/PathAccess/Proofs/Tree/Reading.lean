import PathAccess.Evaluation
import PathAccess.Proofs.Entries
/-!
# What one tree says about a path

The walk of a tree moves a cursor segment by segment and updates a standing level on the way. Read
from the tree, the same level has a definition by recursion on the path: `levelFrom` goes down the
named nodes and carries the level that stands **above** the node reached, that is, before the
node's own `*`. Everything about edits and overlays is proved for `levelFrom`, since a change below
a branch is then a change of one argument.

The bridge is `Cursor.standing_run`. It needs that the cursor is **settled**: a branch that sets
`*` has exactly that level standing. Cursors at a root are settled (`Tree.settled_cursor`) and a
step keeps them so (`Cursor.Settled.step`), although a step adds the `*` of the branch it leaves
only where the path falls out of the tree.
-/

namespace PathAccess

/-! ### The level from a node on -/

/-- What a directory itself is, with `above` standing before it: its `.` if something stands, its
`*` if nothing does, and what stands where it sets neither. -/
def Branch.answer (b : Branch) (above : Level) : Level :=
  (if above.isSome then b.own else b.rest) <|> above

/-- The level at a path below a node, with `above` standing before the node. Where the tree has no
node, what stands is the level. -/
def levelFrom : Option Node → Level → List String → Level
  | none, above, _ => above
  | some (.leaf g), _, _ => some g
  | some (.branch own rest children), above, [] => Branch.answer ⟨own, rest, children⟩ above
  | some (.branch _ rest children), above, segment :: path =>
    levelFrom (Entries.find? children segment) (rest <|> above) path

@[simp] theorem levelFrom_none (above : Level) (path : List String) :
    levelFrom none above path = above := by
  cases path <;> rfl

@[simp] theorem levelFrom_leaf (g : Grade) (above : Level) (path : List String) :
    levelFrom (some (.leaf g)) above path = some g := by
  cases path <;> rfl

theorem levelFrom_branch_cons (own rest : Option Grade) (children : List (String × Node))
    (above : Level) (segment : String) (path : List String) :
    levelFrom (some (.branch own rest children)) above (segment :: path) =
      levelFrom (Entries.find? children segment) (rest <|> above) path := rfl

theorem levelFrom_toNode_nil (b : Branch) (above : Level) :
    levelFrom (some b.toNode) above [] = b.answer above := rfl

theorem levelFrom_toNode_cons (b : Branch) (above : Level) (segment : String)
    (path : List String) :
    levelFrom (some b.toNode) above (segment :: path) =
      levelFrom (Entries.find? b.children segment) (b.rest <|> above) path := rfl

/-- An empty branch hands on what stands. -/
theorem levelFrom_empty (above : Level) (path : List String) :
    levelFrom (some (Branch.toNode {})) above path = above := by
  cases path <;> simp [levelFrom, Branch.toNode, Branch.answer]

/-- The level at a path by one tree alone. At the path root the `.` of the root comes first. -/
def Tree.levelAt (t : Tree) : List String → Level
  | [] => t.root.own <|> t.root.rest
  | segment :: path => levelFrom (some t.root.toNode) none (segment :: path)

/-- Memberships have no part in the level. -/
theorem Tree.levelAt_of_root_eq {t u : Tree} (h : t.root = u.root) (path : List String) :
    t.levelAt path = u.levelAt path := by
  cases path <;> simp only [levelAt, h]

/-- An empty tree decides nothing. -/
theorem Tree.levelAt_of_isEmpty {t : Tree} (h : t.root.isEmpty) (path : List String) :
    t.levelAt path = none := by
  obtain ⟨⟨own, rest, children⟩, groups⟩ := t
  simp only [Branch.isEmpty, Bool.and_eq_true, List.isEmpty_iff, Option.isNone_iff_eq_none] at h
  obtain ⟨⟨rfl, rfl⟩, rfl⟩ := h
  cases path with
  | nil => rfl
  | cons segment path => exact levelFrom_empty none (segment :: path)

theorem Branch.answer_isSome (b : Branch) {above : Level} (h : above.isSome) :
    (b.answer above).isSome := by
  obtain ⟨g, rfl⟩ := Option.isSome_iff_exists.1 h
  cases hown : b.own <;> simp [Branch.answer, hown]

/-- **What stands is never lost on the way down.** -/
theorem levelFrom_isSome (n : Option Node) {above : Level} (h : above.isSome)
    (path : List String) : (levelFrom n above path).isSome := by
  induction path generalizing n above with
  | nil =>
    match n with
    | none => simpa using h
    | some (.leaf g) => simp
    | some (.branch own rest children) => exact Branch.answer_isSome ⟨own, rest, children⟩ h
  | cons segment path ih =>
    match n with
    | none => simpa using h
    | some (.leaf g) => simp
    | some (.branch own rest children) =>
      refine ih _ ?_
      cases rest <;> simp [h]

/-! ### The grades of a tree -/

mutual

/-- Whether all grades of a node pass a test. -/
def Node.allGrades (p : Grade → Bool) : Node → Bool
  | leaf g => p g
  | branch own rest children => own.all p && rest.all p && Node.allGradesBelow p children

/-- Whether all grades of some children pass a test. -/
def Node.allGradesBelow (p : Grade → Bool) : List (String × Node) → Bool
  | [] => true
  | (_, n) :: cs => Node.allGrades p n && Node.allGradesBelow p cs

end

theorem Node.allGrades_of_find? {p : Grade → Bool} {children : List (String × Node)}
    (h : Node.allGradesBelow p children) {name : String} {n : Node}
    (hf : Entries.find? children name = some n) : n.allGrades p := by
  induction children with
  | nil => exact nomatch hf
  | cons c cs ih =>
    obtain ⟨name', n'⟩ := c
    obtain ⟨hn, hcs⟩ := Bool.and_eq_true_iff.1 h
    by_cases hname : name' = name
    · subst hname
      rw [Entries.find?_cons_self] at hf
      obtain rfl : n' = n := by simpa using hf
      exact hn
    · rw [Entries.find?_cons_of_ne hname] at hf
      exact ih hcs hf

/-- **No level comes from nowhere**: it is a grade of the tree, or what stood above. -/
theorem levelFrom_all {p : Grade → Bool} {n : Option Node} (h : ∀ c ∈ n, c.allGrades p)
    {above : Level} (habove : Option.all p above) (path : List String) :
    Option.all p (levelFrom n above path) := by
  induction path generalizing n above with
  | nil =>
    match n with
    | none => simpa using habove
    | some (.leaf g) => exact h _ rfl
    | some (.branch own rest children) =>
      have hb := h _ rfl
      simp only [Node.allGrades, Bool.and_eq_true] at hb
      cases above <;> cases own <;> cases rest <;>
        simp_all [levelFrom, Branch.answer]
  | cons segment path ih =>
    match n with
    | none => simpa using habove
    | some (.leaf g) => exact h _ rfl
    | some (.branch own rest children) =>
      have hb := h _ rfl
      simp only [Node.allGrades, Bool.and_eq_true] at hb
      refine ih (fun c hc ↦ Node.allGrades_of_find? hb.2 hc) ?_
      cases rest with
      | none => exact habove
      | some r => exact hb.1.2

theorem Tree.levelAt_all {p : Grade → Bool} {t : Tree} (h : t.root.toNode.allGrades p)
    (path : List String) : Option.all p (t.levelAt path) := by
  cases path with
  | nil =>
    simp only [Branch.toNode, Node.allGrades, Bool.and_eq_true] at h
    cases hown : t.root.own <;> cases hrest : t.root.rest <;> simp_all [Tree.levelAt]
  | cons segment path =>
    refine levelFrom_all (fun c hc ↦ ?_) rfl (segment :: path)
    obtain rfl : t.root.toNode = c := by simpa using hc
    exact h

/-! ### The walk of one cursor -/

namespace Cursor

/-- The cursor of one tree after a whole path. -/
def run (c : Cursor) : List String → Cursor
  | [] => c
  | segment :: path => (c.step segment path.isEmpty).run path

theorem run_cons (c : Cursor) (segment : String) (path : List String) :
    c.run (segment :: path) = (c.step segment path.isEmpty).run path := rfl

/-! #### One step, by what the cursor stands on -/

@[simp] theorem step_exhausted (l : Level) (segment : String) (final : Bool) :
    (⟨none, l⟩ : Cursor).step segment final = ⟨none, l⟩ := rfl

@[simp] theorem step_leaf (g : Grade) (l : Level) (segment : String) (final : Bool) :
    (⟨some (.leaf g), l⟩ : Cursor).step segment final = ⟨none, some g⟩ := rfl

section Branch

variable {own rest : Option Grade} {children : List (String × Node)} {segment : String}

theorem step_branch_of_unnamed (h : Entries.find? children segment = none) (l : Level)
    (final : Bool) :
    (⟨some (.branch own rest children), l⟩ : Cursor).step segment final = ⟨none, rest <|> l⟩ := by
  simp [step, h]

theorem step_branch_of_leaf {g : Grade} (h : Entries.find? children segment = some (.leaf g))
    (l : Level) (final : Bool) :
    (⟨some (.branch own rest children), l⟩ : Cursor).step segment final = ⟨none, some g⟩ := by
  simp [step, h]

theorem step_branch_of_branch {own' rest' : Option Grade} {children' : List (String × Node)}
    (h : Entries.find? children segment = some (.branch own' rest' children')) (l : Level)
    (final : Bool) :
    (⟨some (.branch own rest children), l⟩ : Cursor).step segment final =
      ⟨some (.branch own' rest' children'),
        (if final && l.isSome then own' else rest') <|> l⟩ := by
  simp [step, h]

end Branch

/-- **A tree that has decided decides again**, on whichever segment and with whichever flag. -/
theorem standing_step_isSome {c : Cursor} (h : c.standing.isSome) (segment : String)
    (final : Bool) : (c.step segment final).standing.isSome := by
  obtain ⟨node, l⟩ := c
  obtain ⟨g, rfl⟩ : ∃ g, l = some g := Option.isSome_iff_exists.1 h
  match node with
  | none => rfl
  | some (.leaf g') => rfl
  | some (.branch own rest children) =>
    match hf : Entries.find? children segment with
    | none => simp [step_branch_of_unnamed hf]
    | some (.leaf g') => simp [step_branch_of_leaf hf]
    | some (.branch own' rest' children') => simp [step_branch_of_branch hf]

theorem standing_run_isSome {c : Cursor} (h : c.standing.isSome) (path : List String) :
    (c.run path).standing.isSome := by
  induction path generalizing c with
  | nil => exact h
  | cons segment path ih => exact ih (standing_step_isSome h segment path.isEmpty)

/-- A branch that sets `*` has that level standing. -/
def Settled (c : Cursor) : Prop :=
  ∀ own g children, c.node = some (.branch own (some g) children) → c.standing = some g

theorem settled_exhausted (l : Level) : (⟨none, l⟩ : Cursor).Settled :=
  fun _ _ _ hn ↦ nomatch hn

/-- A branch is settled when adding its own `*` to what stands changes nothing. -/
theorem Settled.orElse_eq {own rest : Option Grade} {children : List (String × Node)} {l : Level}
    (h : (⟨some (.branch own rest children), l⟩ : Cursor).Settled) : (rest <|> l) = l := by
  cases rest with
  | none => simp
  | some g => exact (h own g children rfl).symm

/-- A step before the last segment settles a cursor. -/
theorem settled_step (c : Cursor) (segment : String) (h : c.Settled) :
    (c.step segment false).Settled := by
  obtain ⟨node, l⟩ := c
  match node with
  | none => exact h
  | some (.leaf g) => exact settled_exhausted _
  | some (.branch own rest children) =>
    match hf : Entries.find? children segment with
    | none =>
      rw [step_branch_of_unnamed hf]
      exact settled_exhausted _
    | some (.leaf g) =>
      rw [step_branch_of_leaf hf]
      exact settled_exhausted _
    | some (.branch own' rest' children') =>
      rw [step_branch_of_branch hf]
      intro own'' g children'' hn
      obtain ⟨-, rfl, -⟩ : _ ∧ _ ∧ _ := by simpa using hn
      rfl

/-- **The walk reads the tree.** A settled cursor ends with the level from its node on. -/
theorem standing_run {c : Cursor} (hc : c.Settled) (segment : String) (path : List String) :
    (c.run (segment :: path)).standing = levelFrom c.node c.standing (segment :: path) := by
  induction path generalizing c segment with
  | nil =>
    obtain ⟨node, l⟩ := c
    match node with
    | none => rfl
    | some (.leaf g) => rfl
    | some (.branch own rest children) =>
      rw [run_cons, run, levelFrom_branch_cons, hc.orElse_eq]
      match hf : Entries.find? children segment with
      | none => rw [step_branch_of_unnamed hf, levelFrom_none, hc.orElse_eq]
      | some (.leaf g) => rw [step_branch_of_leaf hf, levelFrom_leaf]
      | some (.branch own' rest' children') =>
        rw [step_branch_of_branch hf, levelFrom, Branch.answer]
        simp
  | cons segment' path ih =>
    rw [run_cons, List.isEmpty_cons, ih (settled_step c segment hc)]
    obtain ⟨node, l⟩ := c
    match node with
    | none => rfl
    | some (.leaf g) => rfl
    | some (.branch own rest children) =>
      rw [levelFrom_branch_cons, hc.orElse_eq]
      match hf : Entries.find? children segment with
      | none => rw [step_branch_of_unnamed hf, hc.orElse_eq, levelFrom_none]
      | some (.leaf g) => rw [step_branch_of_leaf hf, levelFrom_none, levelFrom_leaf]
      | some (.branch own' rest' children') =>
        rw [step_branch_of_branch hf]
        cases rest' <;> simp [levelFrom]

end Cursor

namespace Tree

variable (t : Tree)

theorem settled_cursor : t.cursor.Settled := by
  intro own g children hn
  obtain ⟨-, hrest, -⟩ : _ ∧ _ ∧ _ := by simpa [cursor, Branch.toNode] using hn
  simpa [cursor] using hrest

/-- Walking a tree along a path ends with its level there. -/
theorem standing_run_cursor {path : List String} (h : path ≠ []) :
    (t.cursor.run path).standing = t.levelAt path := by
  obtain ⟨segment, path, rfl⟩ := List.exists_cons_of_ne_nil h
  rw [Cursor.standing_run t.settled_cursor]
  cases hr : t.root.rest <;> simp [cursor, levelAt, Branch.toNode, levelFrom, hr]

end Tree

end PathAccess
