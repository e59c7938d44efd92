import Mathlib.Data.List.Nodup
import Mathlib.Data.List.Permutation
import PathAccess.Proofs.Path.Slashed
import PathAccess.Proofs.Tree.Overlay
import PathAccess.Proofs.Tree.Same
import PathAccess.Tree.Rows
/-!
# What is shown of a tree

A tree stores a grade at each of its leaves and at each modifier of a branch, and it is shown with one row for
each (`Node.WellFormed.rows_perm`). A row says by its text alone where its grade stands: a leaf and a `.` have
their own names at the end, a `*` has none, and no name of a child is empty. So two grades of a tree never have
the same text (`pathText_inj`), and what is stored can be read off the rows.

What is stored says what the tree is, but for branches that store nothing (`Node.same_of_stored`). A tree is
**legible** if no branch below the root is empty, and if the names of children can be told apart in a text. So
legible trees with the same rows are the same.
-/

namespace PathAccess

/-! ### Stored grades -/

namespace Node

mutual

/-- The stored grades of a node, each with the names on the way to it: a branch's `*`, its `.`, and what its
children store. -/
def stored : Node → List (List String × Grade)
  | leaf g => [([], g)]
  | branch own rest children =>
    (rest.map (([restKey], ·))).toList ++ (own.map (([ownKey], ·))).toList ++ childrenStored children

/-- The stored grades of children, with the names of the children in front. -/
def childrenStored : List (String × Node) → List (List String × Grade)
  | [] => []
  | (name, n) :: cs => (stored n).map (Prod.map (name :: ·) id) ++ childrenStored cs

end

theorem childrenStored_eq_flatMap (cs : List (String × Node)) :
    childrenStored cs = cs.flatMap fun c ↦ c.2.stored.map (Prod.map (c.1 :: ·) id) := by
  induction cs with
  | nil => rfl
  | cons c cs ih => rw [childrenStored, ih, List.flatMap_cons]

variable {own rest : Option Grade} {children : List (String × Node)} {path : List String} {g : Grade}

theorem mem_childrenStored : (path, g) ∈ childrenStored children ↔
    ∃ c ∈ children, ∃ path', (path', g) ∈ c.2.stored ∧ c.1 :: path' = path := by
  rw [childrenStored_eq_flatMap, List.mem_flatMap]
  refine exists_congr fun c ↦ and_congr_right fun _ ↦ ?_
  rw [List.mem_map]
  constructor
  · rintro ⟨⟨path', g'⟩, hmem, heq⟩
    obtain ⟨rfl, rfl⟩ := Prod.mk.inj heq
    exact ⟨path', hmem, rfl⟩
  · rintro ⟨path', hmem, rfl⟩
    exact ⟨(path', g), hmem, rfl⟩

theorem mem_stored_branch : (path, g) ∈ (branch own rest children).stored ↔
    (rest = some g ∧ [restKey] = path) ∨ (own = some g ∧ [ownKey] = path) ∨
      (path, g) ∈ childrenStored children := by
  simp only [stored, List.append_assoc, List.mem_append, Option.mem_toList,
    Option.map_eq_some_iff, Prod.mk.injEq, exists_eq_right_right]

theorem nil_notMem_stored_branch : ([], g) ∉ (branch own rest children).stored := by
  rw [mem_stored_branch, mem_childrenStored]
  simp

end Node

namespace Branch

/-- The stored grades of a branch. -/
def stored (b : Branch) : List (List String × Grade) :=
  b.toNode.stored

variable {b : Branch} {name : String} {path : List String} {g : Grade}

/-- No child has the name of a modifier. -/
theorem WellFormed.find?_eq_none_of_isModifier (h : b.WellFormed) (hname : isModifier name) :
    Entries.find? b.children name = none := by
  by_contra hne
  obtain ⟨n, hn⟩ := Option.ne_none_iff_exists'.1 hne
  rw [(isReserved_eq_false_iff.1 (h.isReserved_of_find? hn)).1] at hname
  cases hname

/-- **What is stored is found name by name**, a modifier counting as a leaf. -/
theorem WellFormed.cons_mem_stored_iff (h : b.WellFormed) :
    (name :: path, g) ∈ b.stored ↔ ∃ n, b.find? name = some n ∧ (path, g) ∈ n.stored := by
  have hchildren : (name :: path, g) ∈ Node.childrenStored b.children ↔
      ∃ n, Entries.find? b.children name = some n ∧ (path, g) ∈ n.stored := by
    rw [Node.mem_childrenStored]
    constructor
    · rintro ⟨⟨name', n⟩, hmem, path', hstored, heq⟩
      obtain ⟨rfl, rfl⟩ := List.cons.inj heq
      exact ⟨n, Entries.find?_of_mem h.distinct hmem, hstored⟩
    · rintro ⟨n, hfind, hstored⟩
      exact ⟨(name, n), Entries.mem_of_find? hfind, path, hstored, rfl⟩
  rw [stored, toNode, Node.mem_stored_branch, hchildren, find?]
  by_cases hown : name = ownKey
  · subst hown
    have hnone : Entries.find? b.children ownKey = none := h.find?_eq_none_of_isModifier rfl
    have hne : restKey ≠ ownKey := by decide
    rw [if_pos (beq_self_eq_true _), hnone]
    simp [hne, Node.stored, and_comm]
  by_cases hrest : name = restKey
  · subst hrest
    have hnone : Entries.find? b.children restKey = none := h.find?_eq_none_of_isModifier rfl
    rw [if_neg (by simpa using hown), if_pos (beq_self_eq_true _), hnone]
    simp [Ne.symm hown, Node.stored, and_comm]
  · rw [if_neg (by simpa using hown), if_neg (by simpa using hrest)]
    simp [Ne.symm hown, Ne.symm hrest]

theorem WellFormed.own_mem_stored_iff (h : b.WellFormed) : ([ownKey], g) ∈ b.stored ↔ b.own = some g := by
  rw [h.cons_mem_stored_iff, find?, if_pos (beq_self_eq_true _)]
  simp [Node.stored, eq_comm]

theorem WellFormed.rest_mem_stored_iff (h : b.WellFormed) : ([restKey], g) ∈ b.stored ↔ b.rest = some g := by
  rw [h.cons_mem_stored_iff, find?, if_neg (by decide), if_pos (beq_self_eq_true _)]
  simp [Node.stored, eq_comm]

theorem WellFormed.child_mem_stored_iff (h : b.WellFormed) (hname : isModifier name = false) :
    (name :: path, g) ∈ b.stored ↔ ∃ n, Entries.find? b.children name = some n ∧ (path, g) ∈ n.stored := by
  rw [h.cons_mem_stored_iff, find?_of_ne_modifier hname]

end Branch

namespace Node

variable {children : List (String × Node)}

theorem map_fst_childrenStored (children : List (String × Node)) :
    (childrenStored children).map (·.1) =
      children.flatMap fun c ↦ (c.2.stored.map (·.1)).map (c.1 :: ·) := by
  rw [childrenStored_eq_flatMap, List.map_flatMap]
  simp [Function.comp_def]

theorem nodup_childrenStored (distinct : (Entries.keys children).Nodup)
    (h : ∀ c ∈ children, (c.2.stored.map (·.1)).Nodup) : ((childrenStored children).map (·.1)).Nodup := by
  rw [map_fst_childrenStored, List.nodup_flatMap]
  refine ⟨fun c hc ↦ (h c hc).map List.cons_injective, ?_⟩
  refine (List.pairwise_map.1 distinct).imp fun hne path hpath hpath' ↦ ?_
  obtain ⟨_, -, rfl⟩ := List.mem_map.1 hpath
  obtain ⟨_, -, heq⟩ := List.mem_map.1 hpath'
  exact hne (List.cons.inj heq).1.symm

/-- What children store is not at the name of a modifier. -/
theorem singleton_notMem_childrenStored (ordinary : Ordinary (Entries.keys children)) {name : String}
    (hname : isModifier name) : [name] ∉ (childrenStored children).map (·.1) := by
  intro hmem
  rw [map_fst_childrenStored, List.mem_flatMap] at hmem
  obtain ⟨c, hc, hpath⟩ := hmem
  obtain ⟨_, -, heq⟩ := List.mem_map.1 hpath
  have hordinary := (isReserved_eq_false_iff.1 (ordinary c.1 (List.mem_map_of_mem hc))).1
  rw [(List.cons.inj heq).1, hname] at hordinary
  cases hordinary

/-- **No two grades are stored at the same names.** -/
theorem WellFormed.nodup_stored {n : Node} (h : n.WellFormed) : (n.stored.map (·.1)).Nodup := by
  induction h with
  | leaf g => exact List.nodup_singleton _
  | @branch own rest children distinct ordinary below ih =>
    have hchildren := nodup_childrenStored distinct ih
    have hown : [ownKey] ∉ (childrenStored children).map (·.1) :=
      singleton_notMem_childrenStored ordinary rfl
    have hrest : [restKey] ∉ (childrenStored children).map (·.1) :=
      singleton_notMem_childrenStored ordinary rfl
    have hne : restKey ≠ ownKey := by decide
    rw [stored, List.map_append, List.map_append]
    cases own <;> cases rest <;> simp [hchildren, hne, -List.mem_map, hown, hrest]

end Node

/-! ### Legible trees -/

/-- Whether a node is a branch that holds nothing. -/
def Node.isEmpty : Node → Bool
  | leaf _ => false
  | branch own rest children => Branch.isEmpty ⟨own, rest, children⟩

/-- Names that can be told apart in a text, and no empty branch below. -/
inductive Node.Legible : Node → Prop
  | leaf (g : Grade) : Node.Legible (.leaf g)
  | branch {own rest : Option Grade} {children : List (String × Node)}
      (names : ∀ name ∈ Entries.keys children, Path.IsName name)
      (nonempty : ∀ c ∈ children, c.2.isEmpty = false)
      (below : ∀ c ∈ children, Node.Legible c.2) : Node.Legible (.branch own rest children)

/-- A branch whose node is legible. -/
def Branch.Legible (b : Branch) : Prop :=
  b.toNode.Legible

theorem Path.isName_of_isModifier {name : String} (h : isModifier name) : IsName name := by
  rcases (by simpa [isModifier] using h : name = ownKey ∨ name = restKey) with rfl | rfl <;> decide

namespace Node

variable {n m : Node} {path : List String} {g : Grade}

/-- All names on the way to a stored grade are names. -/
theorem Legible.isName_of_mem_stored (h : n.Legible) (hmem : (path, g) ∈ n.stored) :
    ∀ name ∈ path, Path.IsName name := by
  induction h generalizing path with
  | leaf g' =>
    obtain ⟨rfl, -⟩ := Prod.mk.inj (List.mem_singleton.1 hmem)
    exact nofun
  | branch names nonempty below ih =>
    rcases mem_stored_branch.1 hmem with ⟨-, rfl⟩ | ⟨-, rfl⟩ | hmem
    · exact List.forall_mem_singleton.2 (Path.isName_of_isModifier rfl)
    · exact List.forall_mem_singleton.2 (Path.isName_of_isModifier rfl)
    · obtain ⟨c, hc, path', hstored, rfl⟩ := mem_childrenStored.1 hmem
      exact List.forall_mem_cons.2 ⟨names c.1 (List.mem_map_of_mem hc), ih c hc hstored⟩

/-- Something is stored in a node that is not empty. -/
theorem Legible.exists_mem_stored (h : n.Legible) (hne : n.isEmpty = false) :
    ∃ path g, (path, g) ∈ n.stored := by
  induction h with
  | leaf g => exact ⟨[], g, List.mem_singleton_self _⟩
  | @branch own rest children names nonempty below ih =>
    cases hown : own with
    | some g => exact ⟨[ownKey], g, mem_stored_branch.2 (.inr (.inl ⟨rfl, rfl⟩))⟩
    | none =>
    cases hrest : rest with
    | some g => exact ⟨[restKey], g, mem_stored_branch.2 (.inl ⟨rfl, rfl⟩)⟩
    | none =>
    cases hchildren : children with
    | nil => simp [isEmpty, Branch.isEmpty, hown, hrest, hchildren] at hne
    | cons c cs =>
      have hc : c ∈ children := hchildren ▸ List.mem_cons_self
      obtain ⟨path, g, hmem⟩ := ih c hc (nonempty c hc)
      refine ⟨c.1 :: path, g, mem_stored_branch.2 (.inr (.inr ?_))⟩
      exact mem_childrenStored.2 ⟨c, List.mem_cons_self, path, hmem, rfl⟩

/-- Nodes that store something are the same or missing on both sides, if they are told apart by what they
store. -/
theorem sameOption_of_stored {o o' : Option Node} (hsome : ∀ n ∈ o, ∃ path g, (path, g) ∈ n.stored)
    (hsome' : ∀ m ∈ o', ∃ path g, (path, g) ∈ m.stored)
    (hstored : ∀ path g, (∃ n, o = some n ∧ (path, g) ∈ n.stored) ↔ ∃ m, o' = some m ∧ (path, g) ∈ m.stored)
    (hsame : ∀ n ∈ o, ∀ m ∈ o', (∀ path g, (path, g) ∈ n.stored ↔ (path, g) ∈ m.stored) → n.same m) :
    SameOption o o' := by
  cases o with
  | none =>
    cases o' with
    | none => exact .none
    | some m =>
      obtain ⟨path, g, hmem⟩ := hsome' m rfl
      obtain ⟨n, hn, -⟩ := (hstored path g).2 ⟨m, rfl, hmem⟩
      cases hn
  | some n =>
    obtain ⟨path, g, hmem⟩ := hsome n rfl
    obtain ⟨m, rfl, -⟩ := (hstored path g).1 ⟨n, rfl, hmem⟩
    exact .some (hsame n rfl m rfl fun path g ↦ by simpa using hstored path g)

/-- **What is stored says what the tree is.** -/
theorem same_of_stored (hn : n.WellFormed) (hm : m.WellFormed) (hn' : n.Legible) (hm' : m.Legible)
    (h : ∀ path g, (path, g) ∈ n.stored ↔ (path, g) ∈ m.stored) : n.same m := by
  induction n using Node.induction_find? generalizing m with
  | leaf g =>
    have hmem : ([], g) ∈ m.stored := (h [] g).1 (List.mem_singleton_self _)
    cases m with
    | leaf g' =>
      obtain ⟨-, rfl⟩ := Prod.mk.inj (List.mem_singleton.1 hmem)
      exact beq_self_eq_true g
    | branch own rest children => exact absurd hmem nil_notMem_stored_branch
  | branch own rest children ih =>
    cases m with
    | leaf g' => exact absurd ((h [] g').2 (List.mem_singleton_self _)) nil_notMem_stored_branch
    | branch own' rest' children' =>
      have hb := wellFormed_branch_iff.1 hn
      have hc := wellFormed_branch_iff.1 hm
      obtain _ | ⟨-, nonempty, below⟩ := hn'
      obtain _ | ⟨-, nonempty', below'⟩ := hm'
      refine (Branch.same_iff hb.keyed hc.keyed).2 ⟨Option.ext fun g ↦ ?_, Option.ext fun g ↦ ?_,
        fun name ↦ ?_⟩
      · exact hb.own_mem_stored_iff.symm.trans ((h _ _).trans hc.own_mem_stored_iff)
      · exact hb.rest_mem_stored_iff.symm.trans ((h _ _).trans hc.rest_mem_stored_iff)
      cases hname : isModifier name with
      | true =>
        rw [hb.find?_eq_none_of_isModifier hname, hc.find?_eq_none_of_isModifier hname]
        exact .none
      | false =>
        refine sameOption_of_stored (fun n hf ↦ ?_) (fun m hf ↦ ?_) (fun path g ↦ ?_) fun n hf m hf' ↦ ?_
        · have hmem := Entries.mem_of_find? hf
          exact (below _ hmem).exists_mem_stored (nonempty _ hmem)
        · have hmem := Entries.mem_of_find? hf
          exact (below' _ hmem).exists_mem_stored (nonempty' _ hmem)
        · rw [← hb.child_mem_stored_iff hname, ← hc.child_mem_stored_iff hname]
          exact h _ _
        · have hmem := Entries.mem_of_find? hf
          have hmem' := Entries.mem_of_find? hf'
          exact ih name n hf (hb.below _ hmem) (hc.below _ hmem') (below _ hmem) (below' _ hmem')

end Node

/-! ### Texts of rows -/

/-- How a name is shown: a `*` by nothing. -/
def shownName (name : String) : String :=
  if name = restKey then "" else name

/-- The name that is shown by a text. -/
def readName (text : String) : String :=
  if text = "" then restKey else text

theorem readName_shownName {name : String} (h : name ≠ "") : readName (shownName name) = name := by
  by_cases hrest : name = restKey
  · rw [shownName, if_pos hrest, readName, if_pos rfl, hrest]
  · rw [shownName, if_neg hrest, readName, if_neg h]

theorem slash_notMem_shownName {name : String} (h : Path.IsName name) : '/' ∉ (shownName name).toList := by
  unfold shownName
  split
  · exact List.not_mem_nil
  · exact h.slash_notMem

/-- The text of the names on the way to a stored grade. -/
def pathText (path : List String) : String :=
  String.ofList (Path.slashed (path.map shownName))

@[simp] theorem pathText_nil : pathText [] = "" := rfl

theorem pathText_cons (name : String) (path : List String) :
    pathText (name :: path) = "/" ++ shownName name ++ pathText path := by
  rw [← String.toList_inj]
  simp [pathText]

/-- **Names are read off the text of a row.** -/
theorem pathText_inj {path path' : List String} (h : ∀ name ∈ path, Path.IsName name)
    (h' : ∀ name ∈ path', Path.IsName name) (heq : pathText path = pathText path') : path = path' := by
  have hread : ∀ {path : List String}, (∀ name ∈ path, Path.IsName name) →
      (path.map shownName).map readName = path := by
    intro path hpath
    rw [List.map_map, ← List.map_id path, List.map_map]
    exact List.map_congr_left fun name hname ↦ readName_shownName (hpath name hname).ne_empty
  have hslash : ∀ {path : List String}, (∀ name ∈ path, Path.IsName name) →
      ∀ name ∈ path.map shownName, '/' ∉ name.toList := by
    intro path hpath
    exact List.forall_mem_map.2 fun name hname ↦ slash_notMem_shownName (hpath name hname)
  have hshown : path.map shownName = path'.map shownName :=
    (Path.slashed_inj (hslash h) (hslash h')).1 (String.ofList_injective heq)
  rw [← hread h, hshown, hread h']

/-- The row of a stored grade, below a path. -/
def rowAt (base : String) (s : List String × Grade) : Row :=
  ⟨base ++ pathText s.1, s.2⟩

@[simp] theorem rowAt_nil (base : String) (g : Grade) : rowAt base ([], g) = ⟨base, g⟩ := by
  simp [rowAt]

theorem rowAt_cons (base : String) {name : String} (h : name ≠ restKey) (path : List String) (g : Grade) :
    rowAt base (name :: path, g) = rowAt (base ++ "/" ++ name) (path, g) := by
  rw [rowAt, rowAt, pathText_cons, shownName, if_neg h]
  simp [String.append_assoc]

/-- A `*` is shown at the path of its branch, with a slash at the end. -/
theorem rowAt_restKey (base : String) (g : Grade) : rowAt base ([restKey], g) = ⟨base ++ "/", g⟩ := by
  rw [rowAt, pathText_cons, shownName, if_pos rfl]
  simp

/-- A `.` is shown like a child of that name. -/
theorem rowAt_ownKey (base : String) (g : Grade) :
    rowAt base ([ownKey], g) = ⟨base ++ "/" ++ ownKey, g⟩ := by
  rw [rowAt_cons base (by decide), rowAt_nil]

namespace Node

theorem sortRows_perm (children : List (String × List Row)) :
    (sortRows children).Perm (children.flatMap (·.2)) :=
  (List.mergeSort_perm children _).flatMap_right _

theorem childRows_eq_map (base : String) (cs : List (String × Node)) :
    childRows base cs = cs.map fun c ↦ (c.1, c.2.rows base c.1) := by
  induction cs with
  | nil => rfl
  | cons c cs ih => rw [childRows, ih, List.map_cons]

/-- **There is one row for each stored grade.** -/
theorem WellFormed.rows_perm {n : Node} (h : n.WellFormed) (base name : String) :
    (n.rows base name).Perm (n.stored.map (rowAt (base ++ name))) := by
  induction h generalizing base name with
  | leaf g => simp [rows, stored]
  | @branch own rest children distinct ordinary below ih =>
    have hchildren : (sortRows (childRows (base ++ name ++ "/") children)).Perm
        ((childrenStored children).map (rowAt (base ++ name))) := by
      refine (sortRows_perm _).trans ?_
      rw [childRows_eq_map, childrenStored_eq_flatMap, List.flatMap_map, List.map_flatMap]
      refine List.Perm.flatMap_left _ fun c hc ↦ (ih c hc _ _).trans (.of_eq ?_)
      -- A child with the name of the `*` would have the row of its parent's.
      have hne : c.1 ≠ restKey := by
        have hordinary := ordinary c.1 (List.mem_map_of_mem hc)
        rintro heq
        rw [heq] at hordinary
        cases hordinary
      rw [List.map_map]
      exact List.map_congr_left fun s _ ↦ (rowAt_cons (base ++ name) hne s.1 s.2).symm
    have hown : (own.map (⟨base ++ name ++ "/" ++ ownKey, ·⟩)).toList =
        ((own.map (([ownKey], ·))).toList).map (rowAt (base ++ name)) := by
      cases own <;> simp [rowAt_ownKey]
    have hrest : (rest.map (⟨base ++ name ++ "/", ·⟩)).toList =
        ((rest.map (([restKey], ·))).toList).map (rowAt (base ++ name)) := by
      cases rest <;> simp [rowAt_restKey]
    rw [rows, stored, List.map_append, List.map_append, ← hown, ← hrest]
    exact hchildren.append_left _

end Node

namespace Branch

variable {b c : Branch}

theorem WellFormed.rows_perm (h : b.WellFormed) : b.rows.Perm (b.stored.map (rowAt "")) :=
  Node.WellFormed.rows_perm (wellFormed_toNode_iff.2 h) "" ""

theorem Legible.rowAt_inj (hb : b.Legible) (hc : c.Legible) {s s' : List String × Grade} (hs : s ∈ b.stored)
    (hs' : s' ∈ c.stored) (heq : rowAt "" s = rowAt "" s') : s = s' := by
  obtain ⟨htext, hgrade⟩ := Row.mk.inj heq
  rw [String.empty_append, String.empty_append] at htext
  refine Prod.ext (pathText_inj ?_ ?_ htext) hgrade
  · exact Node.Legible.isName_of_mem_stored hb hs
  · exact Node.Legible.isName_of_mem_stored hc hs'

/-- What is stored is read off the rows. -/
theorem Legible.stored_subset_of_rows_eq (hb : b.Legible) (hc : c.Legible) (hwf : b.WellFormed)
    (hwf' : c.WellFormed) (h : b.rows = c.rows) : b.stored ⊆ c.stored := by
  intro s hs
  have hrow : rowAt "" s ∈ c.rows := h ▸ hwf.rows_perm.mem_iff.2 (List.mem_map_of_mem hs)
  obtain ⟨s', hs', heq⟩ := List.mem_map.1 (hwf'.rows_perm.mem_iff.1 hrow)
  exact hb.rowAt_inj hc hs hs' heq.symm ▸ hs'

/-- **Nothing is lost in the rows of a tree**: no two have the same path, there is one for each stored grade,
and no other tree has the same. -/
theorem rows_lossless (hwf : b.WellFormed) (h : b.Legible) :
    (b.rows.map (·.path)).Nodup ∧ b.rows.Perm (b.stored.map (rowAt "")) ∧
      ∀ c : Branch, c.WellFormed → c.Legible → b.rows = c.rows → b.same c := by
  refine ⟨?_, hwf.rows_perm, fun c hwf' h' heq ↦ ?_⟩
  · have hpaths : (b.rows.map (·.path)).Perm ((b.stored.map (·.1)).map pathText) := by
      refine (hwf.rows_perm.map _).trans (.of_eq ?_)
      simp [rowAt, Function.comp_def]
    rw [hpaths.nodup_iff]
    refine (Node.WellFormed.nodup_stored (wellFormed_toNode_iff.2 hwf)).map_on ?_
    intro path hpath path' hpath' htext
    obtain ⟨s, hs, rfl⟩ := List.mem_map.1 hpath
    obtain ⟨s', hs', rfl⟩ := List.mem_map.1 hpath'
    exact pathText_inj (h.isName_of_mem_stored hs) (h.isName_of_mem_stored hs') htext
  · refine Node.same_of_stored (wellFormed_toNode_iff.2 hwf) (wellFormed_toNode_iff.2 hwf') h h' ?_
    exact fun path g ↦ ⟨fun hmem ↦ h.stored_subset_of_rows_eq h' hwf hwf' heq hmem,
      fun hmem ↦ h'.stored_subset_of_rows_eq h hwf' hwf heq.symm hmem⟩

/-- Two orders of the same children, with dots at the ends of their names. -/
theorem rows_lossless_dots :
    let below : Node := .branch none (some .write) [("a.", .leaf .revoked), (".b", .leaf .read)]
    let b : Branch := { own := some .read, children := [("a", below), ("..", .leaf .revoked)] }
    let c : Branch := { own := some .read, children := [("..", .leaf .revoked), ("a", below)] }
    b.WellFormed ∧ b.Legible ∧ c.WellFormed ∧ c.Legible ∧ b.rows = c.rows ∧
      b.rows.map (·.path) = ["/.", "/..", "/a/", "/a/.b", "/a/a."] ∧
      b.rows.Perm (b.stored.map (rowAt "")) ∧ b.same c := by
  intro below b c
  have hb : b.WellFormed := wellFormed_toNode_iff.1 ((Node.isWellFormed_iff _).1 (by decide))
  have hc : c.WellFormed := wellFormed_toNode_iff.1 ((Node.isWellFormed_iff _).1 (by decide))
  have hbelow : below.Legible := .branch (by decide) (by decide)
    (List.forall_mem_cons.2 ⟨.leaf _, List.forall_mem_singleton.2 (.leaf _)⟩)
  have hb' : b.Legible := .branch (by decide) (by decide)
    (List.forall_mem_cons.2 ⟨hbelow, List.forall_mem_singleton.2 (.leaf _)⟩)
  have hc' : c.Legible := .branch (by decide) (by decide)
    (List.forall_mem_cons.2 ⟨.leaf _, List.forall_mem_singleton.2 hbelow⟩)
  have hrows : b.rows = c.rows := by cbv
  obtain ⟨-, hperm, hsame⟩ := rows_lossless hb hb'
  exact ⟨hb, hb', hc, hc', hrows, by cbv, hperm, hsame c hc hc' hrows⟩

end Branch

end PathAccess
