import PathAccess.Proofs.Tree.Alike
import PathAccess.Proofs.Tree.Uncovered
/-!
# Changing a tree in one place

`Branch.changeAt` goes down a path, splits the leaves and makes the branches that it needs on the way, and
changes the branch at the end. What this does to levels is told by two facts. Away from the path nothing
changes (`levelFrom_changeAt_of_not_prefix`). At and below it the level is read from the changed branch
(`levelFrom_changeAt`), with the same level standing above as before, since going down says nothing of its
own (`levelFrom_branchAt`). So two changes cannot be told apart if the two branches that they lead to agree
in their modifiers and in what they say below (`Tree.alikeAt_changeAt`).

A node is replaced by changing the branch that names it. From this it follows which compactions are
invisible wherever they happen (`Branch.folded?_eq_some_iff_alikeAt`): a branch without children can be
replaced by the leaf into which it folds and by no other leaf, and an empty branch can be left out. The trees
are all that are mappings (`Tree.Keyed`), with any names.
-/

namespace PathAccess

namespace Branch

/-- Changes the branch at a path. On the way a leaf is split, and a branch is made where there is none. -/
def changeAt (b : Branch) (path : List String) (f : Branch → Branch) : Branch :=
  match path with
  | [] => f b
  | name :: path => b.setChild name ((b.below name).changeAt path f).toNode

/-- The branch at a path, once the way there is made. -/
def branchAt (b : Branch) (path : List String) : Branch :=
  path.foldl below b

/-- What stands above a path, once the way there is made, with `above` standing before the first branch. -/
def standingOver (b : Branch) (path : List String) (above : Level) : Level :=
  match path with
  | [] => above
  | name :: path => (b.below name).standingOver path (b.rest <|> above)

variable {b : Branch} {path : List String} {f : Branch → Branch}

/-! ### The way to a branch -/

/-- **Making the way to a branch says nothing of its own.** -/
theorem levelFrom_branchAt (b : Branch) (path : List String) (above : Level)
    (query : List String) :
    levelFrom (some b.toNode) above (path ++ query) =
      levelFrom (some (b.branchAt path).toNode) (b.standingOver path above) query := by
  induction path generalizing b above with
  | nil => rfl
  | cons name path ih =>
    rw [List.cons_append, levelFrom_toNode_cons, ← levelFrom_below, ih]
    rfl

/-- Below a name, the branch made there names what is named there. What is made on the way, a split leaf or
an empty branch, names nothing. -/
theorem nodeAt?_below (b : Branch) (name : String) (h : path ≠ []) :
    (b.below name).toNode.nodeAt? path = b.toNode.nodeAt? (name :: path) := by
  obtain ⟨segment, path, rfl⟩ := List.exists_cons_of_ne_nil h
  rw [toNode, toNode, Node.nodeAt?_branch_cons, Node.nodeAt?_branch_cons]
  unfold Branch.below
  split <;> rename_i hf
  · rw [hf]
    rfl
  · rw [hf]
    rfl
  · rw [hf]
    rfl

/-- The branch at a path names the nodes that the path leads to with one name more. -/
theorem find?_branchAt (b : Branch) (path : List String) (name : String) :
    Entries.find? (b.branchAt path).children name = b.toNode.nodeAt? (path ++ [name]) := by
  induction path generalizing b with
  | nil => exact (nodeAt?_singleton b name).symm
  | cons segment path ih =>
    have hne : path ++ [name] ≠ [] := List.append_ne_nil_of_right_ne_nil path (List.cons_ne_nil name [])
    exact (ih (b.below segment)).trans (nodeAt?_below b segment hne)

theorem Keyed.branchAt (hb : b.Keyed) (path : List String) : (b.branchAt path).Keyed := by
  induction path generalizing b with
  | nil => exact hb
  | cons name path ih => exact ih (hb.below_branch name)

theorem Keyed.toNode (hb : b.Keyed) : b.toNode.Keyed :=
  .branch hb.distinct hb.below

/-! ### Changes -/

/-- **At and below its path** a change is read from the changed branch. -/
theorem levelFrom_changeAt (b : Branch) (path : List String) (f : Branch → Branch) (above : Level)
    (query : List String) :
    levelFrom (some (b.changeAt path f).toNode) above (path ++ query) =
      levelFrom (some (f (b.branchAt path)).toNode) (b.standingOver path above) query := by
  induction path generalizing b above with
  | nil => rfl
  | cons name path ih =>
    rw [List.cons_append, levelFrom_toNode_cons, changeAt, setChild, Entries.find?_set_self]
    exact ih (b.below name) (b.rest <|> above)

/-- The modifiers of a branch are changed at the branch itself only. -/
theorem modifiers_changeAt (h : path ≠ []) :
    (b.changeAt path f).own = b.own ∧ (b.changeAt path f).rest = b.rest := by
  obtain ⟨name, path, rfl⟩ := List.exists_cons_of_ne_nil h
  exact ⟨rfl, rfl⟩

/-- **Away from its path** a change is not seen. -/
theorem levelFrom_changeAt_of_not_prefix {query : List String} (h : ¬path <+: query)
    (above : Level) :
    levelFrom (some (b.changeAt path f).toNode) above query =
      levelFrom (some b.toNode) above query := by
  induction path generalizing b query above with
  | nil => exact absurd List.nil_prefix h
  | cons name path ih =>
    cases query with
    | nil => rfl
    | cons segment query =>
      rw [levelFrom_toNode_cons, levelFrom_toNode_cons, changeAt, setChild]
      by_cases hs : segment = name
      · subst hs
        rw [List.cons_prefix_cons, not_and] at h
        rw [Entries.find?_set_self, ih (h rfl), levelFrom_below]
      · rw [Entries.find?_set_of_ne hs]

/-- The changed branch is found at its path. -/
theorem nodeAt?_changeAt (b : Branch) (path : List String) (f : Branch → Branch)
    (query : List String) :
    (b.changeAt path f).toNode.nodeAt? (path ++ query) =
      (f (b.branchAt path)).toNode.nodeAt? query := by
  induction path generalizing b with
  | nil => rfl
  | cons name path ih =>
    rw [List.cons_append, changeAt, setChild, toNode, Node.nodeAt?_branch_cons,
      Entries.find?_set_self]
    exact ih (b.below name)

end Branch

namespace Tree

variable {t : Tree} {path query : List String} {f e : Branch → Branch}

/-- Changes the branch at a path. On the way a leaf is split, and a branch is made where there is none. -/
def changeAt (t : Tree) (path : List String) (f : Branch → Branch) : Tree :=
  { t with root := t.root.changeAt path f }

/-- Away from its path a change is not seen. -/
theorem levelAt_changeAt_of_not_prefix (h : ¬path <+: query) :
    (t.changeAt path f).levelAt query = t.levelAt query := by
  have hne : path ≠ [] := fun hnil ↦ h (hnil ▸ List.nil_prefix)
  obtain ⟨hown, hrest⟩ := Branch.modifiers_changeAt (b := t.root) (f := f) hne
  exact levelAt_congr hown hrest (Branch.levelFrom_changeAt_of_not_prefix h none)

/-- Below the path root, the level at a path is read from the branch at any of its prefixes. -/
theorem levelAt_append (h : path ++ query ≠ []) :
    t.levelAt (path ++ query) =
      levelFrom (some (t.root.branchAt path).toNode) (t.root.standingOver path none) query := by
  rw [levelAt_eq_levelFrom fun hnil ↦ absurd hnil h, Branch.levelFrom_branchAt]

/-- At and below its path a change is read from the changed branch. -/
theorem levelAt_changeAt (h : path ++ query ≠ []) :
    (t.changeAt path f).levelAt (path ++ query) =
      levelFrom (some (f (t.root.branchAt path)).toNode) (t.root.standingOver path none) query := by
  rw [levelAt_eq_levelFrom fun hnil ↦ absurd hnil h, changeAt, Branch.levelFrom_changeAt]

/-- **Two changes cannot be told apart** if the branches that they lead to have the same modifiers and say
the same below. -/
theorem alikeAt_changeAt (hown : (f (t.root.branchAt path)).own = (e (t.root.branchAt path)).own)
    (hrest : (f (t.root.branchAt path)).rest = (e (t.root.branchAt path)).rest)
    (hbelow : ∀ above segment query,
      levelFrom (some (f (t.root.branchAt path)).toNode) above (segment :: query) =
        levelFrom (some (e (t.root.branchAt path)).toNode) above (segment :: query))
    (query : List String) : (t.changeAt path f).AlikeAt (t.changeAt path e) query := by
  rw [alikeAt_iff]
  by_cases hprefix : path <+: query
  · obtain ⟨query, rfl⟩ := hprefix
    by_cases hnil : path ++ query = []
    · -- The level at the path root is read from the modifiers of the root.
      obtain ⟨rfl, rfl⟩ := List.append_eq_nil_iff.1 hnil
      exact congrArg₂ (· <|> ·) hown hrest
    · rw [levelAt_changeAt hnil, levelAt_changeAt hnil]
      cases query with
      | nil => simp only [levelFrom_toNode_nil, Branch.answer, hown, hrest]
      | cons segment query => exact hbelow _ _ _
  · have hsame (d : Branch → Branch) : (t.changeAt path d).levelAt query = t.levelAt query :=
      levelAt_changeAt_of_not_prefix hprefix
    rw [hsame, hsame]

/-- A change that changes nothing, except that it makes the way there. -/
theorem alikeAt_changeAt_id (t : Tree) (path query : List String) :
    (t.changeAt path id).AlikeAt t query := by
  rw [alikeAt_iff]
  by_cases hprefix : path <+: query
  · obtain ⟨query, rfl⟩ := hprefix
    by_cases hnil : path ++ query = []
    · obtain ⟨rfl, rfl⟩ := List.append_eq_nil_iff.1 hnil
      rfl
    · rw [levelAt_changeAt hnil, levelAt_append hnil, id]
  · exact levelAt_changeAt_of_not_prefix hprefix

theorem AlikeAt.trans {u v : Tree} (h : t.AlikeAt u query) (h' : u.AlikeAt v query) :
    t.AlikeAt v query := by
  rw [alikeAt_iff] at h h' ⊢
  rw [h, h']

/-! ### Replacing a node -/

/-- **A node can be replaced** by one that says the same, whatever stands above, and left out if nothing
says the same. -/
theorem alikeAt_putChild (ht : t.Keyed) {name : String} {n : Node}
    (h : t.nodeAt? (path ++ [name]) = some n) {m : Option Node}
    (hm : ∀ above query, levelFrom m above query = levelFrom (some n) above query)
    (query : List String) : (t.changeAt path (·.putChild name m)).AlikeAt t query := by
  refine AlikeAt.trans (alikeAt_changeAt (e := id) ?_ ?_ ?_ query)
    (alikeAt_changeAt_id t path query)
  · exact Branch.own_putChild _ _ _
  · exact Branch.rest_putChild _ _ _
  · intro above segment query
    have hkeyed := Branch.Keyed.branchAt ht path
    rw [Branch.levelFrom_putChild hkeyed.distinct]
    split <;> rename_i hs
    · subst hs
      rw [hm, id, levelFrom_toNode_cons, Branch.find?_branchAt]
      exact congrArg (levelFrom · _ _) h.symm
    · rfl

end Tree

/-! ### Invisible compactions -/

theorem Grade.exists_ne (g : Grade) : ∃ h, h ≠ g := by
  cases g with
  | revoked => exact ⟨.read, by decide⟩
  | _ => exact ⟨.revoked, by decide⟩

namespace Tree

/-- A tree whose root names one child and may have a `*`. -/
def around (rest : Option Grade) (name : String) (n : Node) : Tree :=
  { root := { rest, children := [(name, n)] } }

variable (rest : Option Grade) (name : String) (n : Node)

/-- In it the child is read with the `*` of the root above it. -/
theorem levelAt_around : (around rest name n).levelAt [name] = levelFrom (some n) rest [] := by
  have hrest : (rest <|> none) = rest := by cases rest <;> rfl
  rw [levelAt, around, levelFrom_toNode_cons, Entries.find?_cons_self, hrest]

theorem nodeAt?_around : (around rest name n).nodeAt? [name] = some n := by
  rw [nodeAt?, Branch.nodeAt?_singleton, around, Entries.find?_cons_self]

theorem changeAt_around (m : Node) :
    (around rest name n).changeAt [] (·.putChild name (some m)) = around rest name m := by
  simp [around, changeAt, Branch.changeAt, Branch.putChild, Branch.setChild, Entries.set]

variable {n} in
theorem keyed_around (h : n.Keyed) : (around rest name n).Keyed :=
  ⟨List.pairwise_singleton _ name, List.forall_mem_singleton.2 h⟩

end Tree

namespace Branch

/-- Both modifiers of a branch are asked for by some level above it: the `*` where nothing stands, and the
`.` where something else than its own grade does. -/
theorem folded?_eq_some_of_answer {b : Branch} (hb : b.children = []) {g : Grade}
    (h : ∀ above, b.answer above = some g) : b.folded? = some g := by
  have hrest : b.rest = some g := by simpa [answer] using h none
  have hown : b.own = some g := by
    obtain ⟨other, hother⟩ := Grade.exists_ne g
    have hstands := h (some other)
    cases hcase : b.own with
    | none => exact absurd (by simpa [answer, hcase] using hstands) hother
    | some own => simpa [answer, hcase] using hstands
  exact folded?_eq_some_iff.2 ⟨hb, hown, hrest⟩

/-- **Only a fold is invisible everywhere.** A branch without children folds into the grade of a leaf exactly
if the leaf can take its place anywhere below the root of any tree, and no evaluation of any path tells the
trees apart. And an empty branch can be left out anywhere below the root of any tree. -/
theorem folded?_eq_some_iff_alikeAt {b : Branch} (hb : b.children = []) (g : Grade) :
    (b.folded? = some g ↔ ∀ (t : Tree) (path : List String) (name : String), t.Keyed →
      t.nodeAt? (path ++ [name]) = some b.toNode →
      ∀ query, (t.changeAt path (·.putChild name (some (.leaf g)))).AlikeAt t query) ∧
    (b.isEmpty → ∀ (t : Tree) (path : List String) (name : String), t.Keyed →
      t.nodeAt? (path ++ [name]) = some b.toNode →
      ∀ query, (t.changeAt path (·.putChild name none)).AlikeAt t query) := by
  refine ⟨⟨fun h t path name ht hnode ↦ ?_, fun h ↦ ?_⟩, fun h t path name ht hnode ↦ ?_⟩
  · refine Tree.alikeAt_putChild ht hnode fun above query ↦ ?_
    rw [levelFrom_leaf, levelFrom_of_folded? h]
  · -- A tree that has nothing but the branch tells it from every other leaf.
    refine folded?_eq_some_of_answer hb fun above ↦ ?_
    have hkeyed : (Tree.around above "a" b.toNode).Keyed :=
      Tree.keyed_around above "a" (keyed_of_children_eq_nil hb).toNode
    have halike := h _ [] "a" hkeyed (Tree.nodeAt?_around above "a" b.toNode) ["a"]
    rw [Tree.alikeAt_iff, Tree.changeAt_around, Tree.levelAt_around, Tree.levelAt_around,
      levelFrom_leaf, levelFrom_toNode_nil] at halike
    exact halike.symm
  · refine Tree.alikeAt_putChild ht hnode fun above query ↦ ?_
    rw [levelFrom_none, levelFrom_of_isEmpty h]

/-- The branch is named by another one, and the root has a `*`. -/
theorem folded?_eq_some_iff_alikeAt_nested :
    let b : Branch := ⟨some .write, some .write, []⟩
    let t : Tree := {
      root := { rest := some .read, children := [("d", .branch none none [("x", b.toNode)])] } }
    let folded : Tree := {
      root := { rest := some .read, children := [("d", .branch none none [("x", .leaf .write)])] } }
    (b.children = [] ∧ b.folded? = some .write ∧ t.Keyed ∧ t.nodeAt? ["d", "x"] = some b.toNode) ∧
      ∀ query, folded.AlikeAt t query := by
  intro b t folded
  have ht : t.Keyed := (by decide : t.WellFormed).keyed
  refine ⟨⟨rfl, rfl, ht, rfl⟩, ?_⟩
  exact (folded?_eq_some_iff_alikeAt rfl .write).1.1 rfl t ["d"] "x" ht rfl

end Branch

end PathAccess
