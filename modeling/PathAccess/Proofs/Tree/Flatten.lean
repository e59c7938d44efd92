import PathAccess.Proofs.Evaluation.Priority
import PathAccess.Proofs.Tree.Marred
/-!
# When the flattened view is faithful

The trees of a principal are shown as one by laying them under one another in order of priority. That
view is faithful, if it has at every path the level that the list of trees has. `flatten_faithful_iff`
says for which lists it is: for those in which each tree blends into what the trees before it have
become. One tree that does not is enough, since no tree after it makes up for it.

Not all lists are of this kind. A lower leaf becomes the `*` of a directory that the higher tree names
without giving it one, even though a level stands there in the higher tree
(`flatten_not_faithful`).
-/

namespace PathAccess

/-- Whether each of the trees blends into what those before it have become. -/
def BlendsAll (root : Branch) : List Tree → Prop
  | [] => True
  | t :: ts =>
    Blends (some root.toNode) none none (some t.root.toNode) ∧
      BlendsAll (root.overlay t.root none) ts

/-- The trees laid under a branch in turn. -/
def Branch.overlayAll (root : Branch) (ts : List Tree) : Branch :=
  ts.foldl (fun root t ↦ root.overlay t.root none) root

theorem Branch.overlayAll_cons (root : Branch) (t : Tree) (ts : List Tree) :
    root.overlayAll (t :: ts) = (root.overlay t.root none).overlayAll ts := rfl

/-- The level that a list of trees gives at a path, after a branch of higher priority. -/
def levelsAfter (root : Branch) (ts : List Tree) (path : List String) : Level :=
  (Tree.levelAt { root } path <|> ts.findSome? fun t ↦ t.levelAt path)

theorem levelsAfter_cons (root : Branch) (t : Tree) (ts : List Tree) (path : List String) :
    levelsAfter root (t :: ts) path =
      (Tree.levelAt { root } path <|> t.levelAt path <|> ts.findSome? fun t ↦ t.levelAt path) := by
  rw [levelsAfter, List.findSome?_cons]
  cases t.levelAt path <;> simp

/-- The level of a list of trees, one after the other. -/
theorem level_evaluateTrees (trees : List OwnedTree) (path : List String) :
    (evaluateTrees trees path).level =
      (trees.map (·.tree)).findSome? fun t ↦ t.levelAt path := by
  induction trees with
  | nil => simp
  | cons t trees ih =>
    rw [evaluateTrees_cons, List.map_cons, List.findSome?_cons]
    cases h : t.tree.levelAt path with
    | none => simpa using ih
    | some g => simp

/-- The path root is always right: an overlay has a `.` only where it has no `*` of higher
priority. -/
theorem levelAt_overlay_nil (root : Branch) (t : Tree) :
    Tree.levelAt { root := root.overlay t.root none } [] =
      (Tree.levelAt { root } [] <|> t.levelAt []) := by
  simp only [Tree.levelAt, Branch.overlay_own, Branch.overlay_rest]
  rcases root.own with - | o <;> rcases root.rest with - | r <;> simp

/-- A tree that blends is seen below what is there, and nothing else is. -/
theorem levelAt_overlay {root : Branch} {t : Tree} (ht : t.WellFormed)
    (h : Blends (some root.toNode) none none (some t.root.toNode)) (path : List String) :
    Tree.levelAt { root := root.overlay t.root none } path =
      (Tree.levelAt { root } path <|> t.levelAt path) := by
  rcases path with - | ⟨s, path⟩
  · exact levelAt_overlay_nil root t
  · refine levelFrom_overlaid h (fun n hn ↦ ?_) (s :: path)
    obtain rfl : t.root.toNode = n := by simpa using hn
    exact Branch.wellFormed_toNode_iff.2 ht

/-- The levels that are meant below the root. The root itself is left out, since it is always
right. -/
def meantBelow (root : Branch) (t : Tree) : List String → Level
  | [] => none
  | s :: path => (Tree.levelAt { root } (s :: path) <|> t.levelAt (s :: path))

/-- A tree that does not blend spoils the root. -/
theorem spoiled_of_not_blends {root : Branch} {t : Tree} (ht : t.WellFormed)
    (h : ¬ Blends (some root.toNode) none none (some t.root.toNode)) :
    Spoiled (meantBelow root t) false (root.overlay t.root none).toNode := by
  have hmarred := (blends_or_marred (Branch.wellFormed_toNode_iff.2 ht) root none none
    (meantBelow root t) fun path hpath ↦ ?_).resolve_left h
  · exact hmarred.resolve_right fun ⟨d, _, hd, _⟩ ↦ nomatch hd
  · obtain ⟨s, path, rfl⟩ := List.exists_cons_of_ne_nil (hpath.resolve_right (by simp))
    rfl

/-- What is spoiled stays so under all further trees. -/
theorem Spoiled.overlayAll {f : List String → Level} {root : Branch} {ts : List Tree}
    (h : Spoiled f false root.toNode) (hts : ∀ t ∈ ts, t.WellFormed) :
    Spoiled f false (root.overlayAll ts).toNode := by
  induction ts generalizing root with
  | nil => exact h
  | cons t ts ih =>
    have ht : ∀ n ∈ some t.root.toNode, n.WellFormed := fun n hn ↦ by
      obtain rfl : t.root.toNode = n := by simpa using hn
      exact Branch.wellFormed_toNode_iff.2 (hts t List.mem_cons_self)
    obtain ⟨c, hc, hspoiled⟩ := h.overlaid false none ht
    rw [overlaid_toNode, Option.some.injEq] at hc
    subst hc
    exact ih hspoiled fun t' ht' ↦ hts t' (List.mem_cons_of_mem _ ht')

/-- **Trees laid under one another are seen as a list exactly if each blends in.** -/
theorem levelAt_overlayAll_iff {ts : List Tree} (hts : ∀ t ∈ ts, t.WellFormed) (root : Branch) :
    (∀ path, Tree.levelAt { root := root.overlayAll ts } path = levelsAfter root ts path) ↔
      BlendsAll root ts := by
  induction ts generalizing root with
  | nil =>
    refine iff_of_true (fun path ↦ ?_) trivial
    simp [Branch.overlayAll, levelsAfter]
  | cons t ts ih =>
    have ht := hts t List.mem_cons_self
    have hts' : ∀ t' ∈ ts, t'.WellFormed := fun t' ht' ↦ hts t' (List.mem_cons_of_mem _ ht')
    by_cases h : Blends (some root.toNode) none none (some t.root.toNode)
    · have hlevels : ∀ path, levelsAfter (root.overlay t.root none) ts path =
          levelsAfter root (t :: ts) path := fun path ↦ by
        rw [levelsAfter_cons, levelsAfter, levelAt_overlay ht h]
        cases Tree.levelAt { root } path <;> rfl
      simp only [Branch.overlayAll_cons, ← hlevels]
      rw [ih hts', BlendsAll, and_iff_right h]
    · refine iff_of_false (fun hall ↦ ?_) fun hb ↦ h hb.1
      have hspoiled := (spoiled_of_not_blends ht h).overlayAll hts'
      have hbelow : false = true → Option.isSome (none : Level) := fun h ↦ absurd h Bool.false_ne_true
      obtain ⟨path, l, hmeant, hne⟩ := hspoiled.exists_ne hbelow
      rcases path with - | ⟨s, path⟩
      · cases hmeant
      · refine hne ((hall (s :: path)).trans ?_)
        have hl : (Tree.levelAt { root } (s :: path) <|> t.levelAt (s :: path)) = some l := hmeant
        rw [levelsAfter_cons]
        rcases hroot : Tree.levelAt { root } (s :: path) with - | g <;> simp_all

/-- **The flattened view is faithful exactly if each tree blends into those before it.** -/
theorem flatten_faithful_iff {trees : List OwnedTree} (h : ∀ t ∈ trees, t.tree.WellFormed)
    (owner : String) :
    (∀ path, (evaluateTrees [⟨owner, Tree.flatten (trees.map (·.tree))⟩] path).level =
        (evaluateTrees trees path).level) ↔
      BlendsAll {} (trees.map (·.tree)) := by
  have hts : ∀ t ∈ trees.map (·.tree), t.WellFormed := fun t ht ↦ by
    obtain ⟨t', ht', rfl⟩ := List.mem_map.1 ht
    exact h t' ht'
  rw [← levelAt_overlayAll_iff hts]
  refine forall_congr' fun path ↦ ?_
  have hempty : Tree.levelAt { root := {} } path = none := Tree.levelAt_of_isEmpty rfl path
  rw [evaluateTrees_singleton, level_evaluateTrees, levelsAfter, hempty]
  simp [Tree.flatten, Branch.overlayAll]

/-- Two trees that blend: the lower one adds a `*` at the root, which the directory of the higher one
is quiet for. -/
theorem flatten_faithful_of_quiet :
    let trees : List OwnedTree := [
      ⟨"high", { root := { children := [("a", .branch none none [("x", .leaf .grant)])] } }⟩,
      ⟨"low", { root := { rest := some .read } }⟩]
    (∀ t ∈ trees, t.tree.WellFormed) ∧ ∀ path,
      (evaluateTrees [⟨"view", Tree.flatten (trees.map (·.tree))⟩] path).level =
        (evaluateTrees trees path).level := by
  intro trees
  have hwf : ∀ t ∈ trees, t.tree.WellFormed := by decide
  refine ⟨hwf, (flatten_faithful_iff hwf "view").2 ⟨blends_empty _, ?_, trivial⟩⟩
  refine .branchUnder ⟨none, none, [("a", .branch none none [("x", .leaf .grant)])]⟩
    ⟨none, some .read, []⟩ (fun h ↦ absurd h Bool.false_ne_true) (fun _ h ↦ nomatch h) fun s _ ↦ ?_
  by_cases hs : "a" = s
  · subst hs
    refine .kept (.branch none none [("x", .leaf .grant)]) fun _ g _ ↦
      .branch rfl fun _ s n hn ↦ ?_
    obtain ⟨-, rfl⟩ : s = "x" ∧ n = .leaf .grant := by simpa using Entries.mem_of_find? hn
    exact .leaf .grant
  · rw [Entries.find?_cons_of_ne hs]
    exact .unnamed _ _

/-- **The flattened view is not always faithful.** The higher tree reads everywhere and names one
entry of `/a`; the lower one has a leaf at `/a`. In the view that leaf has become the `*` of `/a`, and
allows writing where the list of trees allows reading only. -/
theorem flatten_not_faithful :
    let trees : List OwnedTree := [
      ⟨"high", { root :=
        { rest := some .read, children := [("a", .branch none none [("x", .leaf .grant)])] } }⟩,
      ⟨"low", { root := { children := [("a", .leaf .write)] } }⟩]
    (∀ t ∈ trees, t.tree.WellFormed) ∧
      (evaluateTrees trees ["a", "y"]).level = some .read ∧
      (evaluateTrees [⟨"view", Tree.flatten (trees.map (·.tree))⟩] ["a", "y"]).level =
        some .write := by
  intro trees
  exact ⟨by decide, by decide, by decide⟩

end PathAccess
