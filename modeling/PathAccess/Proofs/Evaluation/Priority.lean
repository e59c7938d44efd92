import PathAccess.Proofs.Tree.Reading
/-!
# Priority among trees

Trees are tried in order at every segment, and the cursors behind the first one that decides stay
where they are. Yet the level at a path is that of the first tree, in order of priority, that decides
the path when it is walked alone.

The invariant behind this is `Cursor.standing_run_isSome`: a tree that has decided once decides
again. So the deciding position never moves down the list, and the trees up to the one that decides
the last segment have been stepped at every segment. What the others hold is never asked for again:
`walkExchanging` hands them out to an adversary after each segment, and the decision is the same
(`decision?_walkExchanging`). The lazy walk is the case where nothing is exchanged.

## Main results

* `evaluateTrees_cons`: the first tree decides, or else the list behind it does.
* `evaluateTrees_eq_firstDecider`: the level is that of the first decider, the eager walk gives the
  same, and so does every walk with its lagging cursors exchanged.
-/

namespace PathAccess

namespace Cursor

/-! ### Walks that treat the cursors behind the decider differently -/

/-- The first cursor with something standing: its position and what stands. -/
def firstStanding : List Cursor → Option (Nat × Level)
  | [] => none
  | c :: cs =>
    if c.standing.isSome then some (0, c.standing)
    else (firstStanding cs).map fun (i, l) => (i + 1, l)

/-- The eager walk: every tree is stepped at every segment. -/
def walkEagerly (cs : List Cursor) : List String → List Step
  | [] => []
  | segment :: path =>
    let cs := cs.map (·.step segment path.isEmpty)
    ⟨segment, (firstStanding cs).map (·.1), cs⟩ :: walkEagerly cs path

/-- What becomes of the cursors when those behind the deciding one are exchanged. -/
def exchangeBehind (exchange : List Cursor → List Cursor) : Option Nat × List Cursor → List Cursor
  | (none, cs) => cs
  | (some w, cs) => cs.take (w + 1) ++ exchange (cs.drop (w + 1))

/-- The lazy walk with the cursors behind the deciding one exchanged after each segment for any
others, which may depend on them and on the path that is left. -/
def walkExchanging (exchange : List String → List Cursor → List Cursor) (cs : List Cursor) :
    List String → List Step
  | [] => []
  | segment :: path =>
    let (winner, cs) := stepAll segment path.isEmpty cs
    let cs := exchangeBehind (exchange path) (winner, cs)
    ⟨segment, winner, cs⟩ :: walkExchanging exchange cs path

theorem walkEagerly_cons (cs : List Cursor) (segment : String) (path : List String) :
    walkEagerly cs (segment :: path) =
      ⟨segment, (firstStanding (cs.map (·.step segment path.isEmpty))).map (·.1),
        cs.map (·.step segment path.isEmpty)⟩ ::
      walkEagerly (cs.map (·.step segment path.isEmpty)) path := rfl

theorem walkEagerly_ne_nil (cs : List Cursor) (segment : String) (path : List String) :
    walkEagerly cs (segment :: path) ≠ [] :=
  List.cons_ne_nil _ _

theorem walkExchanging_cons (exchange : List String → List Cursor → List Cursor)
    (cs : List Cursor) (segment : String) (path : List String) :
    walkExchanging exchange cs (segment :: path) =
      ⟨segment, (stepAll segment path.isEmpty cs).1,
        exchangeBehind (exchange path) (stepAll segment path.isEmpty cs)⟩ ::
      walkExchanging exchange (exchangeBehind (exchange path) (stepAll segment path.isEmpty cs))
        path := rfl

theorem walkExchanging_ne_nil (exchange : List String → List Cursor → List Cursor)
    (cs : List Cursor) (segment : String) (path : List String) :
    walkExchanging exchange cs (segment :: path) ≠ [] :=
  List.cons_ne_nil _ _

theorem firstStanding_cons_of_isSome {c : Cursor} (h : c.standing.isSome) (cs : List Cursor) :
    firstStanding (c :: cs) = some (0, c.standing) := by
  simp [firstStanding, h]

theorem firstStanding_cons_of_none {c : Cursor} (h : c.standing = none) (cs : List Cursor) :
    firstStanding (c :: cs) = (firstStanding cs).map fun (i, l) => (i + 1, l) := by
  simp [firstStanding, h]

theorem stepAll_cons_of_isSome {c : Cursor} {segment : String} {final : Bool}
    (h : (c.step segment final).standing.isSome) (cs : List Cursor) :
    stepAll segment final (c :: cs) = (some 0, c.step segment final :: cs) := by
  simp [stepAll, h]

theorem stepAll_cons_of_none {c : Cursor} {segment : String} {final : Bool}
    (h : (c.step segment final).standing = none) (cs : List Cursor) :
    stepAll segment final (c :: cs) =
      ((stepAll segment final cs).1.map (· + 1),
        c.step segment final :: (stepAll segment final cs).2) := by
  simp [stepAll, h]

theorem exchangeBehind_cons (exchange : List Cursor → List Cursor) (w : Option Nat) (c : Cursor)
    (cs : List Cursor) :
    exchangeBehind exchange (w.map (· + 1), c :: cs) = c :: exchangeBehind exchange (w, cs) := by
  cases w <;> rfl

/-- The lazy walk exchanges nothing. -/
theorem walk_eq_walkExchanging (cs : List Cursor) (path : List String) :
    walk cs path = walkExchanging (fun _ cs ↦ cs) cs path := by
  have hsame : ∀ p : Option Nat × List Cursor, exchangeBehind (fun cs ↦ cs) p = p.2 := by
    rintro ⟨_ | w, cs⟩
    · rfl
    · exact List.take_append_drop _ _
  induction path generalizing cs with
  | nil => rfl
  | cons segment path ih => simp only [walk, walkExchanging, hsame, ih]

/-! ### The decision of a walk

Both lemmas about one segment go through the list as the lazy step does: up to the decider the
cursors move, and the decider ends the search. -/

theorem decision?_cons (step : Step) {steps : List Step} (h : steps ≠ []) :
    decision? (step :: steps) = decision? steps := by
  obtain ⟨step', steps, rfl⟩ := List.exists_cons_of_ne_nil h
  rfl

theorem decision?_singleton (segment : String) (w : Option Nat) (cs : List Cursor) :
    decision? [⟨segment, w, cs⟩] = w.bind fun i ↦ (cs[i]?).map fun c ↦ (i, c.standing) := by
  rcases w with - | i
  · rfl
  · cases h : cs[i]? <;> simp [decision?, h]

/-- **The last segment**: the decision is read off the cursors that were stepped. -/
theorem decision?_stepAll (segment : String) (final : Bool) (exchange : List Cursor → List Cursor)
    (cs : List Cursor) :
    decision? [⟨segment, (stepAll segment final cs).1,
        exchangeBehind exchange (stepAll segment final cs)⟩] =
      firstStanding (cs.map (·.step segment final)) := by
  rw [decision?_singleton]
  induction cs with
  | nil => rfl
  | cons c cs ih =>
    by_cases h : (c.step segment final).standing.isSome
    · rw [List.map_cons, firstStanding_cons_of_isSome h, stepAll_cons_of_isSome h]
      rfl
    · have hnone := Option.not_isSome_iff_eq_none.1 h
      rw [List.map_cons, firstStanding_cons_of_none hnone, ← ih, stepAll_cons_of_none hnone,
        exchangeBehind_cons]
      rcases stepAll segment final cs with ⟨_ | w, cs'⟩
      · rfl
      · simp [Option.map_map, Function.comp_def]

/-- **A segment before the last** changes no decision, whatever is put behind its decider: the
decider has something standing for the rest of the walk. -/
theorem firstStanding_run_exchangeBehind (segment : String) (path : List String)
    (exchange : List Cursor → List Cursor) (cs : List Cursor) :
    firstStanding ((exchangeBehind exchange (stepAll segment path.isEmpty cs)).map (·.run path)) =
      firstStanding (cs.map (·.run (segment :: path))) := by
  induction cs with
  | nil => rfl
  | cons c cs ih =>
    by_cases h : (c.step segment path.isEmpty).standing.isSome
    · -- What was exchanged is behind `c`, which has something standing at the end as well.
      have hrun : (c.run (segment :: path)).standing.isSome := standing_run_isSome h path
      rw [stepAll_cons_of_isSome h, List.map_cons, firstStanding_cons_of_isSome hrun]
      exact firstStanding_cons_of_isSome hrun _
    · have hnone := Option.not_isSome_iff_eq_none.1 h
      rw [stepAll_cons_of_none hnone, exchangeBehind_cons, List.map_cons, List.map_cons,
        ← run_cons]
      simp only [firstStanding, ih]

/-- **Every exchanging walk decides like the cursors walked one by one.** -/
theorem decision?_walkExchanging (exchange : List String → List Cursor → List Cursor)
    {path : List String} (h : path ≠ []) (cs : List Cursor) :
    decision? (walkExchanging exchange cs path) = firstStanding (cs.map (·.run path)) := by
  induction path generalizing cs with
  | nil => exact absurd rfl h
  | cons segment path ih =>
    cases path with
    | nil => exact decision?_stepAll segment true (exchange []) cs
    | cons segment' path =>
      rw [walkExchanging_cons, decision?_cons _ (walkExchanging_ne_nil _ _ _ _),
        ih (List.cons_ne_nil _ _)]
      exact firstStanding_run_exchangeBehind segment (segment' :: path) _ cs

theorem decision?_walk {path : List String} (h : path ≠ []) (cs : List Cursor) :
    decision? (walk cs path) = firstStanding (cs.map (·.run path)) := by
  rw [walk_eq_walkExchanging]
  exact decision?_walkExchanging _ h cs

/-- The position of the first standing cursor holds what it says. -/
theorem firstStanding_getElem? (cs : List Cursor) :
    ((firstStanding cs).map (·.1)).bind (fun i ↦ (cs[i]?).map fun c ↦ (i, c.standing)) =
      firstStanding cs := by
  induction cs with
  | nil => rfl
  | cons c cs ih =>
    by_cases h : c.standing.isSome
    · rw [firstStanding_cons_of_isSome h]
      rfl
    · rw [firstStanding_cons_of_none (Option.not_isSome_iff_eq_none.1 h)]
      rcases hf : firstStanding cs with - | ⟨i, l⟩
      · rfl
      · rw [hf] at ih
        obtain ⟨c', hc', heq⟩ := Option.map_eq_some_iff.1 ih
        simp [hc', (Prod.mk.inj heq).2]

/-- The eager walk decides like the cursors walked one by one. -/
theorem decision?_walkEagerly {path : List String} (h : path ≠ []) (cs : List Cursor) :
    decision? (walkEagerly cs path) = firstStanding (cs.map (·.run path)) := by
  induction path generalizing cs with
  | nil => exact absurd rfl h
  | cons segment path ih =>
    cases path with
    | nil =>
      rw [walkEagerly, walkEagerly, decision?_singleton]
      exact firstStanding_getElem? _
    | cons segment' path =>
      rw [walkEagerly_cons, decision?_cons _ (walkEagerly_ne_nil _ _ _),
        ih (List.cons_ne_nil _ _), List.map_map]
      rfl

end Cursor

/-! ### Evaluation -/

/-- The level at a path by the steps of some walk of the trees. -/
def evaluateSteps (trees : List OwnedTree) (path : List String) (steps : List Step) :
    Evaluation :=
  if path.isEmpty then evaluateRoot trees
  else match decision? steps with
    | some (winner, level) => ⟨level, (trees[winner]?).map (·.owner), path⟩
    | none => ⟨none, none, path⟩

/-- The level at a path with every tree stepped at every segment. -/
def evaluateEagerly (trees : List OwnedTree) (path : List String) : Evaluation :=
  evaluateSteps trees path (Cursor.walkEagerly (trees.map (·.tree.cursor)) path)

/-- The level at a path with the lagging cursors exchanged after each segment. -/
def evaluateExchanging (exchange : List String → List Cursor → List Cursor)
    (trees : List OwnedTree) (path : List String) : Evaluation :=
  evaluateSteps trees path (Cursor.walkExchanging exchange (trees.map (·.tree.cursor)) path)

theorem evaluateTrees_eq_evaluateSteps (trees : List OwnedTree) (path : List String) :
    evaluateTrees trees path = evaluateSteps trees path (trace trees path) := rfl

/-- The decision of the trees' walk, tree by tree. -/
theorem decision?_trace {path : List String} (h : path ≠ []) (trees : List OwnedTree) :
    decision? (trace trees path) =
      Cursor.firstStanding (trees.map fun t ↦ t.tree.cursor.run path) := by
  rw [trace, Cursor.decision?_walk h, List.map_map]
  rfl

@[simp] theorem evaluateTrees_nil (path : List String) :
    evaluateTrees [] path = ⟨none, none, path⟩ := by
  rcases path with - | ⟨segment, path⟩
  · rfl
  · rw [evaluateTrees_eq_evaluateSteps, evaluateSteps,
      decision?_trace (List.cons_ne_nil _ _)]
    rfl

/-- **The first tree decides, or else the list behind it does.** -/
theorem evaluateTrees_cons (t : OwnedTree) (trees : List OwnedTree) (path : List String) :
    evaluateTrees (t :: trees) path =
      if (t.tree.levelAt path).isSome then ⟨t.tree.levelAt path, some t.owner, path⟩
      else evaluateTrees trees path := by
  rcases path with - | ⟨segment, path⟩
  · simp only [evaluateTrees, List.isEmpty_nil, if_true, evaluateRoot, Tree.levelAt]
    cases t.tree.root.own <|> t.tree.root.rest <;> rfl
  · have hne : segment :: path ≠ [] := List.cons_ne_nil _ _
    simp only [evaluateTrees_eq_evaluateSteps, evaluateSteps, decision?_trace hne, List.map_cons,
      List.isEmpty_cons, Bool.false_eq_true, if_false]
    by_cases h : (t.tree.levelAt (segment :: path)).isSome
    · rw [Cursor.firstStanding_cons_of_isSome (by rwa [t.tree.standing_run_cursor hne]), if_pos h,
        t.tree.standing_run_cursor hne]
      rfl
    · have hnone := Option.not_isSome_iff_eq_none.1 h
      rw [Cursor.firstStanding_cons_of_none (by rwa [t.tree.standing_run_cursor hne]), if_neg h]
      cases Cursor.firstStanding (trees.map fun t ↦ t.tree.cursor.run (segment :: path)) <;> rfl

/-- One tree alone. -/
theorem evaluateTrees_singleton (t : OwnedTree) (path : List String) :
    (evaluateTrees [t] path).level = t.tree.levelAt path := by
  rw [evaluateTrees_cons, evaluateTrees_nil]
  by_cases h : (t.tree.levelAt path).isSome
  · rw [if_pos h]
  · rw [if_neg h, Option.not_isSome_iff_eq_none.1 h]

/-- The exchanging evaluations agree with the lazy one. -/
theorem evaluateExchanging_eq (exchange : List String → List Cursor → List Cursor)
    (trees : List OwnedTree) (path : List String) :
    evaluateExchanging exchange trees path = evaluateTrees trees path := by
  rcases path with - | ⟨segment, path⟩
  · rfl
  · rw [evaluateExchanging, evaluateTrees_eq_evaluateSteps, evaluateSteps, evaluateSteps, trace,
      Cursor.decision?_walk (List.cons_ne_nil _ _),
      Cursor.decision?_walkExchanging _ (List.cons_ne_nil _ _)]

/-- The eager evaluation agrees with the lazy one. -/
theorem evaluateEagerly_eq (trees : List OwnedTree) (path : List String) :
    evaluateEagerly trees path = evaluateTrees trees path := by
  rcases path with - | ⟨segment, path⟩
  · rfl
  · rw [evaluateEagerly, evaluateTrees_eq_evaluateSteps, evaluateSteps, evaluateSteps, trace,
      Cursor.decision?_walk (List.cons_ne_nil _ _),
      Cursor.decision?_walkEagerly (List.cons_ne_nil _ _)]

/-- The first of the trees, in order of priority, that decides the path alone. -/
theorem evaluateTrees_eq_find? (trees : List OwnedTree) (path : List String) :
    evaluateTrees trees path =
      match trees.find? fun t ↦ (evaluateTrees [t] path).level.isSome with
      | some t => ⟨(evaluateTrees [t] path).level, some t.owner, path⟩
      | none => ⟨none, none, path⟩ := by
  induction trees with
  | nil => exact evaluateTrees_nil path
  | cons t trees ih =>
    rw [evaluateTrees_cons, List.find?_cons]
    by_cases h : (t.tree.levelAt path).isSome
    · simp [evaluateTrees_singleton, h]
    · simpa [evaluateTrees_singleton, h] using ih

/-- **The level at a path is that of the first tree that decides it alone**, with its owner, and no
access if none does. So the lazy walk gives what the eager one gives, and what lags behind a
segment's decider has no influence: exchanged for anything at any segment, the result is the same. -/
theorem evaluateTrees_eq_firstDecider (trees : List OwnedTree) (path : List String) :
    (evaluateTrees trees path =
      match trees.find? fun t ↦ (evaluateTrees [t] path).level.isSome with
      | some t => ⟨(evaluateTrees [t] path).level, some t.owner, path⟩
      | none => ⟨none, none, path⟩) ∧
    evaluateTrees trees path = evaluateEagerly trees path ∧
    ∀ exchange, evaluateTrees trees path = evaluateExchanging exchange trees path :=
  ⟨evaluateTrees_eq_find? trees path, (evaluateEagerly_eq trees path).symm,
    fun exchange ↦ (evaluateExchanging_eq exchange trees path).symm⟩

end PathAccess
