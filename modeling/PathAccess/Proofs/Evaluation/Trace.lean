import PathAccess.Proofs.Evaluation.Priority
/-!
# What holds at every state of a walk

The walk of several trees leaves a state after each segment: who decided, and the cursors of all trees.
Three facts hold along every such walk, whatever the trees are.

* A tree that has decided decides again, so the deciding position never moves down the list.
* What is behind the decider is as the segment found it.
* Up to the last segment a cursor on a branch that sets `*` has that level standing.

All of them are read off one description of what a segment does: the position of the decider is the
first at which a stepped cursor has something standing (`winner_stepAll`), the cursors up to there are
stepped, and those behind it are not (`cursors_stepAll`). The last fact needs both halves of that:
a stepped cursor is settled by its step, and one that was passed over lags behind on a node at which it
has been settled before.

On the last segment the third fact can fail, since there it is the `.` of a branch that counts.
-/

namespace PathAccess

namespace Cursor

variable {cs : List Cursor}

/-! ### What one segment does -/

/-- **The decider** is the first whose step leaves something standing. -/
theorem winner_stepAll (segment : String) (final : Bool) (cs : List Cursor) :
    (stepAll segment final cs).1 = cs.findIdx? fun c ↦ (c.step segment final).standing.isSome := by
  induction cs with
  | nil => rfl
  | cons c cs ih =>
    rw [List.findIdx?_cons]
    by_cases h : (c.step segment final).standing.isSome
    · rw [stepAll_cons_of_isSome h, if_pos h]
    · rw [stepAll_cons_of_none (Option.not_isSome_iff_eq_none.1 h), if_neg h, ih]

/-- **The cursors behind the decider stay**, the others are stepped. -/
theorem cursors_stepAll (segment : String) (final : Bool) (cs : List Cursor) :
    (stepAll segment final cs).2 = cs.mapIdx fun p c ↦
      if (stepAll segment final cs).1.any (· < p) then c else c.step segment final := by
  induction cs with
  | nil => rfl
  | cons c cs ih =>
    rw [List.mapIdx_cons]
    by_cases h : (c.step segment final).standing.isSome
    · have hrest : cs.mapIdx (fun _ c ↦ c) = cs := List.mapIdx_eq_iff.2 (by simp)
      rw [stepAll_cons_of_isSome h]
      simp [hrest]
    · rw [stepAll_cons_of_none (Option.not_isSome_iff_eq_none.1 h)]
      simpa [Option.any_map, Function.comp_def] using ih

theorem length_stepAll (segment : String) (final : Bool) (cs : List Cursor) :
    (stepAll segment final cs).2.length = cs.length := by
  rw [cursors_stepAll, List.length_mapIdx]

theorem getElem?_stepAll_of_lt {segment : String} {final : Bool} {w p : Nat}
    (h : (stepAll segment final cs).1 = some w) (hp : w < p) :
    (stepAll segment final cs).2[p]? = cs[p]? := by
  rw [cursors_stepAll, List.getElem?_mapIdx, h]
  simp [hp]

theorem getElem?_stepAll_of_le {segment : String} {final : Bool} {w p : Nat}
    (h : (stepAll segment final cs).1 = some w) (hp : p ≤ w) :
    (stepAll segment final cs).2[p]? = (cs[p]?).map (·.step segment final) := by
  rw [cursors_stepAll, List.getElem?_mapIdx, h]
  simp [Nat.not_lt.2 hp]

/-- A cursor after a segment is one from before it, or the step of one. -/
theorem eq_or_eq_step_of_mem_stepAll {segment : String} {final : Bool} {c : Cursor}
    (h : c ∈ (stepAll segment final cs).2) : ∃ c' ∈ cs, c = c' ∨ c = c'.step segment final := by
  rw [cursors_stepAll] at h
  obtain ⟨p, hp, rfl⟩ := List.mem_mapIdx.1 h
  refine ⟨cs[p], List.getElem_mem hp, ?_⟩
  split
  · exact Or.inl rfl
  · exact Or.inr rfl

/-! ### Deciders never move down the list -/

/-- Something stands at one of the positions up to a given one. -/
def DecidedBy (w : Nat) (cs : List Cursor) : Prop :=
  ∃ p ≤ w, ∃ c, cs[p]? = some c ∧ c.standing.isSome

/-- Where something stands, it is not later than there that the next segment is decided. -/
theorem DecidedBy.exists_winner {w : Nat} (h : DecidedBy w cs) (segment : String) (final : Bool) :
    ∃ w' ∈ (stepAll segment final cs).1, w' ≤ w := by
  obtain ⟨p, hp, c, hc, hstanding⟩ := h
  obtain ⟨hlt, hget⟩ := List.getElem?_eq_some_iff.1 hc
  have hstep : (c.step segment final).standing.isSome := standing_step_isSome hstanding segment final
  rw [winner_stepAll]
  cases hw : cs.findIdx? fun c ↦ (c.step segment final).standing.isSome with
  | none =>
    have hnot := List.findIdx?_eq_none_iff.1 hw c (hget ▸ List.getElem_mem hlt)
    rw [hstep] at hnot
    cases hnot
  | some w' =>
    obtain ⟨_, -, hbefore⟩ := List.findIdx?_eq_some_iff_getElem.1 hw
    have hle : w' ≤ p := Nat.not_lt.1 fun hpw ↦ hbefore p hpw (hget ▸ hstep)
    exact ⟨w', rfl, Nat.le_trans hle hp⟩

/-- The decider of a segment has something standing after it. -/
theorem decidedBy_stepAll {segment : String} {final : Bool} {w : Nat}
    (h : (stepAll segment final cs).1 = some w) : DecidedBy w (stepAll segment final cs).2 := by
  have hget := getElem?_stepAll_of_le h (Nat.le_refl w)
  rw [winner_stepAll] at h
  obtain ⟨hlt, hstanding, -⟩ := List.findIdx?_eq_some_iff_getElem.1 h
  rw [List.getElem?_eq_getElem hlt] at hget
  exact ⟨w, Nat.le_refl w, _, hget, hstanding⟩

/-- **A segment keeps what is decided.** -/
theorem DecidedBy.stepAll {w : Nat} (h : DecidedBy w cs) (segment : String) (final : Bool) :
    DecidedBy w (stepAll segment final cs).2 := by
  obtain ⟨w', hw', hle⟩ := h.exists_winner segment final
  obtain ⟨p, hp, hstands⟩ := decidedBy_stepAll hw'
  exact ⟨p, Nat.le_trans hp hle, hstands⟩

/-- So a whole walk is decided at that position or before it. -/
theorem DecidedBy.walk {w : Nat} (h : DecidedBy w cs) (path : List String) :
    ∀ step ∈ walk cs path, ∃ w' ∈ step.winner, w' ≤ w := by
  induction path generalizing cs with
  | nil => exact nofun
  | cons segment path ih =>
    exact List.forall_mem_cons.2
      ⟨h.exists_winner segment path.isEmpty, ih (h.stepAll segment path.isEmpty)⟩

theorem pairwise_winner_walk (cs : List Cursor) (path : List String) :
    (walk cs path).Pairwise fun earlier later ↦
      ∀ w ∈ earlier.winner, ∃ w' ∈ later.winner, w' ≤ w := by
  induction path generalizing cs with
  | nil => exact .nil
  | cons segment path ih =>
    -- The decider of the first segment is a bound for those of the whole rest.
    exact .cons (fun later hlater w hw ↦ (decidedBy_stepAll hw).walk path later hlater) (ih _)

/-! ### What is behind the decider -/

/-- The cursors that the segment at a position of a path finds: those that the walk sets out from, or
those that the segment before it has left. -/
def before (cs : List Cursor) (path : List String) : Nat → List Cursor
  | 0 => cs
  | i + 1 => ((walk cs path)[i]?.map (·.cursors)).getD []

theorem before_cons_succ (cs : List Cursor) (segment : String) (path : List String) (i : Nat) :
    before cs (segment :: path) (i + 1) = before (stepAll segment path.isEmpty cs).2 path i := by
  cases i <;> rfl

theorem getElem?_cursors_walk {path : List String} {i : Nat} {step : Step}
    (h : (walk cs path)[i]? = some step) {w : Nat} (hw : w ∈ step.winner) {p : Nat} (hp : w < p) :
    step.cursors[p]? = (before cs path i)[p]? := by
  induction path generalizing cs i with
  | nil => exact nomatch h
  | cons segment path ih =>
    cases i with
    | zero =>
      obtain rfl : _ = step := Option.some.inj h
      exact getElem?_stepAll_of_lt hw hp
    | succ i =>
      rw [before_cons_succ]
      exact ih h

/-! ### Cursors are settled -/

/-- A segment before the last leaves every cursor settled, those that it does not consult included. -/
theorem settled_stepAll (h : ∀ c ∈ cs, c.Settled) (segment : String) :
    ∀ c ∈ (stepAll segment false cs).2, c.Settled := by
  intro c hc
  obtain ⟨c', hc', rfl | rfl⟩ := eq_or_eq_step_of_mem_stepAll hc
  · exact h c hc'
  · exact settled_step c' segment (h c' hc')

/-- On the last segment the `.` stands, although the branch sets `*`. -/
example :
    let x : Node := .branch (some .write) (some .revoked) []
    let c : Cursor := ⟨some (.branch none none [("x", x)]), some .read⟩
    (c.step "x" false).standing = some .revoked ∧ (c.step "x" true).standing = some .write :=
  ⟨rfl, rfl⟩

theorem settled_walk (h : ∀ c ∈ cs, c.Settled) (path : List String) :
    ∀ step ∈ (walk cs path).dropLast, ∀ c ∈ step.cursors, c.Settled := by
  induction path generalizing cs with
  | nil => exact nofun
  | cons segment path ih =>
    -- Only a segment with another one behind it is walked as one before the last.
    cases path with
    | nil => exact nofun
    | cons segment' path =>
      have hnext : ∀ c ∈ (stepAll segment false cs).2, c.Settled := settled_stepAll h segment
      exact List.forall_mem_cons.2 ⟨hnext, ih hnext⟩

/-! ### One state for each segment -/

theorem map_segment_walk (cs : List Cursor) (path : List String) :
    (walk cs path).map (·.segment) = path := by
  induction path generalizing cs with
  | nil => rfl
  | cons segment path ih => exact congrArg (segment :: ·) (ih _)

theorem length_cursors_walk (cs : List Cursor) (path : List String) :
    ∀ step ∈ walk cs path, step.cursors.length = cs.length := by
  induction path generalizing cs with
  | nil => exact nofun
  | cons segment path ih =>
    have hlength := length_stepAll segment path.isEmpty cs
    exact List.forall_mem_cons.2
      ⟨hlength, fun step hstep ↦ (ih _ step hstep).trans hlength⟩

end Cursor

/-- **The states of a walk.** There is one for each segment of the path, with a cursor for each tree.
Once a segment has a decider, every later one has a decider at that position or before it. The cursors
behind a decider are as the segment found them, in node and standing level. And after every segment but
the last, a cursor on a branch that sets `*` has that level standing. -/
theorem trace_invariants (trees : List OwnedTree) (path : List String) :
    ((trace trees path).map (·.segment) = path ∧
      ∀ step ∈ trace trees path, step.cursors.length = trees.length) ∧
    ((trace trees path).Pairwise fun earlier later ↦
      ∀ w ∈ earlier.winner, ∃ w' ∈ later.winner, w' ≤ w) ∧
    (∀ i step, (trace trees path)[i]? = some step → ∀ w ∈ step.winner, ∀ p, w < p →
      step.cursors[p]? = (Cursor.before (trees.map (·.tree.cursor)) path i)[p]?) ∧
    ∀ step ∈ (trace trees path).dropLast, ∀ c ∈ step.cursors, c.Settled := by
  refine ⟨⟨Cursor.map_segment_walk _ path, fun step hstep ↦ ?_⟩, Cursor.pairwise_winner_walk _ path,
    fun i step h w hw p hp ↦ Cursor.getElem?_cursors_walk h hw hp, Cursor.settled_walk ?_ path⟩
  · rw [Cursor.length_cursors_walk _ path step hstep, List.length_map]
  · intro c hc
    obtain ⟨t, -, rfl⟩ := List.mem_map.1 hc
    exact t.tree.settled_cursor

/-- The second tree decides first, then the first one does. The third tree is passed over from the start
and stays at its root, the second from then on and stays at `x`. -/
theorem trace_invariants_overtaken :
    let trees : List OwnedTree := [
      ⟨"bob", { root := { children := [("x", .branch none none [("y", .leaf .write)])] } }⟩,
      ⟨"Coders", { root := { children := [("x", .branch none (some .read) [("y", .leaf .grant)])] } }⟩,
      ⟨"*", { root := { rest := some .revoked, children := [("x", .leaf .read)] } }⟩]
    let steps := trace trees ["x", "y", "z"]
    let root : Cursor := ⟨some (.branch none (some .revoked) [("x", .leaf .read)]), some .revoked⟩
    let atX : Cursor := ⟨some (.branch none (some .read) [("y", .leaf .grant)]), some .read⟩
    steps.map (·.winner) = [some 1, some 0, some 0] ∧
      (steps.Pairwise fun earlier later ↦ ∀ w ∈ earlier.winner, ∃ w' ∈ later.winner, w' ≤ w) ∧
      (∀ step ∈ steps[0]?, step.cursors[2]? = some root) ∧
      (∀ step ∈ steps[2]?, step.cursors[1]? = some atX) ∧
      ∀ step ∈ steps.dropLast, ∀ c ∈ step.cursors, c.Settled := by
  intro trees steps root atX
  obtain ⟨-, hpairwise, hbehind, hsettled⟩ := trace_invariants trees ["x", "y", "z"]
  refine ⟨by decide, hpairwise, fun step hstep ↦ ?_, fun step hstep ↦ ?_, hsettled⟩
  · obtain rfl : _ = step := Option.some.inj hstep
    exact hbehind 0 _ rfl 1 rfl 2 (by decide)
  · obtain rfl : _ = step := Option.some.inj hstep
    exact hbehind 2 _ rfl 0 rfl 1 (by decide)

end PathAccess
