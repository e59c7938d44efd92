import PathAccess.Path
/-!
# Collapsing with a stack

The parts of a path are collapsed from the right, with a count of the parts that are still to be skipped.
Read from the left, a path walks: a name goes one directory down and a step up goes back. The directories
passed are a stack, and each part changes it at the top only (`push`).

Both readings give the same segments (`collapse_eq_reverse_foldl_push`). What carries the proof is that a
count of `n` on the right means that the `n` topmost directories of the stack are left again
(`collapseReversed_eq_drop`), and that steps up beyond the bottom drop nothing.
-/

namespace PathAccess

namespace Path

/-- What a part does to the directories passed, the last of them first: a step up leaves the last one if
there is one, an empty part stays, and so does a dot unless dots are kept, and any other part is a directory
further down. -/
def push (keepDots : Bool) (stack : List String) (part : String) : List String :=
  if part = "" then stack
  else if part = ".." then stack.tail
  else if part = "." ∧ keepDots = false then stack
  else part :: stack

variable {keepDots : Bool} {stack : List String} {part : String}

theorem push_empty : push keepDots stack "" = stack := rfl

theorem push_up : push keepDots stack ".." = stack.tail := rfl

theorem push_dot : push false stack "." = stack := rfl

/-- A part that names something goes on top. A dot does if dots are kept. -/
theorem push_of_name (hempty : part ≠ "") (hup : part ≠ "..")
    (hdot : ¬(part = "." ∧ keepDots = false)) : push keepDots stack part = part :: stack := by
  rw [push, if_neg hempty, if_neg hup, if_neg hdot]

/-- **To skip parts on the right is to leave directories on the left.** The parts are given last first. -/
theorem collapseReversed_eq_drop (keepDots : Bool) (skip : Nat) (parts : List String) :
    collapseReversed keepDots skip parts =
      (parts.foldr (fun part stack ↦ push keepDots stack part) []).drop skip := by
  -- The first of the parts is the last one that the stack reads, so it decides about the top.
  induction parts generalizing skip with
  | nil => simp [collapseReversed]
  | cons part parts ih =>
    rw [collapseReversed, List.foldr_cons]
    split <;> rename_i hempty
    · rw [beq_iff_eq] at hempty
      rw [hempty, push_empty, ih]
    split <;> rename_i hup
    · rw [beq_iff_eq] at hup
      rw [hup, push_up, ih, ← List.drop_one, List.drop_drop, Nat.add_comm]
    split <;> rename_i hdot
    · obtain ⟨rfl, rfl⟩ : part = "." ∧ keepDots = false := by simpa using hdot
      rw [push_dot, ih]
    rw [push_of_name (by simpa using hempty) (by simpa using hup) (by simpa using hdot)]
    split <;> rename_i hskip
    · rw [hskip, ih, List.drop_zero, List.drop_zero]
    · obtain ⟨skip, rfl⟩ := Nat.exists_eq_succ_of_ne_zero hskip
      rw [ih, List.drop_succ_cons, Nat.succ_sub_one]

/-- **Collapsing is walking.** From the right with a count or from the left with a stack, the parts of a path
leave the same segments, whether dots are kept or not. -/
theorem collapse_eq_reverse_foldl_push (parts : List String) (keepDots : Bool) :
    collapse parts keepDots = (parts.foldl (push keepDots) []).reverse := by
  rw [collapse, collapseReversed_eq_drop, List.drop_zero, List.foldr_reverse]

/-- Steps up beyond the root are lost, and do not take the names after them. -/
example : collapse ["", "a", "..", "..", "..", "b", ".", "c"] false = ["b", "c"] := by decide

end Path

end PathAccess
