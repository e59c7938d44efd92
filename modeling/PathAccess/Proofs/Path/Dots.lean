import PathAccess.Proofs.Path.Append
/-!
# Kept dots

Dots are kept in a path for the sake of its last segment, which may then be a directory's own entry. A dot
that is kept counts as a segment, and a step up takes back the segment before it. So a step up behind a dot
takes back the dot, and the directory that it would otherwise have left stays: `/a/./..` is `/a` with dots
kept and the root without them (`Resolver.step_up_takes_back_dot`).

This is all that dots can change. Without them the path has no other segments than with them, in the same
order, and it has the same ones exactly if no name owes its place to a step up that was spent on a dot
(`Resolver.resolve_keepDots`). That cannot be where no step up stands behind a dot.
-/

namespace PathAccess

namespace Path

/-! ### Parts that name something -/

variable {name : String}

/-- **A name stays if no step up is left over for it.** -/
theorem collapse_cons (h : name ∉ ["", ".", ".."]) (keepDots : Bool) (parts : List String) :
    collapse (name :: parts) keepDots =
      if stepsUp keepDots parts = 0 then name :: collapse parts keepDots
      else collapse parts keepDots := by
  rw [← List.singleton_append, collapse_append, collapse_singleton h]
  split <;> rename_i hsteps
  · rw [hsteps, List.rdrop_zero, List.singleton_append]
  · obtain ⟨steps, hsteps⟩ := Nat.exists_eq_succ_of_ne_zero hsteps
    have hnone : [name].rdrop steps.succ = [] := by simp [List.rdrop]
    rw [hsteps, hnone, List.nil_append]

/-! ### Segments without dots -/

theorem filter_cons_of_name (h : name ∉ ["", ".", ".."]) (segments : List String) :
    (name :: segments).filter (· != ".") = name :: segments.filter (· != ".") := by
  have hdot : name ≠ "." := fun heq ↦ h (by simp [heq])
  rw [List.filter_cons_of_pos (by simpa using hdot)]

/-- Where dots are not kept there are none. -/
theorem filter_collapse_false (parts : List String) :
    (collapse parts false).filter (· != ".") = collapse parts false := by
  refine List.filter_eq_self.2 fun segment hsegment ↦ ?_
  obtain ⟨-, -, -, hdot⟩ := mem_collapseReversed (List.mem_reverse.1 hsegment)
  simpa using hdot rfl

/-- A part that names nothing comes to nothing but a dot. -/
theorem filter_collapse_cons (h : name ∈ ["", ".", ".."]) (keepDots : Bool) (parts : List String) :
    (collapse (name :: parts) keepDots).filter (· != ".") =
      (collapse parts keepDots).filter (· != ".") := by
  have hdots : ∀ segment ∈ collapse [name] keepDots, segment = "." := by
    intro segment hsegment
    obtain ⟨hpart, hempty, hup, -⟩ := mem_collapseReversed (List.mem_reverse.1 hsegment)
    obtain rfl : segment = name := by simpa using hpart
    simpa [hempty, hup] using h
  have hnone : ((collapse [name] keepDots).rdrop (stepsUp keepDots parts)).filter (· != ".") = [] := by
    refine List.filter_eq_nil_iff.2 fun segment hsegment ↦ ?_
    simp [hdots segment (List.mem_of_mem_take hsegment)]
  rw [← List.singleton_append, collapse_append, List.filter_append, hnone, List.nil_append]

/-! ### Steps up spent on dots -/

theorem stepsUp_true_le (parts : List String) : stepsUp true parts ≤ stepsUp false parts := by
  induction parts with
  | nil => exact le_rfl
  | cons part parts ih =>
    rw [stepsUp_cons, stepsUp_cons, stepsAfter, stepsAfter]
    split
    · exact ih
    split
    · exact Nat.succ_le_succ ih
    simp only [Bool.true_eq_false, and_false, if_false, and_true]
    split <;> omega

/-- Where no step up stands behind a dot, none is spent on one. -/
theorem stepsUp_true_eq {parts : List String} (h : ∀ rest, "." :: rest <:+ parts → ".." ∉ rest) :
    stepsUp true parts = stepsUp false parts := by
  induction parts with
  | nil => rfl
  | cons part parts ih =>
    have hparts := ih fun rest hrest ↦ h rest (hrest.trans (List.suffix_cons part parts))
    by_cases hdot : part = "."
    · subst hdot
      have hup := h parts (List.suffix_refl _)
      rw [stepsUp_cons, stepsUp_cons, stepsUp_eq_zero hup, stepsUp_eq_zero hup]
      rfl
    · rw [stepsUp_cons, stepsUp_cons, hparts, stepsAfter, stepsAfter]
      simp [hdot]

/-- **To keep dots is to keep more.** -/
theorem collapse_sublist_filter (parts : List String) :
    (collapse parts false).Sublist ((collapse parts true).filter (· != ".")) := by
  induction parts with
  | nil => exact List.Sublist.refl _
  | cons part parts ih =>
    by_cases hpart : part ∈ ["", ".", ".."]
    · rwa [filter_collapse_cons hpart, ← filter_collapse_false, filter_collapse_cons hpart,
        filter_collapse_false]
    · have hle := stepsUp_true_le parts
      rw [collapse_cons hpart, collapse_cons hpart]
      by_cases htrue : stepsUp true parts = 0
      · rw [if_pos htrue, filter_cons_of_name hpart]
        split
        · exact ih.cons_cons _
        · exact ih.cons _
      · have hfalse : stepsUp false parts ≠ 0 := by omega
        rwa [if_neg htrue, if_neg hfalse]

/-- **Dots change nothing exactly if each name that stays with them stays without them.** -/
theorem filter_collapse_eq_iff (parts : List String) :
    (collapse parts true).filter (· != ".") = collapse parts false ↔
      ∀ name rest, name :: rest <:+ parts → name ∉ ["", ".", ".."] →
        stepsUp true rest = 0 → stepsUp false rest = 0 := by
  induction parts with
  | nil => simp [collapse, collapseReversed]
  | cons part parts ih =>
    have hsuffixes : (∀ name rest, name :: rest <:+ part :: parts → name ∉ ["", ".", ".."] →
          stepsUp true rest = 0 → stepsUp false rest = 0) ↔
        (part ∉ ["", ".", ".."] → stepsUp true parts = 0 → stepsUp false parts = 0) ∧
          (collapse parts true).filter (· != ".") = collapse parts false := by
      simp only [ih, List.suffix_cons_iff, List.cons.injEq, or_imp, forall_and, and_imp,
        forall_eq_apply_imp_iff, forall_eq]
    rw [hsuffixes]
    by_cases hpart : part ∈ ["", ".", ".."]
    · rw [filter_collapse_cons hpart, ← filter_collapse_false (part :: parts),
        filter_collapse_cons hpart, filter_collapse_false]
      simp [hpart]
    · have hle := stepsUp_true_le parts
      rw [collapse_cons hpart, collapse_cons hpart]
      by_cases htrue : stepsUp true parts = 0
      · rw [if_pos htrue, filter_cons_of_name hpart]
        by_cases hfalse : stepsUp false parts = 0
        · simp [htrue, hfalse]
        · -- A name that stays with dots only is one too many, and no other can be missing.
          have hlength := (collapse_sublist_filter parts).length_le
          rw [if_neg hfalse]
          refine iff_of_false (fun heq ↦ ?_) fun h ↦ hfalse (h.1 hpart htrue)
          rw [← heq, List.length_cons] at hlength
          omega
      · have hfalse : stepsUp false parts ≠ 0 := by omega
        simp [htrue, hfalse]

namespace Resolver

variable (r : Resolver)

/-- **What kept dots change.** Without dots a path has no other segments than with them. It has the same
ones exactly if no name is spared by the steps up behind it only because they were spent on dots, and so in
particular where no step up stands behind a dot. -/
theorem resolve_keepDots {text : String} (h : text ≠ "") (acting cwd : Option String) :
    let parts := Text.splitAt '/' (r.join text.toList (r.actor acting) cwd)
    ∃ dotted plain, r.resolve (.text text) acting cwd true = .ok dotted ∧
      r.resolve (.text text) acting cwd false = .ok plain ∧
      plain.Sublist (dotted.filter (· != ".")) ∧
      (dotted.filter (· != ".") = plain ↔
        ∀ name rest, name :: rest <:+ parts → name ∉ ["", ".", ".."] →
          stepsUp true rest = 0 → stepsUp false rest = 0) ∧
      ((∀ rest, "." :: rest <:+ parts → ".." ∉ rest) → dotted.filter (· != ".") = plain) := by
  intro parts
  refine ⟨collapse parts true, collapse parts false, r.resolve_text h acting cwd true,
    r.resolve_text h acting cwd false, collapse_sublist_filter parts, filter_collapse_eq_iff parts,
    fun hclear ↦ ?_⟩
  refine (filter_collapse_eq_iff parts).2 fun name rest hsuffix _ hsteps ↦ ?_
  have hrest : rest <:+ parts := (List.suffix_cons name rest).trans hsuffix
  rw [← stepsUp_true_eq fun rest' hrest' ↦ hclear rest' (hrest'.trans hrest), hsteps]

/-- The own entry of a home is addressed in the home. -/
theorem resolve_keepDots_home :
    let r : Resolver := {}
    ∃ dotted plain, r.resolve (.text "~frogo/src/../.") none none true = .ok dotted ∧
      r.resolve (.text "~frogo/src/../.") none none false = .ok plain ∧
      dotted = ["players", "frogo", "."] ∧ dotted.filter (· != ".") = plain := by
  have htext : "~frogo/src/../." ≠ "" := by decide
  obtain ⟨dotted, plain, hdotted, hplain, -, -, hclear⟩ := resolve_keepDots {} htext none none
  obtain rfl : ["players", "frogo", "."] = dotted := Except.ok.inj hdotted
  refine ⟨_, plain, hdotted, hplain, rfl, hclear fun rest hrest ↦ ?_⟩
  change "." :: rest <:+ ["", "players", "frogo", "src", "..", "."] at hrest
  obtain rfl : rest = [] := by simpa [List.suffix_cons_iff] using hrest
  exact List.not_mem_nil

/-- **A step up takes back a dot** that is kept before it. The directory before the dot then stays, which it
does not where dots are dropped. -/
theorem step_up_takes_back_dot :
    let r : Resolver := {}
    ∃ dotted plain, r.resolve (.text "/a/./..") none none true = .ok dotted ∧
      r.resolve (.text "/a/./..") none none false = .ok plain ∧ dotted.filter (· != ".") ≠ plain :=
  ⟨["a"], [], rfl, rfl, by decide⟩

end Resolver

end Path

end PathAccess
