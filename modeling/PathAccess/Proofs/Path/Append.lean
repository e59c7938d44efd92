import Mathlib.Data.List.DropRight
import PathAccess.Proofs.Path
import PathAccess.Proofs.Path.Collapse
/-!
# One path after another

A relative path is read from a working directory. Whether that directory is named first and the path
resolved from there, or the text of the one is put before that of the other, makes no difference
(`Resolver.resolve_from_canonical`). The forms of a path, home, absolute or relative, are told apart at its
beginning, so what is put after it does not change its form (`Resolver.segmentsOf_join_append`).

What carries the proof is that the parts on the right meet those on the left in one number only, the steps
up that they leave over (`stepsUp`). A collapsed directory is left by as many of its last segments
(`collapse_append`), and it does not matter when it was collapsed.
-/

namespace PathAccess

namespace Text

variable (c : Char)

theorem splitAt_go_append_cons (part cs ds : List Char) :
    splitAt.go c part (cs ++ c :: ds) = splitAt.go c part cs ++ splitAt.go c [] ds := by
  induction cs generalizing part with
  | nil => simp [splitAt.go]
  | cons d cs ih =>
    rw [List.cons_append, splitAt.go, splitAt.go]
    split
    · rw [ih, List.cons_append]
    · exact ih _

/-- **A text is split on both sides of a separator apart.** -/
theorem splitAt_slash (s t : String) : splitAt '/' (s ++ "/" ++ t) = splitAt '/' s ++ splitAt '/' t := by
  have hlist : (s ++ "/" ++ t).toList = s.toList ++ '/' :: t.toList := by simp
  simp only [splitAt, hlist, splitAt_go_append_cons, List.map_append]

end Text

namespace Path

/-! ### Steps up that are left over -/

/-- The steps up that are left over when a part is passed on the way to the left. A name takes up one of
them, and so does a dot if dots are kept. -/
def stepsAfter (keepDots : Bool) (part : String) (steps : Nat) : Nat :=
  if part = "" then steps
  else if part = ".." then steps + 1
  else if part = "." ∧ keepDots = false then steps
  else steps - 1

/-- The steps up that the parts of a path leave over for what stands before them. -/
def stepsUp (keepDots : Bool) (parts : List String) : Nat :=
  parts.foldr (stepsAfter keepDots) 0

theorem stepsUp_cons (keepDots : Bool) (part : String) (parts : List String) :
    stepsUp keepDots (part :: parts) = stepsAfter keepDots part (stepsUp keepDots parts) := rfl

theorem stepsUp_eq_zero {keepDots : Bool} {parts : List String} (h : ".." ∉ parts) :
    stepsUp keepDots parts = 0 := by
  induction parts with
  | nil => rfl
  | cons part parts ih =>
    obtain ⟨hpart, hparts⟩ : ".." ≠ part ∧ ".." ∉ parts := by simpa using h
    rw [stepsUp_cons, ih hparts, stepsAfter, if_neg hpart.symm]
    repeat' split
    all_goals rfl

/-- A part is dealt with on its own, given the number of steps that reach it. -/
theorem collapseReversed_cons (keepDots : Bool) (skip : Nat) (part : String) (parts : List String) :
    collapseReversed keepDots skip (part :: parts) =
      collapseReversed keepDots skip [part] ++
        collapseReversed keepDots (stepsAfter keepDots part skip) parts := by
  rw [collapseReversed, collapseReversed, stepsAfter]
  simp only [beq_iff_eq, Bool.and_eq_true, Bool.not_eq_true']
  split
  · rfl
  split
  · rfl
  split
  · rfl
  split <;> rename_i hskip
  · rw [hskip]
    rfl
  · rfl

theorem collapseReversed_reverse_append (keepDots : Bool) (parts before : List String) :
    collapseReversed keepDots 0 (parts.reverse ++ before) =
      (collapse parts keepDots).reverse ++
        collapseReversed keepDots (stepsUp keepDots parts) before := by
  induction parts generalizing before with
  | nil => rfl
  | cons part parts ih =>
    have hcons : collapseReversed keepDots 0 (parts.reverse ++ [part]) = _ := ih [part]
    rw [List.reverse_cons, List.append_assoc, List.singleton_append, ih, collapseReversed_cons,
      ← List.append_assoc, ← hcons, collapse, List.reverse_reverse, List.reverse_cons]
    rfl

/-- **Parts on the right take away segments on the left**, as many as they leave steps up over. -/
theorem collapse_append (keepDots : Bool) (parts parts' : List String) :
    collapse (parts ++ parts') keepDots =
      (collapse parts keepDots).rdrop (stepsUp keepDots parts') ++ collapse parts' keepDots := by
  have hdrop : collapseReversed keepDots (stepsUp keepDots parts') parts.reverse =
      (collapse parts keepDots).reverse.drop (stepsUp keepDots parts') := by
    rw [collapse, List.reverse_reverse, collapseReversed_eq_drop, collapseReversed_eq_drop _ 0,
      List.drop_zero]
  rw [collapse, List.reverse_append, collapseReversed_reverse_append, hdrop, List.reverse_append,
    List.reverse_reverse, List.rdrop_eq_reverse_drop_reverse]

theorem collapse_singleton {name : String} (h : name ∉ ["", ".", ".."]) (keepDots : Bool) :
    collapse [name] keepDots = [name] := by
  obtain ⟨hempty, hdot, hup⟩ : name ≠ "" ∧ name ≠ "." ∧ name ≠ ".." := by simpa using h
  simp [collapse, collapseReversed, hempty, hdot, hup]

/-! ### The segments of a text -/

/-- The segments that a text stands for once it is absolute. -/
def segmentsOf (text : String) (keepDots : Bool) : List String :=
  collapse (Text.splitAt '/' text) keepDots

/-- Where a text leads from a directory: its last segments are left, as many as the text has steps up left
over, and those of the text follow. -/
def follow (segments : List String) (text : String) (keepDots : Bool) : List String :=
  segments.rdrop (stepsUp keepDots (Text.splitAt '/' text)) ++ segmentsOf text keepDots

variable {keepDots : Bool} {segments : List String}

theorem segmentsOf_append (s t : String) (keepDots : Bool) :
    segmentsOf (s ++ "/" ++ t) keepDots = follow (segmentsOf s keepDots) t keepDots := by
  rw [segmentsOf, Text.splitAt_slash, collapse_append]
  rfl

theorem follow_nil (text : String) : follow [] text keepDots = segmentsOf text keepDots := by
  rw [follow, List.rdrop_nil, List.nil_append]

theorem follow_dot (segments : List String) : follow segments "." false = segments := by
  have hsteps : stepsUp false (Text.splitAt '/' ".") = 0 := by decide
  have hnone : segmentsOf "." false = [] := by decide
  rw [follow, hsteps, hnone, List.rdrop_zero, List.append_nil]

theorem segmentsOf_empty (keepDots : Bool) : segmentsOf "" keepDots = [] := by
  cases keepDots <;> decide

theorem segmentsOf_slash (text : String) :
    segmentsOf ("/" ++ text) keepDots = segmentsOf text keepDots := by
  have happend := segmentsOf_append "" text keepDots
  rwa [String.empty_append, segmentsOf_empty, follow_nil] at happend

/-- Slashes at the beginning make no difference. -/
theorem segmentsOf_dropWhile (cs : List Char) :
    segmentsOf (String.ofList (cs.dropWhile (· == '/'))) keepDots =
      segmentsOf (String.ofList cs) keepDots := by
  induction cs with
  | nil => rfl
  | cons c cs ih =>
    by_cases hc : c = '/'
    · have hcons : String.ofList ('/' :: cs) = "/" ++ String.ofList cs := by
        rw [← String.toList_inj]
        simp
      rw [hc, List.dropWhile_cons_of_pos (by rfl), ih, hcons, segmentsOf_slash]
    · rw [List.dropWhile_cons_of_neg (by simpa using hc)]

theorem segmentsOf_append_ofList (s : String) (cs ds : List Char) (keepDots : Bool) :
    segmentsOf (s ++ String.ofList (cs ++ '/' :: ds)) keepDots =
      follow (segmentsOf (s ++ String.ofList cs) keepDots) (String.ofList ds) keepDots := by
  have hlist : s ++ String.ofList (cs ++ '/' :: ds) =
      s ++ String.ofList cs ++ "/" ++ String.ofList ds := by
    rw [← String.toList_inj]
    simp
  rw [hlist, segmentsOf_append]

namespace Resolver

variable (r : Resolver) (acting cwd : Option String)

/-! ### The forms of a path -/

theorem resolve_text {text : String} (h : text ≠ "") (acting cwd : Option String) (keepDots : Bool) :
    r.resolve (.text text) acting cwd keepDots =
      .ok (segmentsOf (r.join text.toList (r.actor acting) cwd) keepDots) := by
  have hne : text.isEmpty = false := by simpa [String.isEmpty_iff] using h
  simp only [resolve, hne, Bool.false_eq_true, if_false]
  rfl

theorem join_home {c : Char} (h : c ≠ '/') (rest : List Char) :
    r.join ('~' :: c :: rest) acting cwd = r.homeOfTilde (String.ofList (c :: rest)) := by
  rw [join]
  · exact List.cons_ne_nil c rest
  · rintro rest' heq
    exact h (List.cons.inj heq).1

theorem join_relative {c : Char} (htilde : c ≠ '~') (hslash : c ≠ '/') (rest : List Char) :
    r.join (c :: rest) acting cwd =
      if cwd == some "/" then "/" ++ String.ofList (c :: rest)
      else r.workingDirectory acting cwd ++ "/" ++ String.ofList (c :: rest) := by
  rw [join]
  · rintro rest' heq
    exact htilde (List.cons.inj heq).1
  · rintro rest' heq
    exact hslash (List.cons.inj heq).1

/-- The home that stands for a name after a tilde is chosen by the first character. -/
theorem exists_homeOfTilde (c : Char) : ∃ root, ∀ rest,
    r.homeOfTilde (String.ofList (c :: rest)) = "/" ++ root ++ "/" ++ String.ofList (c :: rest) := by
  simp only [homeOfTilde, String.toList_ofList]
  split
  · exact ⟨r.domainRoot, fun _ ↦ rfl⟩
  · exact ⟨r.playerRoot, fun _ ↦ rfl⟩

theorem segmentsOf_join_absolute {cs : List Char} (h : cs.head? = some '/') :
    segmentsOf (r.join cs acting cwd) keepDots = segmentsOf (String.ofList cs) keepDots := by
  obtain ⟨rest, rfl⟩ := List.head?_eq_some_iff.1 h
  rw [join, segmentsOf_slash, segmentsOf_dropWhile]

theorem segmentsOf_bareHome_append {rest : List Char} (h : rest = [] ∨ rest.head? = some '/')
    (ds : List Char) :
    segmentsOf (join.bareHome r acting (rest ++ '/' :: ds)) keepDots =
      follow (segmentsOf (join.bareHome r acting rest) keepDots) (String.ofList ds) keepDots := by
  rw [join.bareHome, join.bareHome]
  split
  · -- Without a home only the path below it is left, and a bare tilde is the root.
    rcases rest with - | ⟨c, rest⟩
    · rw [List.drop_nil, String.ofList_nil, segmentsOf_empty, follow_nil]
      rfl
    · have happend := segmentsOf_append_ofList "" rest ds keepDots
      rw [String.empty_append, String.empty_append] at happend
      exact happend
  · exact segmentsOf_append_ofList _ rest ds keepDots

/-- **What is put after a path is followed from where the path leads**, whatever its form. -/
theorem segmentsOf_join_append {cs : List Char} (h : cs ≠ []) (ds : List Char) :
    segmentsOf (r.join (cs ++ '/' :: ds) acting cwd) keepDots =
      follow (segmentsOf (r.join cs acting cwd) keepDots) (String.ofList ds) keepDots := by
  obtain ⟨c, cs, rfl⟩ := List.exists_cons_of_ne_nil h
  by_cases htilde : c = '~'
  · subst htilde
    rcases cs with - | ⟨c, cs⟩
    · exact r.segmentsOf_bareHome_append acting (.inl rfl) ds
    by_cases hslash : c = '/'
    · subst hslash
      exact r.segmentsOf_bareHome_append acting (.inr rfl) ds
    · obtain ⟨root, hroot⟩ := r.exists_homeOfTilde c
      rw [List.cons_append, List.cons_append, join_home _ _ _ hslash, join_home _ _ _ hslash, hroot,
        hroot]
      exact segmentsOf_append_ofList _ (c :: cs) ds keepDots
  by_cases hslash : c = '/'
  · subst hslash
    have happend := segmentsOf_append_ofList "" ('/' :: cs) ds keepDots
    rw [String.empty_append, String.empty_append] at happend
    rw [segmentsOf_join_absolute _ _ _ rfl, segmentsOf_join_absolute _ _ _ rfl, happend]
  · rw [List.cons_append, join_relative _ _ _ htilde hslash, join_relative _ _ _ htilde hslash]
    split <;> exact segmentsOf_append_ofList _ (c :: cs) ds keepDots

/-- **A relative path is followed from the working directory.** -/
theorem segmentsOf_join_relative {text : String} (h : text ≠ "")
    (hform : text.toList.head? ∉ [some '~', some '/']) (dir : String) :
    segmentsOf (r.join text.toList acting (some dir)) keepDots =
      follow (segmentsOf dir keepDots) text keepDots := by
  obtain ⟨c, cs, hcs⟩ : ∃ c cs, text.toList = c :: cs :=
    List.exists_cons_of_ne_nil fun hnil ↦ h (String.toList_inj.1 hnil)
  obtain ⟨htilde, hslash⟩ : c ≠ '~' ∧ c ≠ '/' := by simpa [hcs] using hform
  have htext : String.ofList (c :: cs) = text := by rw [← hcs, String.ofList_toList]
  rw [hcs, join_relative _ _ _ htilde hslash, htext]
  split <;> rename_i hdir
  · obtain rfl : dir = "/" := by simpa using hdir
    have hroot : segmentsOf "/" keepDots = [] := by cases keepDots <;> decide
    rw [segmentsOf_slash, hroot, follow_nil]
  · exact segmentsOf_append dir text keepDots

theorem segmentsOf_render (h : ∀ name ∈ segments, IsSegment name) (hdot : "." ∉ segments) :
    segmentsOf (render segments) false = segments := by
  have hresolve := resolve_render (r := {}) h hdot none none
  have hne : render segments ≠ "" := by
    rw [Ne, ← String.toList_inj, toList_render]
    exact List.cons_ne_nil _ _
  rw [resolve_text _ hne, join_render h] at hresolve
  exact Except.ok.inj hresolve

/-- **Resolving composes.** What a relative path resolves to from the canonical text of another one is what
the two resolve to as one text, for the same actor. So the canonical text resolves to the same segments
again, on its own and with a dot, and they are names. -/
theorem resolve_from_canonical {path rest : String} (hpath : path ≠ "") (hrest : rest ≠ "")
    (hform : rest.toList.head? ∉ [some '~', some '/']) :
    ∃ segments, r.canonical (.text path) acting cwd = .ok (render segments) ∧
      r.resolve (.text path) acting cwd false = .ok segments ∧
      r.resolve (.text rest) acting (some (render segments)) false = .ok (follow segments rest false) ∧
      r.resolve (.text (path ++ "/" ++ rest)) acting cwd false = .ok (follow segments rest false) ∧
      r.resolve (.text ".") acting (some (render segments)) false = .ok segments ∧
      (∀ (r' : Resolver) (acting' cwd' : Option String),
        r'.resolve (.text (render segments)) acting' cwd' false = .ok segments) ∧
      ∀ name ∈ segments, name ≠ "" ∧ name ≠ "." ∧ name ≠ ".." ∧ '/' ∉ name.toList := by
  have hresolve := r.resolve_text hpath acting cwd false
  generalize hsegments : segmentsOf (r.join path.toList (r.actor acting) cwd) false = segments at hresolve
  have hnames : ∀ name ∈ segments, IsSegment name := fun _ hname ↦ isSegment_of_mem_resolve hresolve hname
  have hdot : "." ∉ segments := dot_notMem_resolve hresolve
  -- The rest is followed from the segments, from which their text cannot be told apart.
  have hfollow : ∀ text, text ≠ "" → text.toList.head? ∉ [some '~', some '/'] →
      r.resolve (.text text) acting (some (render segments)) false =
        .ok (follow segments text false) := by
    intro text htext hform
    rw [resolve_text _ htext, segmentsOf_join_relative _ _ htext hform, segmentsOf_render hnames hdot]
  have happend : r.resolve (.text (path ++ "/" ++ rest)) acting cwd false =
      .ok (follow segments rest false) := by
    have hlist : (path ++ "/" ++ rest).toList = path.toList ++ '/' :: rest.toList := by simp
    have hne : path.toList ≠ [] := fun hnil ↦ hpath (String.toList_inj.1 hnil)
    have htext : path ++ "/" ++ rest ≠ "" := by
      rw [Ne, ← String.toList_inj, hlist]
      exact List.append_ne_nil_of_right_ne_nil _ (List.cons_ne_nil _ _)
    rw [resolve_text _ htext, hlist, segmentsOf_join_append _ _ _ hne, hsegments,
      String.ofList_toList]
  refine ⟨segments, ?_, hresolve, hfollow rest hrest hform, happend, ?_, ?_, ?_⟩
  · rw [canonical, hresolve]
    rfl
  · rw [hfollow "." (by decide) (by decide), follow_dot]
  · exact fun r' acting' cwd' ↦ resolve_render hnames hdot acting' cwd'
  · intro name hname
    obtain ⟨hempty, hup, hslash⟩ := hnames name hname
    exact ⟨hempty, fun heq ↦ hdot (heq ▸ hname), hup, hslash⟩

/-- From below a home the steps up lead out of it, whether the home is resolved first or not. -/
theorem resolve_from_canonical_frogo :
    let r : Resolver := {}
    ∃ segments, r.canonical (.text "~/src/./lib") (some "frogo") none = .ok (render segments) ∧
      segments = ["players", "frogo", "src", "lib"] ∧
      r.resolve (.text "../../../aedil//com") (some "frogo") (some (render segments)) false =
        .ok ["players", "aedil", "com"] ∧
      r.resolve (.text ("~/src/./lib" ++ "/" ++ "../../../aedil//com")) (some "frogo") none false =
        .ok ["players", "aedil", "com"] := by
  have hpath : "~/src/./lib" ≠ "" := by decide
  have hrest : "../../../aedil//com" ≠ "" := by decide
  obtain ⟨segments, hcanonical, hresolve, hfollow, happend, -⟩ :=
    resolve_from_canonical {} (some "frogo") none hpath hrest (by decide)
  obtain rfl : ["players", "frogo", "src", "lib"] = segments := Except.ok.inj hresolve
  exact ⟨_, hcanonical, rfl, hfollow, happend⟩

end Resolver

end Path

end PathAccess
