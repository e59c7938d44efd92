import PathAccess.Path
/-!
# Resolved paths

What resolving gives is canonical. Every segment has a name without slashes that is neither empty
nor a step up, and unless dots are kept, none is a dot either. Such segments are read back from
their text: whoever resolves it, from whatever directory, gets the same segments again
(`resolve_render`). So the text that a call reports can be asked about.

A text is split at a character into parts that do not hold it, and the text of several such parts
with the character in between is split into the parts (`splitAt_go_intercalate`).
-/

namespace PathAccess

namespace Text

/-! ### Splitting -/

variable {c : Char}

theorem splitAt_go_of_notMem {cs : List Char} (h : c ∉ cs) (part : List Char) :
    splitAt.go c part cs = [part.reverse ++ cs] := by
  induction cs generalizing part with
  | nil => simp [splitAt.go]
  | cons d cs ih =>
    obtain ⟨hd, hcs⟩ : d ≠ c ∧ c ∉ cs := by simpa [eq_comm] using h
    rw [splitAt.go, if_neg (by simpa using hd), ih hcs]
    simp

theorem splitAt_go_append {cs : List Char} (h : c ∉ cs) (part rest : List Char) :
    splitAt.go c part (cs ++ c :: rest) = (part.reverse ++ cs) :: splitAt.go c [] rest := by
  induction cs generalizing part with
  | nil => simp [splitAt.go]
  | cons d cs ih =>
    obtain ⟨hd, hcs⟩ : d ≠ c ∧ c ∉ cs := by simpa [eq_comm] using h
    rw [List.cons_append, splitAt.go, if_neg (by simpa using hd), ih hcs]
    simp

/-- No part holds the character at which a text is split. -/
theorem notMem_of_mem_splitAt_go {part cs piece : List Char} (hpart : c ∉ part)
    (h : piece ∈ splitAt.go c part cs) : c ∉ piece := by
  induction cs generalizing part with
  | nil =>
    obtain rfl : piece = part.reverse := by simpa [splitAt.go] using h
    simpa using hpart
  | cons d cs ih =>
    rw [splitAt.go] at h
    split at h <;> rename_i hd
    · rcases List.mem_cons.1 h with rfl | h
      · simpa using hpart
      · exact ih List.not_mem_nil h
    · have hdc : d ≠ c := by simpa using hd
      have hnext : c ∉ d :: part := by simp [hpart, hdc.symm]
      exact ih hnext h

/-- **Parts with the character in between are split into the parts.** -/
theorem splitAt_go_intercalate {pieces : List (List Char)} (hne : pieces ≠ [])
    (h : ∀ piece ∈ pieces, c ∉ piece) : splitAt.go c [] ([c].intercalate pieces) = pieces := by
  induction pieces with
  | nil => exact absurd rfl hne
  | cons piece pieces ih =>
    have hpiece : c ∉ piece := h piece List.mem_cons_self
    cases pieces with
    | nil => simpa using splitAt_go_of_notMem hpiece []
    | cons piece' pieces =>
      have hrest := ih (List.cons_ne_nil _ _) fun p hp ↦ h p (List.mem_cons_of_mem _ hp)
      rw [List.intercalate_cons_cons, List.append_assoc, List.singleton_append,
        splitAt_go_append hpiece, hrest]
      simp

theorem notMem_of_mem_splitAt {s part : String} (h : part ∈ splitAt c s) : c ∉ part.toList := by
  obtain ⟨piece, hpiece, rfl⟩ := List.mem_map.1 h
  rw [String.toList_ofList]
  exact notMem_of_mem_splitAt_go List.not_mem_nil hpiece

end Text

namespace Path

/-! ### Segments -/

/-- A name that resolving can give: neither empty nor a step up, and without slashes. -/
structure IsSegment (name : String) : Prop where
  /-- It is not empty. -/
  ne_empty : name ≠ ""
  /-- It is no step up. -/
  ne_up : name ≠ ".."
  /-- It holds no slash. -/
  slash_notMem : '/' ∉ name.toList

instance (name : String) : Decidable (IsSegment name) :=
  decidable_of_iff (name ≠ "" ∧ name ≠ ".." ∧ '/' ∉ name.toList)
    ⟨fun ⟨hempty, hup, hslash⟩ ↦ ⟨hempty, hup, hslash⟩, fun h ↦ ⟨h.ne_empty, h.ne_up, h.slash_notMem⟩⟩

/-- Collapsing keeps parts of the text, and those only that name something. -/
theorem mem_collapseReversed {keepDots : Bool} {skip : Nat} {parts : List String} {name : String}
    (h : name ∈ collapseReversed keepDots skip parts) :
    name ∈ parts ∧ name ≠ "" ∧ name ≠ ".." ∧ (keepDots = false → name ≠ ".") := by
  induction parts generalizing skip with
  | nil => simp [collapseReversed] at h
  | cons part parts ih =>
    have hskipped : ∀ {skip}, name ∈ collapseReversed keepDots skip parts →
        name ∈ part :: parts ∧ name ≠ "" ∧ name ≠ ".." ∧ (keepDots = false → name ≠ ".") := by
      intro skip h
      obtain ⟨hmem, hname⟩ := ih h
      exact ⟨List.mem_cons_of_mem _ hmem, hname⟩
    rw [collapseReversed] at h
    split at h <;> rename_i hempty
    · exact hskipped h
    split at h <;> rename_i hup
    · exact hskipped h
    split at h <;> rename_i hdot
    · exact hskipped h
    split at h
    · rcases List.mem_cons.1 h with rfl | h
      · refine ⟨List.mem_cons_self, by simpa using hempty, by simpa using hup, ?_⟩
        rintro rfl
        simpa using hdot
      · exact hskipped h
    · exact hskipped h

/-- Where every part names something, nothing collapses. -/
theorem collapseReversed_eq_self {parts : List String}
    (h : ∀ name ∈ parts, name ≠ "" ∧ name ≠ ".." ∧ name ≠ ".") :
    collapseReversed false 0 parts = parts := by
  induction parts with
  | nil => rfl
  | cons part parts ih =>
    obtain ⟨hempty, hup, hdot⟩ := h part List.mem_cons_self
    have hrest := ih fun name hname ↦ h name (List.mem_cons_of_mem _ hname)
    simp [collapseReversed, hempty, hup, hdot, hrest]

/-- The empty part before the first slash of an absolute path makes no difference. -/
theorem collapseReversed_concat_empty (keepDots : Bool) (skip : Nat) (parts : List String) :
    collapseReversed keepDots skip (parts ++ [""]) = collapseReversed keepDots skip parts := by
  induction parts generalizing skip with
  | nil => rfl
  | cons part parts ih => simp only [List.cons_append, collapseReversed, ih]

namespace Resolver

variable {r : Resolver} {path : Value} {acting cwd : Option String} {keepDots : Bool}
  {segments : List String}

/-- What a path resolves to comes from a text that was split and collapsed. -/
theorem exists_of_resolve_eq_ok (h : r.resolve path acting cwd keepDots = .ok segments) :
    ∃ text, segments = collapse (Text.splitAt '/' text) keepDots := by
  unfold resolve at h
  split at h
  · split at h
    · exact nomatch h
    · exact ⟨_, (Except.ok.inj h).symm⟩
  · exact nomatch h

/-- **Resolving gives segments.** -/
theorem isSegment_of_mem_resolve (h : r.resolve path acting cwd keepDots = .ok segments)
    {name : String} (hname : name ∈ segments) : IsSegment name := by
  obtain ⟨text, rfl⟩ := exists_of_resolve_eq_ok h
  obtain ⟨hpart, hempty, hup, -⟩ := mem_collapseReversed (List.mem_reverse.1 hname)
  exact ⟨hempty, hup, Text.notMem_of_mem_splitAt (List.mem_reverse.1 hpart)⟩

/-- Unless dots are kept, there are none. -/
theorem dot_notMem_resolve (h : r.resolve path acting cwd false = .ok segments) :
    "." ∉ segments := by
  intro hdot
  obtain ⟨text, rfl⟩ := exists_of_resolve_eq_ok h
  obtain ⟨-, -, -, hne⟩ := mem_collapseReversed (List.mem_reverse.1 hdot)
  exact hne rfl rfl

/-- The characters of a rendered path. -/
theorem toList_render (segments : List String) :
    (render segments).toList = '/' :: ['/'].intercalate (segments.map String.toList) := by
  rw [render, String.toList_append, String.toList_intercalate]
  rfl

/-- Before the slash in front of a rendered path stands an empty part, and after that of the root another
one. The other parts are the segments. -/
theorem splitAt_render (h : ∀ name ∈ segments, IsSegment name) :
    Text.splitAt '/' (render segments) = "" :: if segments = [] then [""] else segments := by
  rw [Text.splitAt, toList_render, Text.splitAt.go, if_pos (by rfl)]
  rcases segments with - | ⟨name, segments⟩
  · rfl
  · have hpieces : ∀ piece ∈ (name :: segments).map String.toList, '/' ∉ piece := by
      intro piece hpiece
      obtain ⟨name', hname', rfl⟩ := List.mem_map.1 hpiece
      exact (h name' hname').slash_notMem
    rw [Text.splitAt_go_intercalate (by simp) hpieces]
    simp [List.map_map, Function.comp_def]

/-- A rendered path is absolute and begins with one slash. -/
theorem join_render (h : ∀ name ∈ segments, IsSegment name) (acting cwd : Option String) :
    r.join (render segments).toList acting cwd = render segments := by
  rw [← String.toList_inj]
  have hdrop : (['/'].intercalate (segments.map String.toList)).dropWhile (· == '/') =
      ['/'].intercalate (segments.map String.toList) := by
    rcases segments with - | ⟨name, segments⟩
    · rfl
    · obtain ⟨hempty, -, hslash⟩ := h name List.mem_cons_self
      -- The first segment has a first character, and it is no slash.
      obtain ⟨d, ds, hd⟩ : ∃ d ds, name.toList = d :: ds :=
        List.exists_cons_of_ne_nil fun hnil ↦ hempty (String.toList_inj.1 hnil)
      have hdslash : d ≠ '/' := by
        rintro rfl
        exact hslash (by simp [hd])
      cases segments <;> simp [hd, hdslash, List.intercalate_cons_cons]
  rw [toList_render, join, String.toList_append, String.toList_ofList, List.dropWhile_cons,
    if_pos (by rfl), hdrop, String.toList_ofList]
  rfl

/-- **Segments are read back from their text**, by whoever resolves it. -/
theorem resolve_render (h : ∀ name ∈ segments, IsSegment name) (hdot : "." ∉ segments)
    (acting cwd : Option String) :
    r.resolve (.text (render segments)) acting cwd false = .ok segments := by
  have hne : (render segments).isEmpty = false := by
    rw [Bool.eq_false_iff, Ne, String.isEmpty_iff, ← String.toList_inj, toList_render]
    simp
  have hnamed : ∀ name ∈ segments.reverse, name ≠ "" ∧ name ≠ ".." ∧ name ≠ "." := by
    intro name hname
    have hmem : name ∈ segments := List.mem_reverse.1 hname
    obtain ⟨hempty, hup, -⟩ := h name hmem
    exact ⟨hempty, hup, fun heq ↦ hdot (heq ▸ hmem)⟩
  have hcollapse : collapse (Text.splitAt '/' (render segments)) false = segments := by
    rw [splitAt_render h, collapse, List.reverse_cons, collapseReversed_concat_empty]
    split <;> rename_i hroot
    · rw [hroot]
      rfl
    · rw [collapseReversed_eq_self hnamed, List.reverse_reverse]
  rw [resolve]
  simp only [hne, Bool.false_eq_true, if_false, join_render h, hcollapse]

/-- What was resolved with dots is read back without them, by whoever resolves its text. -/
theorem resolve_render_of_resolve (h : r.resolve path acting cwd keepDots = .ok segments)
    (r' : Resolver) (acting' cwd' : Option String) :
    r'.resolve (.text (render (segments.filter (· != ".")))) acting' cwd' false =
      .ok (segments.filter (· != ".")) := by
  refine resolve_render (fun name hname ↦ ?_) (fun hdot ↦ ?_) acting' cwd'
  · exact isSegment_of_mem_resolve h (List.mem_filter.1 hname).1
  · exact absurd (List.mem_filter.1 hdot).2 (by decide)

end Resolver

end Path

end PathAccess
