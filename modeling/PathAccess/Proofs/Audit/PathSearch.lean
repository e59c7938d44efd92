import PathAccess.Proofs.Audit.Reading
import PathAccess.Proofs.Path.Slashed
/-!
# Searching records by path

A search by path compares texts, but it means segments: `/data` is above `/data/log` and not above `/database`.
What makes the two agree is the slash that is put after the text of the directory. No name holds one, so
where it stands in the text of a path, a name of the path ends (`isAtOrBelow_render_iff`). The root is above
everything, and its text is the only one that ends in a slash already.

Slashes at the ends of what is searched for make no difference, since names are not empty and so the text
between the slashes neither begins nor ends with one (`slash_append_stripChar`).
-/

namespace PathAccess

namespace Text

variable {p : Char → Bool}

theorem dropWhile_append_of_head? {before cs : List Char} (hbefore : ∀ c ∈ before, p c)
    (hhead : ∀ c ∈ cs.head?, p c = false) : (before ++ cs).dropWhile p = cs := by
  rw [List.dropWhile_append_of_pos hbefore]
  rcases cs with - | ⟨c, cs⟩
  · rfl
  · rw [List.dropWhile_cons_of_neg]
    simpa using hhead c rfl

/-- What stands between characters that are trimmed is left, if it neither begins nor ends with one. -/
theorem trimBoth_append {before cs after : List Char}
    (hbefore : ∀ c ∈ before, p c) (hafter : ∀ c ∈ after, p c)
    (hhead : ∀ c ∈ cs.head?, p c = false) (hlast : ∀ c ∈ cs.getLast?, p c = false) :
    trimBoth p (before ++ cs ++ after) = cs := by
  rcases cs with - | ⟨d, cs⟩
  · -- Nothing is left, so there is no end at which the trimming stops.
    have hall : ∀ c ∈ before ++ [] ++ after, p c := by simpa [or_imp, forall_and] using ⟨hbefore, hafter⟩
    rw [trimBoth, List.dropWhile_eq_nil_iff.2 hall]
    rfl
  · have hleft : (before ++ (d :: cs) ++ after).dropWhile p = d :: cs ++ after := by
      rw [List.append_assoc]
      exact dropWhile_append_of_head? hbefore hhead
    have hright : (after.reverse ++ (d :: cs).reverse).dropWhile p = (d :: cs).reverse :=
      dropWhile_append_of_head? (by simpa using hafter) (by rwa [List.head?_reverse])
    rw [trimBoth, hleft, List.reverse_append, hright, List.reverse_reverse]

end Text

namespace AuditLog

variable {names names' : List String}

/-! ### Slashes at the ends -/

/-- A path without its first slash, which neither begins nor ends with another. -/
theorem exists_toList_render_eq_cons (h : ∀ name ∈ names, Path.IsName name) :
    ∃ cs, (Path.render names).toList = '/' :: cs ∧
      (∀ c ∈ cs.head?, c ≠ '/') ∧ ∀ c ∈ cs.getLast?, c ≠ '/' := by
  rcases names with - | ⟨name, names⟩
  · exact ⟨[], rfl, nofun, nofun⟩
  refine ⟨name.toList ++ Path.slashed names, Path.toList_render_cons name names, fun c hc hslash ↦ ?_,
    fun c hc hslash ↦ ?_⟩
  · have hname := h name List.mem_cons_self
    rw [List.head?_append_of_ne_nil _ hname.toList_ne_nil] at hc
    exact hname.slash_notMem (hslash ▸ List.mem_of_head? hc)
  · -- The last character is in the last name.
    obtain ⟨init, last, hconcat⟩ : ∃ init last, name :: names = init ++ [last] :=
      ⟨_, _, (List.dropLast_append_getLast (List.cons_ne_nil name names)).symm⟩
    have hlast : Path.IsName last := h last (by rw [hconcat]; simp)
    have htext : '/' :: (name.toList ++ Path.slashed names) = Path.slashed init ++ '/' :: last.toList := by
      rw [← Path.slashed_cons, hconcat, Path.slashed_append]
      simp
    have hmem : c ∈ ('/' :: (name.toList ++ Path.slashed names)).getLast? := by
      rw [List.getLast?_cons, Option.mem_def.1 hc]
      rfl
    rw [htext, List.getLast?_append_cons, List.getLast?_cons_of_ne_nil hlast.toList_ne_nil] at hmem
    exact hlast.slash_notMem (hslash ▸ List.mem_of_getLast? hmem)

/-- A path is read past slashes before and after it. -/
theorem slash_append_stripChar (h : ∀ name ∈ names, Path.IsName name) (m n : Nat) :
    "/" ++ Text.stripChar '/' (String.ofList (.replicate m '/') ++ Path.render names ++
      String.ofList (.replicate n '/')) = Path.render names := by
  obtain ⟨cs, hcs, hhead, hlast⟩ := exists_toList_render_eq_cons h
  have htrim : Text.trimBoth (· == '/') (List.replicate m '/' ++ ['/'] ++ cs ++ List.replicate n '/') = cs :=
    Text.trimBoth_append (by simp +contextual [or_imp]) (by simp) (by simpa using hhead)
      (by simpa using hlast)
  rw [← String.toList_inj, String.toList_append, Text.stripChar, String.toList_ofList,
    String.toList_append, String.toList_append, String.toList_ofList, String.toList_ofList, hcs]
  simpa using htrim

/-! ### At or below -/

/-- **A path is at or below another by its text exactly if it is so by its names.** -/
theorem isAtOrBelow_render_iff (h : ∀ name ∈ names, Path.IsName name)
    (h' : ∀ name ∈ names', Path.IsName name) :
    isAtOrBelow (Path.render names) (Path.render names') ↔ names <+: names' := by
  rcases names with - | ⟨name, names⟩
  · exact iff_of_true (by rfl) List.nil_prefix
  -- The path of a directory that is not the root has a name after its first slash.
  obtain ⟨c, cs, hname⟩ := List.exists_cons_of_ne_nil (h name List.mem_cons_self).toList_ne_nil
  have htext := Path.toList_render_cons name names
  have hroot : Path.render (name :: names) ≠ "/" := by
    rw [Ne, ← String.toList_inj, htext, Path.slashed_cons, hname]
    simp
  rw [isAtOrBelow, beq_false_of_ne hroot, Bool.false_or, Bool.or_eq_true, beq_iff_eq,
    List.isPrefixOf_iff_prefix, String.toList_append, htext]
  rcases names' with - | ⟨name', names'⟩
  · refine iff_of_false ?_ (by simp)
    rintro (heq | hprefix)
    · exact hroot heq.symm
    · have hlength := hprefix.length_le
      rw [Path.slashed_cons, hname] at hlength
      simp [Path.render] at hlength
  · rw [← String.toList_inj, htext, Path.toList_render_cons]
    exact Path.slashed_prefix_iff (fun s hs ↦ (h s hs).slash_notMem) fun s hs ↦ (h' s hs).slash_notMem

/-! ### The records below a path -/

/-- A record about a path. -/
structure PathRecord where
  /-- What is in the log. -/
  record : Value
  /-- The names of the path. -/
  names : List String
  /-- They are names. -/
  isName : ∀ name ∈ names, Path.IsName name
  /-- The path is in the record. -/
  path_eq : record.field? "path" = some (.text (Path.render names))

theorem PathRecord.isRecord (r : PathRecord) : r.record.isRecord := by
  have hfield := r.path_eq
  cases hrecord : r.record with
  | map es => rfl
  | scalar | list =>
    rw [hrecord] at hfield
    cases hfield

theorem PathRecord.liesBelow_iff (r : PathRecord) (h : ∀ name ∈ names, Path.IsName name) (m n : Nat) :
    liesBelow (String.ofList (.replicate m '/') ++ Path.render names ++ String.ofList (.replicate n '/'))
      r.record ↔ names <+: r.names := by
  rw [liesBelow, fieldValue, r.path_eq, slash_append_stripChar h]
  exact isAtOrBelow_render_iff h r.isName

/-- **A search by path is one by names**: in order, it gives the records whose path has the names of the given
one first, whatever slashes there are before and after that. -/
theorem byPath_eq_filter (records : List PathRecord) (h : ∀ name ∈ names, Path.IsName name) (m n : Nat) :
    byPath ⟨records.map (·.record)⟩
        (String.ofList (.replicate m '/') ++ Path.render names ++ String.ofList (.replicate n '/')) =
      .ok ((records.filter fun r ↦ names.isPrefixOf r.names).map (·.record)) := by
  have hrecords : ∀ r ∈ records.map (·.record), r.isRecord := by
    intro r hr
    obtain ⟨r', -, rfl⟩ := List.mem_map.1 hr
    exact r'.isRecord
  rw [byPath_eq_found, found_of_forall _ hrecords, List.filter_map]
  congr 3
  funext r
  rw [Bool.eq_iff_iff, List.isPrefixOf_iff_prefix]
  exact r.liesBelow_iff h m n

/-- The record of nothing but a path. -/
def PathRecord.ofNames (names : List String) (h : ∀ name ∈ names, Path.IsName name) : PathRecord where
  record := .record [("path", .text (Path.render names))]
  names := names
  isName := h
  path_eq := rfl

/-- A search below `/data` finds it and what is below it, not what has a longer name. -/
theorem byPath_slash_data_slash :
    let pathRecord (path : String) : Value := .record [("path", .text path)]
    (∀ name ∈ ["data"], Path.IsName name) ∧
      byPath ⟨[pathRecord "/data", pathRecord "/database/data", pathRecord "/", pathRecord "/data/log"]⟩
        "//data/" = .ok [pathRecord "/data", pathRecord "/data/log"] := by
  intro pathRecord
  have hnames : ∀ name ∈ ["data"], Path.IsName name := by decide
  have hfound := byPath_eq_filter
    [.ofNames ["data"] hnames, .ofNames ["database", "data"] (by decide), .ofNames [] nofun,
      .ofNames ["data", "log"] (by decide)] hnames 1 1
  exact ⟨hnames, hfound⟩

end AuditLog

end PathAccess
