import PathAccess.Proofs.Path.Append
/-!
# Names with slashes before them

An absolute path is made of names, each with a slash before it. Since no name holds a slash, the names are
read off the text again: whoever splits it at the slashes gets them back (`splitAt_go_append_slashed`). So two
lists of names with the same text are the same (`slashed_inj`), and a path lies at or below a directory, by
its text, exactly if the names of the directory come first in its own (`slashed_prefix_iff`).

None of this needs the names to be anything else, so an empty name is one of them: what ends in a slash ends in
an empty name.
-/

namespace PathAccess

namespace Path

/-- A name that an absolute path can be made of: not empty, and without slashes. Other than what resolving
gives, it may be a step up. -/
structure IsName (name : String) : Prop where
  /-- It is not empty. -/
  ne_empty : name ≠ ""
  /-- It holds no slash. -/
  slash_notMem : '/' ∉ name.toList

instance (name : String) : Decidable (IsName name) :=
  decidable_of_iff (name ≠ "" ∧ '/' ∉ name.toList)
    ⟨fun ⟨hempty, hslash⟩ ↦ ⟨hempty, hslash⟩, fun h ↦ ⟨h.ne_empty, h.slash_notMem⟩⟩

theorem IsName.toList_ne_nil {name : String} (h : IsName name) : name.toList ≠ [] :=
  fun hnil ↦ h.ne_empty (String.toList_inj.1 hnil)

/-- The names with a slash before each of them. -/
def slashed (names : List String) : List Char :=
  names.flatMap fun name ↦ '/' :: name.toList

variable {names names' : List String}

@[simp] theorem slashed_nil : slashed [] = [] := rfl

@[simp] theorem slashed_cons (name : String) (names : List String) :
    slashed (name :: names) = '/' :: (name.toList ++ slashed names) := rfl

theorem slashed_append (names names' : List String) :
    slashed (names ++ names') = slashed names ++ slashed names' :=
  List.flatMap_append

/-- But for the root, a path is its names with slashes before them. -/
theorem toList_render_cons (name : String) (names : List String) :
    (render (name :: names)).toList = slashed (name :: names) := by
  rw [Resolver.toList_render]
  induction names generalizing name with
  | nil => simp
  | cons name' names ih =>
    have hrest := ih name'
    rw [List.map_cons, List.map_cons, List.intercalate_cons_cons, slashed_cons, ← hrest]
    simp

/-- **Names are read off their text.** -/
theorem splitAt_go_append_slashed {cs : List Char} (hcs : '/' ∉ cs)
    (h : ∀ name ∈ names, '/' ∉ name.toList) :
    Text.splitAt.go '/' [] (cs ++ slashed names) = cs :: names.map String.toList := by
  induction names generalizing cs with
  | nil => simpa using Text.splitAt_go_of_notMem hcs []
  | cons name names ih =>
    have hrest := ih (h name List.mem_cons_self) fun s hs ↦ h s (List.mem_cons_of_mem _ hs)
    rw [slashed_cons, Text.splitAt_go_append hcs, hrest]
    rfl

theorem splitAt_go_slashed (h : ∀ name ∈ names, '/' ∉ name.toList) :
    Text.splitAt.go '/' [] (slashed names) = [] :: names.map String.toList :=
  splitAt_go_append_slashed List.not_mem_nil h

theorem map_toList_injective : Function.Injective (List.map String.toList) :=
  List.map_injective_iff.2 fun _ _ heq ↦ String.toList_inj.1 heq

/-- **Names with the same text are the same.** -/
theorem slashed_inj (h : ∀ name ∈ names, '/' ∉ name.toList) (h' : ∀ name ∈ names', '/' ∉ name.toList) :
    slashed names = slashed names' ↔ names = names' := by
  refine ⟨fun heq ↦ ?_, fun heq ↦ heq ▸ rfl⟩
  have hsplit := splitAt_go_slashed h
  rw [heq, splitAt_go_slashed h'] at hsplit
  exact map_toList_injective (List.cons.inj hsplit).2.symm

/-- **At or below by the text is at or below by the names.** -/
theorem slashed_prefix_iff (h : ∀ name ∈ names, '/' ∉ name.toList)
    (h' : ∀ name ∈ names', '/' ∉ name.toList) :
    slashed names' = slashed names ∨ slashed names ++ ['/'] <+: slashed names' ↔
      names <+: names' := by
  constructor
  · rintro (heq | ⟨rest, hrest⟩)
    · exact (slashed_inj h' h).1 heq ▸ List.prefix_rfl
    · -- The slash after the first text is one at which the second is split.
      have hsplit := splitAt_go_slashed h'
      rw [← hrest, List.append_assoc, List.singleton_append, Text.splitAt_go_append_cons,
        splitAt_go_slashed h, List.cons_append] at hsplit
      have hprefix : names.map String.toList <+: names'.map String.toList :=
        ⟨_, (List.cons.inj hsplit).2⟩
      exact (List.prefix_map_iff_of_injective fun _ _ heq ↦ String.toList_inj.1 heq).1 hprefix
  · rintro ⟨rest, rfl⟩
    rcases rest with - | ⟨name, rest⟩
    · exact .inl (by rw [List.append_nil])
    · exact .inr ⟨name.toList ++ slashed rest, by simp [slashed_append]⟩

end Path

end PathAccess
