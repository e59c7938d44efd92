import PathAccess.Principal
/-!
# Names of groups

A name is that of a group if lower case would change it. So it is one as soon as it begins like one
(`isGroupName_append`): the first character that has another lower case is followed by nothing that could
make up for it, since that lower case, be it longer than one character, begins with another one.
-/

namespace PathAccess

namespace Text

/-- A character is its own lower case, or its lower case begins with another character. -/
theorem lowerChar_cases (c : Char) :
    lowerChar c = [c] ∨ ∃ d ds, lowerChar c = d :: ds ∧ d ≠ c := by
  have hsingle : ∀ d, [d] = [c] ∨ ∃ d' ds, [d] = d' :: ds ∧ d' ≠ c := by
    intro d
    by_cases heq : d = c
    · exact .inl (by rw [heq])
    · exact .inr ⟨d, [], rfl, heq⟩
  unfold lowerChar mapByRows
  split
  · exact hsingle _
  dsimp only
  split <;> rename_i hspecial
  · -- The one character whose lower case is longer than one character.
    have hmem := List.mem_of_find?_eq_some hspecial
    have hkey := List.find?_some hspecial
    obtain ⟨rfl, rfl⟩ : _ = 0x130 ∧ _ = [0x69, 0x307] := by simpa [lowerSpecials] using hmem
    refine .inr ⟨'i', _, rfl, ?_⟩
    rintro rfl
    exact absurd hkey (by decide)
  · split
    · exact hsingle _
    · exact .inl rfl

/-- Text in front of a text decides whether the whole is its own lower case, if it is not its own. -/
theorem flatMap_lowerChar_append_ne {cs : List Char} (h : cs.flatMap lowerChar ≠ cs) (ds : List Char) :
    (cs ++ ds).flatMap lowerChar ≠ cs ++ ds := by
  induction cs with
  | nil => exact absurd rfl h
  | cons c cs ih =>
    rw [List.cons_append, List.flatMap_cons]
    rcases lowerChar_cases c with hsame | ⟨d, rest, hother, hne⟩
    · rw [List.flatMap_cons, hsame, List.singleton_append, Ne, List.cons.injEq] at h
      rw [hsame, List.singleton_append, Ne, List.cons.injEq]
      exact fun heq ↦ ih (fun heq' ↦ h ⟨rfl, heq'⟩) heq.2
    · rw [hother, List.cons_append, Ne, List.cons.injEq]
      exact fun heq ↦ hne heq.1

end Text

/-- A name that begins like that of a group is that of a group. -/
theorem isGroupName_append {stem : String} (h : isGroupName stem) (s : String) :
    isGroupName (stem ++ s) := by
  have hiff : ∀ name, isGroupName name ↔ name.toList.flatMap Text.lowerChar ≠ name.toList := by
    intro name
    rw [isGroupName, bne_iff_ne, Ne, ← String.toList_inj, Text.lower, String.toList_ofList, eq_comm]
  rw [hiff, String.toList_append]
  exact Text.flatMap_lowerChar_append_ne ((hiff stem).1 h) _

end PathAccess
