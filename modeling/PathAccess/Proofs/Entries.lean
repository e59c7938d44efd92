import PathAccess.Entries
/-!
# Laws of ordered mappings

A mapping is observed through `find?`. Setting a key changes what is found there and nowhere else
(`find?_set`), and so does removing one, provided that the keys are distinct: with a key twice,
removing its first entry uncovers the second (`find?_remove_self`). Both operations keep the keys
distinct, and this is the only fact about keys that the theory of trees needs.
-/

namespace PathAccess

namespace Entries

variable {κ α : Type} [BEq κ] [LawfulBEq κ]

omit [LawfulBEq κ] in
@[simp] theorem find?_nil (k : κ) : find? ([] : Entries κ α) k = none := rfl

theorem find?_cons_self (k : κ) (a : α) (es : Entries κ α) : find? ((k, a) :: es) k = some a := by
  simp [find?]

theorem find?_cons_of_ne {k k' : κ} (h : k' ≠ k) (a : α) (es : Entries κ α) :
    find? ((k', a) :: es) k = find? es k := by
  simp [find?, h]

/-- Membership of the found entry. -/
theorem mem_of_find? {es : Entries κ α} {k : κ} {a : α} (h : find? es k = some a) :
    (k, a) ∈ es := by
  induction es with
  | nil => simp at h
  | cons e es ih =>
    obtain ⟨k', a'⟩ := e
    by_cases hk : k' = k
    · subst hk
      rw [find?_cons_self] at h
      simp [Option.some.inj h]
    · rw [find?_cons_of_ne hk] at h
      exact List.mem_cons_of_mem _ (ih h)

/-- A key is missing exactly when nothing is found at it. -/
theorem find?_eq_none_iff {es : Entries κ α} {k : κ} : find? es k = none ↔ k ∉ keys es := by
  induction es with
  | nil => simp [keys]
  | cons e es ih =>
    obtain ⟨k', a'⟩ := e
    by_cases hk : k' = k
    · subst hk
      simp [find?_cons_self, keys]
    · rw [find?_cons_of_ne hk, ih]
      simp [keys, Ne.symm hk]

/-- What stands in a mapping is found, if its key is there only once. -/
theorem find?_of_mem {es : Entries κ α} (h : (keys es).Nodup) {k : κ} {a : α} (hmem : (k, a) ∈ es) :
    find? es k = some a := by
  induction es with
  | nil => exact nomatch hmem
  | cons e es ih =>
    obtain ⟨k', a'⟩ := e
    simp only [keys, List.map_cons, List.nodup_cons] at h
    rcases List.mem_cons.1 hmem with heq | hmem
    · obtain ⟨rfl, rfl⟩ := Prod.mk.inj heq
      exact find?_cons_self _ _ _
    · have hk : k' ≠ k := by
        rintro rfl
        exact h.1 (List.mem_map_of_mem hmem)
      rw [find?_cons_of_ne hk]
      exact ih h.2 hmem

/-! ### Setting -/

theorem find?_set_self (es : Entries κ α) (k : κ) (a : α) : find? (set es k a) k = some a := by
  induction es with
  | nil => exact find?_cons_self _ _ _
  | cons e es ih =>
    obtain ⟨k', a'⟩ := e
    by_cases hk : k' = k
    · simp [set, find?, hk]
    · simp [set, find?, hk, ih]

theorem set_ne_nil (es : Entries κ α) (k : κ) (a : α) : set es k a ≠ [] := by
  intro hnil
  have hfind := find?_set_self es k a
  rw [hnil] at hfind
  exact nomatch hfind

theorem find?_set_of_ne {k k' : κ} (h : k' ≠ k) (es : Entries κ α) (a : α) :
    find? (set es k a) k' = find? es k' := by
  induction es with
  | nil => exact find?_cons_of_ne (Ne.symm h) _ _
  | cons e es ih =>
    obtain ⟨k'', a'⟩ := e
    by_cases hk : k'' = k
    · subst hk
      simp [set, find?, Ne.symm h]
    · by_cases hk' : k'' = k'
      · subst hk'
        simp [set, find?, h]
      · simp [set, find?, hk, hk', ih]

/-- Setting a key changes what is found at it, and nothing else. -/
theorem find?_set [DecidableEq κ] (es : Entries κ α) (k k' : κ) (a : α) :
    find? (set es k a) k' = if k' = k then some a else find? es k' := by
  by_cases h : k' = k
  · rw [if_pos h, h, find?_set_self]
  · rw [if_neg h, find?_set_of_ne h]

theorem mem_keys_set {es : Entries κ α} {k k' : κ} {a : α} :
    k' ∈ keys (set es k a) ↔ k' = k ∨ k' ∈ keys es := by
  induction es with
  | nil => simp [set, keys]
  | cons e es ih =>
    obtain ⟨k'', a'⟩ := e
    by_cases hk : k'' = k
    · subst hk
      simp [set, keys]
    · simp only [keys, set, beq_eq_false_iff_ne.2 hk, Bool.false_eq_true, if_false, List.map_cons,
        List.mem_cons] at ih ⊢
      rw [ih]
      exact or_left_comm

theorem nodup_keys_set {es : Entries κ α} (h : (keys es).Nodup) (k : κ) (a : α) :
    (keys (set es k a)).Nodup := by
  induction es with
  | nil => simp [set, keys]
  | cons e es ih =>
    obtain ⟨k', a'⟩ := e
    simp only [keys, List.map_cons, List.nodup_cons] at h
    by_cases hk : k' = k
    · subst hk
      simpa [set, keys] using h
    · have hnot : k' ∉ keys (set es k a) := fun hmem ↦
        (mem_keys_set.1 hmem).elim hk h.1
      simpa [set, keys, hk] using ⟨by simpa [keys] using hnot, ih h.2⟩

/-- A new key goes to the end. -/
theorem set_of_notMem {es : Entries κ α} {k : κ} (h : k ∉ keys es) (a : α) :
    set es k a = es ++ [(k, a)] := by
  induction es with
  | nil => rfl
  | cons e es ih =>
    obtain ⟨k', a'⟩ := e
    obtain ⟨hk, hes⟩ : k ≠ k' ∧ k ∉ keys es := by simpa [keys] using h
    simp [set, Ne.symm hk, ih hes]

theorem set_set (es : Entries κ α) (k : κ) (a a' : α) : set (set es k a) k a' = set es k a' := by
  induction es with
  | nil => simp [set]
  | cons e es ih =>
    obtain ⟨k', a''⟩ := e
    by_cases hk : k' = k
    · simp [set, hk]
    · simp [set, hk, ih]

/-- To set a key to what is found there changes nothing. -/
theorem set_of_find? {es : Entries κ α} {k : κ} {a : α} (h : find? es k = some a) : set es k a = es := by
  induction es with
  | nil => simp at h
  | cons e es ih =>
    obtain ⟨k', a'⟩ := e
    by_cases hk : k' = k
    · subst hk
      rw [find?_cons_self] at h
      simp [set, Option.some.inj h]
    · rw [find?_cons_of_ne hk] at h
      simp [set, hk, ih h]

/-- **Distinct keys are set in order.** -/
theorem foldl_set_of_nodup (es : Entries κ α) {ps : Entries κ α} (h : (keys (es ++ ps)).Nodup) :
    ps.foldl (fun es p ↦ set es p.1 p.2) es = es ++ ps := by
  induction ps generalizing es with
  | nil => simp
  | cons p ps ih =>
    obtain ⟨k, a⟩ := p
    have hk : k ∉ keys es := by
      intro hmem
      simp only [keys, List.map_append, List.map_cons] at h
      exact (List.nodup_append.1 h).2.2 k hmem k List.mem_cons_self rfl
    rw [List.foldl_cons, set_of_notMem hk, ih _ (by simpa using h)]
    simp

theorem ofPairs_of_nodup {ps : Entries κ α} (h : (keys ps).Nodup) : ofPairs ps = ps :=
  foldl_set_of_nodup [] h

/-- Leaving out keys, before one is set or after. -/
theorem filter_set (p : κ → Bool) (es : Entries κ α) (k : κ) (a : α) :
    (set es k a).filter (p ·.1) =
      if p k then set (es.filter (p ·.1)) k a else es.filter (p ·.1) := by
  induction es with
  | nil => cases hp : p k <;> simp [set, hp]
  | cons e es ih =>
    obtain ⟨k', a'⟩ := e
    by_cases hk : k' = k
    · subst hk
      cases hp : p k' <;> simp [set, hp]
    · have hset : set ((k', a') :: es) k a = (k', a') :: set es k a := by simp [set, hk]
      rw [hset, List.filter_cons, List.filter_cons, ih]
      cases hp' : p k' <;> cases hp : p k <;> simp [set, hk]

/-- What stands in the mapping after a key is set stood there before, or is the new entry. -/
theorem mem_set {es : Entries κ α} {k : κ} {a : α} {e : κ × α} (h : e ∈ set es k a) :
    e.2 = a ∨ e ∈ es := by
  induction es with
  | nil => simp_all [set]
  | cons e' es ih =>
    obtain ⟨k', a'⟩ := e'
    by_cases hk : k' = k
    · simp only [set, hk, beq_self_eq_true, if_true, List.mem_cons] at h
      rcases h with rfl | h
      · exact Or.inl rfl
      · exact Or.inr (List.mem_cons_of_mem _ h)
    · simp only [set, beq_eq_false_iff_ne.2 hk, Bool.false_eq_true, if_false, List.mem_cons] at h
      rcases h with rfl | h
      · exact Or.inr List.mem_cons_self
      · exact (ih h).imp_right (List.mem_cons_of_mem _)

/-! ### Removing -/

theorem remove_sublist (es : Entries κ α) (k : κ) : (remove es k).Sublist es := by
  induction es with
  | nil => exact List.Sublist.refl _
  | cons e es ih =>
    obtain ⟨k', a'⟩ := e
    by_cases hk : k' = k
    · simp [remove, hk]
    · simpa [remove, hk] using ih

/-- Removing a key leaves the entries of the others where they are. -/
theorem filter_remove (es : Entries κ α) (k : κ) :
    (remove es k).filter (·.1 != k) = es.filter (·.1 != k) := by
  induction es with
  | nil => rfl
  | cons e es ih =>
    obtain ⟨k', a'⟩ := e
    by_cases hk : k' = k
    · simp [remove, hk]
    · simp [remove, hk, ih]

theorem remove_of_notMem {es : Entries κ α} {k : κ} (h : k ∉ keys es) : remove es k = es := by
  induction es with
  | nil => rfl
  | cons e es ih =>
    obtain ⟨k', a'⟩ := e
    obtain ⟨hk, hes⟩ : k ≠ k' ∧ k ∉ keys es := by simpa [keys] using h
    simp [remove, Ne.symm hk, ih hes]

/-- A new key is set and removed again. -/
theorem remove_set_of_notMem {es : Entries κ α} {k : κ} (h : k ∉ keys es) (a : α) :
    remove (set es k a) k = es := by
  induction es with
  | nil => simp [set, remove]
  | cons e es ih =>
    obtain ⟨k', a'⟩ := e
    obtain ⟨hk, hes⟩ : k ≠ k' ∧ k ∉ keys es := by simpa [keys] using h
    simp [set, remove, Ne.symm hk, ih hes]

theorem find?_remove_of_ne {k k' : κ} (h : k' ≠ k) (es : Entries κ α) :
    find? (remove es k) k' = find? es k' := by
  induction es with
  | nil => rfl
  | cons e es ih =>
    obtain ⟨k'', a'⟩ := e
    by_cases hk : k'' = k
    · subst hk
      simp [remove, find?, Ne.symm h]
    · by_cases hk' : k'' = k'
      · subst hk'
        simp [remove, find?, h]
      · simp [remove, find?, hk, hk', ih]

/-- **A removed key is gone**, if it was there only once. -/
theorem find?_remove_self {es : Entries κ α} (h : (keys es).Nodup) (k : κ) :
    find? (remove es k) k = none := by
  induction es with
  | nil => rfl
  | cons e es ih =>
    obtain ⟨k', a'⟩ := e
    simp only [keys, List.map_cons, List.nodup_cons] at h
    by_cases hk : k' = k
    · subst hk
      simpa [remove] using find?_eq_none_iff.2 h.1
    · simpa [remove, find?, hk] using ih h.2

/-- **Leaving out values** leaves out what is found with them, if no key is there twice. -/
theorem find?_filter {es : Entries κ α} (h : (keys es).Nodup) (p : α → Bool) (k : κ) :
    find? (es.filter fun e ↦ p e.2) k = (find? es k).filter p := by
  induction es with
  | nil => rfl
  | cons e es ih =>
    obtain ⟨k', a⟩ := e
    simp only [keys, List.map_cons, List.nodup_cons] at h
    by_cases hk : k' = k
    · subst hk
      have hgone : find? (es.filter fun e ↦ p e.2) k' = none :=
        find?_eq_none_iff.2 fun hmem ↦ h.1 ((List.filter_sublist.map _).subset hmem)
      cases hp : p a <;> simp [find?_cons_self, Option.filter, hp, hgone]
    · rw [find?_cons_of_ne hk, ← ih h.2]
      cases hp : p a <;> simp [find?_cons_of_ne hk, hp]

end Entries

end PathAccess
