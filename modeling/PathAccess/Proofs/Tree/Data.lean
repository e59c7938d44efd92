import PathAccess.Proofs.Tree.WellFormed
import PathAccess.Tree.Data
/-!
# Trees are read back as they were written

The stored form of a well-formed tree is read back as that very tree, the order of children and of
memberships included (`Tree.ofValue_toValue`). For a branch the modifiers are written first, then the
children, and no child has the name of a modifier, so each field is read as what it was written as. What
carries the induction is that reading some fields adds them to the branch read so far
(`Node.entriesOfValue_childrenToValue`).

And whatever is read is well formed (`Tree.wellFormed_of_ofValue`), since names are made distinct and
reserved ones become modifiers or are refused.
-/

namespace PathAccess

/-! ### Results of reading -/

section Except

variable {ε α β : Type}

theorem exists_of_map_eq_ok {x : Except ε α} {f : α → β} {b : β} (h : x.map f = .ok b) :
    ∃ a, x = .ok a ∧ f a = b := by
  cases x with
  | error e => exact nomatch h
  | ok a => exact ⟨a, rfl, Except.ok.inj h⟩

theorem exists_of_bind_eq_ok {x : Except ε α} {f : α → Except ε β} {b : β}
    (h : (x >>= f) = .ok b) : ∃ a, x = .ok a ∧ f a = .ok b := by
  cases x with
  | error e => exact nomatch h
  | ok a => exact ⟨a, rfl, h⟩

end Except

/-! ### Fields -/

/-- The entries of a mapping with texts as keys. -/
def textKeyed (fields : List (String × Value)) : List (Scalar × Value) :=
  fields.map fun (k, v) ↦ (.text k, v)

theorem Value.record_eq (fields : List (String × Value)) : record fields = map (textKeyed fields) :=
  rfl

@[simp] theorem textKeyed_nil : textKeyed [] = [] := rfl

@[simp] theorem textKeyed_cons (k : String) (v : Value) (fields : List (String × Value)) :
    textKeyed ((k, v) :: fields) = (.text k, v) :: textKeyed fields := rfl

theorem textKeyed_append (fields fields' : List (String × Value)) :
    textKeyed (fields ++ fields') = textKeyed fields ++ textKeyed fields' :=
  List.map_append

/-- A field is found under its text. -/
theorem find?_textKeyed (fields : List (String × Value)) (name : String) :
    Entries.find? (textKeyed fields) (.text name) = Entries.find? fields name := by
  induction fields with
  | nil => rfl
  | cons e fields ih =>
    obtain ⟨k, v⟩ := e
    rw [textKeyed_cons, Entries.find?, Entries.find?, ih]
    rfl

/-- Texts are read back. -/
theorem Value.toTexts?_texts (ss : List String) : (texts ss).toTexts? = some ss := by
  rw [texts, toTexts?]
  induction ss with
  | nil => rfl
  | cons s ss ih =>
    rw [List.map_cons, List.mapM_cons, ih]
    rfl

theorem Grade.ofValue_toInt (place : String) (g : Grade) :
    ofValue place (.int g.toInt) = .ok g := by
  cases g <;> rfl

namespace Node

/-! ### Writing and reading -/

theorem keys_childrenToValue (cs : List (String × Node)) :
    Entries.keys (childrenToValue cs) = Entries.keys cs := by
  induction cs with
  | nil => rfl
  | cons c cs ih => exact congrArg (c.1 :: ·) ih

/-- The fields of a well-formed branch, modifiers first. -/
theorem fieldsOf_eq {own rest : Option Grade} {cs : List (String × Node)}
    (h : Branch.WellFormed ⟨own, rest, cs⟩) :
    fieldsOf own rest (childrenToValue cs) =
      (own.map fun g ↦ (ownKey, Value.int g.toInt)).toList ++
        (rest.map fun g ↦ (restKey, Value.int g.toInt)).toList ++ childrenToValue cs := by
  refine Entries.ofPairs_of_nodup ?_
  have hown : ownKey ∉ Entries.keys cs := fun hmem ↦ absurd (h.ordinary _ hmem) (by decide)
  have hrest : restKey ∉ Entries.keys cs := fun hmem ↦ absurd (h.ordinary _ hmem) (by decide)
  have hne : ownKey ≠ restKey := by decide
  have hnodup := h.distinct
  rw [Entries.keys, List.map_append, List.map_append]
  change (_ ++ Entries.keys (childrenToValue cs)).Nodup
  rw [keys_childrenToValue]
  cases own <;> cases rest <;> simp [hown, hrest, hne, hnodup]

theorem entriesOfValue_own (path : String) (b : Branch) (g : Grade) (es : List (Scalar × Value)) :
    entriesOfValue path b ((.text ownKey, .int g.toInt) :: es) =
      entriesOfValue path { b with own := some g } es := by
  rw [entriesOfValue, if_pos (by rfl), Grade.ofValue_toInt]
  rfl

theorem entriesOfValue_rest (path : String) (b : Branch) (g : Grade) (es : List (Scalar × Value)) :
    entriesOfValue path b ((.text restKey, .int g.toInt) :: es) =
      entriesOfValue path { b with rest := some g } es := by
  rw [entriesOfValue, if_neg (by decide), if_pos (by rfl), Grade.ofValue_toInt]
  rfl

theorem entriesOfValue_child {path name : String} {b : Branch} {v : Value} {n : Node}
    (hname : isReserved name = false) (hn : ofValue (path ++ name ++ "/") v = .ok n)
    (es : List (Scalar × Value)) :
    entriesOfValue path b ((.text name, v) :: es) = entriesOfValue path (b.setChild name n) es := by
  obtain ⟨hmodifier, hgroups⟩ := isReserved_eq_false_iff.1 hname
  obtain ⟨hown, hrest⟩ : name ≠ ownKey ∧ name ≠ restKey := by simpa [isModifier] using hmodifier
  have hplain : (Scalar.text name).plain = name := rfl
  rw [entriesOfValue]
  simp only [hplain, beq_eq_false_iff_ne.2 hown, beq_eq_false_iff_ne.2 hrest,
    beq_eq_false_iff_ne.2 hgroups, Bool.false_eq_true, if_false, hn]
  rfl

/-- **Children are read back** behind those that were read before. -/
theorem entriesOfValue_childrenToValue {cs : List (String × Node)} {b : Branch}
    (hdistinct : (Entries.keys (b.children ++ cs)).Nodup) (hordinary : Ordinary (Entries.keys cs))
    (hcs : ∀ c ∈ cs, ∀ path, ofValue path c.2.toValue = .ok c.2) (path : String) :
    entriesOfValue path b (textKeyed (childrenToValue cs)) =
      .ok { b with children := b.children ++ cs } := by
  induction cs generalizing b with
  | nil => simp [childrenToValue, entriesOfValue]
  | cons c cs ih =>
    obtain ⟨name, n⟩ := c
    have hnew : name ∉ Entries.keys b.children := by
      intro hmem
      rw [Entries.keys, List.map_append, List.nodup_append] at hdistinct
      exact hdistinct.2.2 name hmem name List.mem_cons_self rfl
    rw [childrenToValue, textKeyed_cons,
      entriesOfValue_child (hordinary name List.mem_cons_self) (hcs (name, n) List.mem_cons_self _),
      Branch.setChild, Entries.set_of_notMem hnew]
    rw [ih (by simpa using hdistinct) (fun s hs ↦ hordinary s (List.mem_cons_of_mem _ hs))
      fun c hc ↦ hcs c (List.mem_cons_of_mem _ hc)]
    simp

/-- The fields of a well-formed branch are read back as the branch. -/
theorem entriesOfValue_fieldsOf {b : Branch} (h : b.WellFormed)
    (hcs : ∀ c ∈ b.children, ∀ path, ofValue path c.2.toValue = .ok c.2) (path : String) :
    entriesOfValue path {} (textKeyed (fieldsOf b.own b.rest (childrenToValue b.children))) =
      .ok b := by
  obtain ⟨own, rest, cs⟩ := b
  have hread : ∀ own rest : Option Grade,
      entriesOfValue path ⟨own, rest, []⟩ (textKeyed (childrenToValue cs)) =
        .ok ⟨own, rest, cs⟩ :=
    fun own rest ↦ entriesOfValue_childrenToValue (b := ⟨own, rest, []⟩) h.distinct h.ordinary hcs
      path
  rw [fieldsOf_eq h]
  cases own with
  | none =>
    cases rest with
    | none => exact hread none none
    | some r => exact (entriesOfValue_rest path {} r _).trans (hread none (some r))
  | some o =>
    refine (entriesOfValue_own path {} o _).trans ?_
    cases rest with
    | none => exact hread (some o) none
    | some r => exact (entriesOfValue_rest path ⟨some o, none, []⟩ r _).trans (hread _ _)

/-- **A well-formed node is read back.** -/
theorem WellFormed.ofValue_toValue {n : Node} (h : n.WellFormed) (path : String) :
    ofValue path n.toValue = .ok n := by
  induction h generalizing path with
  | leaf g =>
    rw [toValue, ofValue, Grade.ofValue_toInt]
    rfl
  | @branch own rest children distinct ordinary below ih =>
    have hfields := entriesOfValue_fieldsOf (b := ⟨own, rest, children⟩)
      ⟨distinct, ordinary, below⟩ ih path
    rw [toValue, Value.record_eq, ofValue, hfields]
    rfl

/-! ### Whatever is read -/

mutual

theorem wellFormed_of_ofValue (path : String) : (v : Value) → {n : Node} →
    ofValue path v = .ok n → n.WellFormed
  | .map es, n, h => by
    rw [ofValue] at h
    obtain ⟨b, hb, rfl⟩ := exists_of_map_eq_ok h
    exact Branch.wellFormed_toNode_iff.2 (wellFormed_of_entriesOfValue path es
      (Branch.wellFormed_of_children_eq_nil rfl) hb)
  | .scalar s, n, h => by
    rw [ofValue] at h
    obtain ⟨g, -, rfl⟩ := exists_of_map_eq_ok h
    exact .leaf g
  | .list xs, n, h => by
    rw [ofValue] at h
    obtain ⟨g, -, rfl⟩ := exists_of_map_eq_ok h
    exact .leaf g

theorem wellFormed_of_entriesOfValue (path : String) : (es : List (Scalar × Value)) →
    {b c : Branch} → b.WellFormed → entriesOfValue path b es = .ok c → c.WellFormed
  | [], b, c, hb, h => by
    obtain rfl : b = c := Except.ok.inj h
    exact hb
  | (key, v) :: es, b, c, hb, h => by
    rw [entriesOfValue] at h
    split at h <;> rename_i hown
    · obtain ⟨g, -, h⟩ := exists_of_bind_eq_ok h
      exact wellFormed_of_entriesOfValue path es (hb.with_modifiers _ _) h
    · split at h <;> rename_i hrest
      · obtain ⟨g, -, h⟩ := exists_of_bind_eq_ok h
        exact wellFormed_of_entriesOfValue path es (hb.with_modifiers _ _) h
      · split at h <;> rename_i hgroups
        · exact nomatch h
        · -- Every reserved name was caught before, so this one can stand for a child.
          have hname : isReserved key.plain = false := by
            simp only [isReserved, isModifier]
            simp_all
          obtain ⟨n, hn, h⟩ := exists_of_bind_eq_ok h
          exact wellFormed_of_entriesOfValue path es
            (hb.setChild hname (wellFormed_of_ofValue _ v hn)) h

end

end Node

namespace Tree

variable {t : Tree}

/-- The names of the fields of a well-formed branch: none is that of the memberships. -/
theorem groupsKey_notMem_keys_fieldsOf {b : Branch} (h : b.WellFormed) :
    groupsKey ∉ Entries.keys (Node.fieldsOf b.own b.rest (Node.childrenToValue b.children)) := by
  have hchildren : groupsKey ∉ Entries.keys (Node.childrenToValue b.children) := by
    rw [Node.keys_childrenToValue]
    exact fun hmem ↦ absurd (h.ordinary _ hmem) (by decide)
  have hown : groupsKey ≠ ownKey := by decide
  have hrest : groupsKey ≠ restKey := by decide
  rw [Node.fieldsOf_eq h, Entries.keys, List.map_append, List.map_append, List.mem_append,
    List.mem_append, not_or, not_or]
  refine ⟨⟨?_, ?_⟩, hchildren⟩
  · cases b.own <;> simp [hown]
  · cases b.rest <;> simp [hrest]

/-- The stored memberships are the last field, if there are some. -/
theorem fields_eq (h : t.WellFormed) :
    t.fields = Node.fieldsOf t.root.own t.root.rest (Node.childrenToValue t.root.children) ++
      if t.groups = [] then [] else [(groupsKey, .texts t.groups)] := by
  rw [fields]
  by_cases hgroups : t.groups = []
  · simp [hgroups]
  · rw [if_neg (by simpa using hgroups), if_neg hgroups,
      Entries.set_of_notMem (groupsKey_notMem_keys_fieldsOf h)]

/-- Without the memberships the fields are those of the root. -/
theorem filter_isGroupsEntry (h : t.WellFormed) :
    (textKeyed t.fields).filter (!isGroupsEntry ·) =
      textKeyed (Node.fieldsOf t.root.own t.root.rest (Node.childrenToValue t.root.children)) := by
  have hroot : ∀ e ∈ textKeyed
      (Node.fieldsOf t.root.own t.root.rest (Node.childrenToValue t.root.children)),
      (!isGroupsEntry e) = true := by
    intro e he
    obtain ⟨⟨k, v⟩, hmem, rfl⟩ := List.mem_map.1 he
    have hk : k ≠ groupsKey := by
      rintro rfl
      exact groupsKey_notMem_keys_fieldsOf h (List.mem_map_of_mem hmem)
    simpa [isGroupsEntry] using hk
  have hlast : (textKeyed (if t.groups = [] then [] else [(groupsKey, .texts t.groups)])).filter
      (!isGroupsEntry ·) = [] := by
    split <;> rfl
  rw [fields_eq h, textKeyed_append, List.filter_append, List.filter_eq_self.2 hroot, hlast,
    List.append_nil]

theorem groupsOfValue_fields (h : t.WellFormed) (owner : String) :
    groupsOfValue owner (Entries.find? (textKeyed t.fields) (.text groupsKey)) = .ok t.groups := by
  have hroot := Entries.find?_eq_none_iff.2 (groupsKey_notMem_keys_fieldsOf h)
  rw [find?_textKeyed, fields]
  by_cases hgroups : t.groups = []
  · rw [if_pos (by simpa using hgroups), hroot, hgroups]
    rfl
  · have hread : groupsOfValue owner (some (.texts t.groups)) = .ok t.groups := by
      rw [Value.texts, groupsOfValue, ← Value.texts, Value.toTexts?_texts]
      simp
    rw [if_neg (by simpa using hgroups), Entries.find?_set_self, hread]

/-- **A well-formed tree is read back**, with its memberships. -/
theorem ofValue_toValue (h : t.WellFormed) (owner : String) : ofValue owner t.toValue = .ok t := by
  have hroot := Node.entriesOfValue_fieldsOf (b := t.root) h
    (fun c hc path ↦ (h.below c hc).ofValue_toValue path) "/"
  rw [toValue, Value.record_eq, ofValue, groupsOfValue_fields h, filter_isGroupsEntry h, hroot]
  rfl

/-- **Every tree that is read is well formed.** -/
theorem wellFormed_of_ofValue {owner : String} {v : Value} (h : ofValue owner v = .ok t) :
    t.WellFormed := by
  unfold ofValue at h
  split at h
  · obtain ⟨groups, -, h⟩ := exists_of_bind_eq_ok h
    obtain ⟨root, hroot, h⟩ := exists_of_bind_eq_ok h
    obtain rfl := Except.ok.inj h
    exact Node.wellFormed_of_entriesOfValue _ _ (Branch.wellFormed_of_children_eq_nil rfl) hroot
  · cases h

end Tree

end PathAccess
