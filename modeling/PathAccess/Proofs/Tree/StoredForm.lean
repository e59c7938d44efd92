import PathAccess.Proofs.Tree.Data
/-!
# Which data are trees, and in which form they are kept

Plain data can be read as a tree exactly if it has the shape of one (`Value.IsTree`), which says nothing of
how it is read: numbers of grades stand at the modifiers and at the leaves, mappings of the same shape
anywhere else, and memberships at the root.

The stored form of what is read is the data itself, put in order (`Value.canonicalTree`). A key becomes its
text, and of several keys with one text the first gives the place and the last gives the value. Then the
modifiers come first and the memberships last, if there are some.

Reading goes through the entries one after the other. What carries the induction is how the branch read so
far stands to the fields read so far (`Branch.HasFields`).
-/

namespace PathAccess

namespace Value

/-! ### The shape of trees -/

/-- Whether a value is the number of a grade. A truth value is no number. -/
def IsGrade (v : Value) : Prop :=
  ∃ n ∈ ([-1, 1, 2, 3, 4, 5] : List Int), v = .int n

/-- Whether a value has the shape of a node. -/
inductive IsNode : Value → Prop
  /-- A leaf. -/
  | leaf {v : Value} (grade : v.IsGrade) : IsNode v
  /-- A branch, with grades at the modifiers, nodes at the other names, and no memberships. -/
  | branch {es : List (Scalar × Value)}
      (modifiers : ∀ e ∈ es, isModifier e.1.plain → e.2.IsGrade)
      (below : ∀ e ∈ es, isModifier e.1.plain = false → IsNode e.2)
      (names : ∀ e ∈ es, e.1.plain ≠ groupsKey) : IsNode (.map es)

/-- Whether the entries of a mapping are those of a branch. -/
def AreEntries (es : List (Scalar × Value)) : Prop :=
  (∀ e ∈ es, isModifier e.1.plain → e.2.IsGrade) ∧
    (∀ e ∈ es, isModifier e.1.plain = false → e.2.IsNode) ∧ ∀ e ∈ es, e.1.plain ≠ groupsKey

/-- Whether a value has the shape of a tree: a branch, and with it a list of names or nothing as the
memberships. -/
def IsTree : Value → Prop
  | .map es =>
    (∀ v ∈ Entries.find? es (.text groupsKey), v = .null ∨ ∃ names, v = .texts names) ∧
      IsNode (.map (es.filter (!Tree.isGroupsEntry ·)))
  | _ => False

/-! ### The stored form -/

/-- The fields in their order, but those of the modifiers first. -/
def modifiersFirst (fields : Entries String Value) : Entries String Value :=
  fields.filter (·.1 == ownKey) ++ fields.filter (·.1 == restKey) ++
    fields.filter (!isModifier ·.1)

mutual

/-- The stored form of a node. -/
def canonical : Value → Value
  | .map es => .record (modifiersFirst (Entries.ofPairs (canonicalFields es)))
  | v => v

/-- The entries with their keys as texts, the values in their stored form. -/
def canonicalFields : List (Scalar × Value) → List (String × Value)
  | [] => []
  | (key, v) :: es => (key.plain, canonical v) :: canonicalFields es

end

/-- The memberships as a field, if there are some. -/
def groupsField : Option Value → List (String × Value)
  | some (.list (name :: names)) => [(groupsKey, .list (name :: names))]
  | _ => []

/-- The stored form of a tree. -/
def canonicalTree : Value → Value
  | .map es =>
    .record (modifiersFirst (Entries.ofPairs (canonicalFields (es.filter (!Tree.isGroupsEntry ·)))) ++
      groupsField (Entries.find? es (.text groupsKey)))
  | v => v

end Value

/-! ### Grades -/

/-- A grade is read from its number and from nothing else. -/
theorem Grade.ofValue_eq_ok_iff {place : String} {v : Value} {g : Grade} :
    Grade.ofValue place v = .ok g ↔ v = .int g.toInt := by
  constructor
  · intro h
    unfold Grade.ofValue at h
    split at h
    · rename_i n
      split at h
      · rename_i g' hlevel
        obtain rfl : g' = g := Except.ok.inj h
        have hfound := List.find?_some hlevel
        have hnumber : g'.toInt = n := by simpa [Level.toInt] using hfound
        rw [hnumber]
      · exact nomatch h
      · exact nomatch h
    · exact nomatch h
  · rintro rfl
    exact ofValue_toInt place g

theorem Value.isGrade_iff {v : Value} : v.IsGrade ↔ ∃ g : Grade, v = .int g.toInt := by
  constructor
  · rintro ⟨n, hn, rfl⟩
    have hgrade : ∃ g : Grade, g.toInt = n := by
      simp only [List.mem_cons, List.not_mem_nil, or_false] at hn
      rcases hn with rfl | rfl | rfl | rfl | rfl | rfl
      · exact ⟨.revoked, rfl⟩
      · exact ⟨.read, rfl⟩
      · exact ⟨.grantRead, rfl⟩
      · exact ⟨.write, rfl⟩
      · exact ⟨.grantWrite, rfl⟩
      · exact ⟨.grant, rfl⟩
    obtain ⟨g, rfl⟩ := hgrade
    exact ⟨g, rfl⟩
  · rintro ⟨g, rfl⟩
    exact ⟨g.toInt, by cases g <;> decide, rfl⟩

/-- A grade can be read from the number of one, and from nothing else. -/
theorem Value.isGrade_iff_exists_ofValue {v : Value} (place : String) :
    v.IsGrade ↔ ∃ g, Grade.ofValue place v = .ok g := by
  simp only [Value.isGrade_iff, Grade.ofValue_eq_ok_iff]

/-! ### The branch read so far and its fields -/

/-- Whether some fields are those of a branch, in any order of the modifiers and the children. -/
structure Branch.HasFields (b : Branch) (fields : Entries String Value) : Prop where
  /-- The directory's own grade. -/
  own : fields.filter (·.1 == ownKey) = (b.own.map fun g ↦ (ownKey, Value.int g.toInt)).toList
  /-- The grade of unnamed children. -/
  rest : fields.filter (·.1 == restKey) = (b.rest.map fun g ↦ (restKey, Value.int g.toInt)).toList
  /-- The children, in their order. -/
  children : fields.filter (!isModifier ·.1) = Node.childrenToValue b.children

theorem Node.childrenToValue_set (cs : Entries String Node) (name : String) (n : Node) :
    childrenToValue (Entries.set cs name n) =
      Entries.set (childrenToValue cs) name n.toValue := by
  induction cs with
  | nil => rfl
  | cons c cs ih =>
    obtain ⟨name', n'⟩ := c
    by_cases hname : name' = name
    · simp [Entries.set, childrenToValue, hname]
    · simp [Entries.set, childrenToValue, hname, ih]

namespace Branch.HasFields

variable {b : Branch} {fields : Entries String Value}

theorem empty : HasFields {} [] := ⟨rfl, rfl, rfl⟩

/-- The own grade is read. -/
theorem setOwn (h : b.HasFields fields) (g : Grade) :
    HasFields { b with own := some g } (Entries.set fields ownKey (.int g.toInt)) where
  own := by
    rw [Entries.filter_set (· == ownKey), h.own]
    cases b.own <;> rfl
  rest := by
    rw [Entries.filter_set (· == restKey)]
    exact h.rest
  children := by
    rw [Entries.filter_set (!isModifier ·)]
    exact h.children

/-- The grade of unnamed children is read. -/
theorem setRest (h : b.HasFields fields) (g : Grade) :
    HasFields { b with rest := some g } (Entries.set fields restKey (.int g.toInt)) where
  own := by
    rw [Entries.filter_set (· == ownKey)]
    exact h.own
  rest := by
    rw [Entries.filter_set (· == restKey), h.rest]
    cases b.rest <;> rfl
  children := by
    rw [Entries.filter_set (!isModifier ·)]
    exact h.children

/-- A child is read. -/
theorem setChild (h : b.HasFields fields) {name : String} (hname : isModifier name = false)
    (n : Node) : HasFields (b.setChild name n) (Entries.set fields name n.toValue) := by
  obtain ⟨hown, hrest⟩ : name ≠ ownKey ∧ name ≠ restKey := by simpa [isModifier] using hname
  refine ⟨?_, ?_, ?_⟩
  · rw [Entries.filter_set (· == ownKey), if_neg (by simpa using hown)]
    exact h.own
  · rw [Entries.filter_set (· == restKey), if_neg (by simpa using hrest)]
    exact h.rest
  · rw [Entries.filter_set (!isModifier ·), if_pos (by simpa using hname), h.children]
    exact (Node.childrenToValue_set _ _ _).symm

/-- **The fields of a branch, with the modifiers first, are those that are written.** -/
theorem modifiersFirst_eq (h : b.HasFields fields) (hwf : b.WellFormed) :
    Value.modifiersFirst fields = Node.fieldsOf b.own b.rest (Node.childrenToValue b.children) := by
  rw [Value.modifiersFirst, h.own, h.rest, h.children, Node.fieldsOf_eq hwf]

end Branch.HasFields

/-! ### Nodes -/

namespace Value

theorem isNode_map_iff {es : List (Scalar × Value)} : (map es).IsNode ↔ AreEntries es := by
  constructor
  · intro h
    cases h with
    | leaf grade =>
      obtain ⟨n, -, heq⟩ := grade
      exact nomatch heq
    | branch modifiers below names => exact ⟨modifiers, below, names⟩
  · rintro ⟨modifiers, below, names⟩
    exact .branch modifiers below names

theorem areEntries_cons {key : Scalar} {v : Value} {es : List (Scalar × Value)} :
    AreEntries ((key, v) :: es) ↔
      ((isModifier key.plain → v.IsGrade) ∧ (isModifier key.plain = false → v.IsNode) ∧
        key.plain ≠ groupsKey) ∧ AreEntries es := by
  simp only [AreEntries, List.forall_mem_cons]
  exact ⟨fun ⟨⟨hm, hms⟩, ⟨hb, hbs⟩, hn, hns⟩ ↦ ⟨⟨hm, hb, hn⟩, hms, hbs, hns⟩,
    fun ⟨⟨hm, hb, hn⟩, hms, hbs, hns⟩ ↦ ⟨⟨hm, hms⟩, ⟨hb, hbs⟩, hn, hns⟩⟩

end Value

namespace Node

/-- **The entries of a branch can be read**, behind what was read before. -/
theorem exists_entriesOfValue {es : List (Scalar × Value)} (h : Value.AreEntries es)
    (hbelow : ∀ e ∈ es, isModifier e.1.plain = false → ∀ path, ∃ n, ofValue path e.2 = .ok n)
    (path : String) (b : Branch) : ∃ c, entriesOfValue path b es = .ok c := by
  induction es generalizing b with
  | nil => exact ⟨b, rfl⟩
  | cons e es ih =>
    obtain ⟨key, v⟩ := e
    obtain ⟨⟨hmodifier, -, hname⟩, hrest⟩ := Value.areEntries_cons.1 h
    have hnext := ih hrest fun e he ↦ hbelow e (List.mem_cons_of_mem _ he)
    rw [entriesOfValue]
    split <;> rename_i hown
    · have hmod : isModifier key.plain := by simp [isModifier, hown]
      obtain ⟨g, hg⟩ := (Value.isGrade_iff_exists_ofValue (path ++ key.plain)).1 (hmodifier hmod)
      rw [hg]
      exact hnext _
    · split <;> rename_i hrestKey
      · have hmod : isModifier key.plain := by simp [isModifier, hrestKey]
        obtain ⟨g, hg⟩ := (Value.isGrade_iff_exists_ofValue (path ++ key.plain)).1 (hmodifier hmod)
        rw [hg]
        exact hnext _
      · have hmod : isModifier key.plain = false := by simp [isModifier, hown, hrestKey]
        obtain ⟨n, hn⟩ := hbelow (key, v) List.mem_cons_self hmod (path ++ key.plain ++ "/")
        rw [if_neg (by simpa using hname), hn]
        exact hnext _

/-- **What has the shape of a node can be read.** -/
theorem exists_ofValue {v : Value} (h : v.IsNode) (path : String) :
    ∃ n, ofValue path v = .ok n := by
  induction h generalizing path with
  | leaf grade =>
    obtain ⟨g, rfl⟩ := Value.isGrade_iff.1 grade
    exact ⟨.leaf g, by rw [ofValue, Grade.ofValue_toInt]; rfl⟩
  | @branch es modifiers below names ih =>
    obtain ⟨c, hc⟩ := exists_entriesOfValue ⟨modifiers, below, names⟩ ih path {}
    exact ⟨c.toNode, by rw [ofValue, hc]; rfl⟩

mutual

/-- **What is read has the shape of a node**, and its stored form is that of the value. -/
theorem isNode_of_ofValue (path : String) : (v : Value) → {n : Node} → ofValue path v = .ok n →
    v.IsNode ∧ n.toValue = v.canonical
  | .map es, n, h => by
    rw [ofValue] at h
    obtain ⟨b, hb, rfl⟩ := exists_of_map_eq_ok h
    obtain ⟨hentries, hfields⟩ := areEntries_of_entriesOfValue path es .empty hb
    have hwf := wellFormed_of_entriesOfValue path es (Branch.wellFormed_of_children_eq_nil rfl) hb
    refine ⟨Value.isNode_map_iff.2 hentries, ?_⟩
    change Value.record (fieldsOf b.own b.rest (childrenToValue b.children)) = _
    rw [← hfields.modifiersFirst_eq hwf, Value.canonical]
    rfl
  | .scalar s, n, h => by
    rw [ofValue] at h
    obtain ⟨g, hg, rfl⟩ := exists_of_map_eq_ok h
    have hvalue := Grade.ofValue_eq_ok_iff.1 hg
    exact ⟨.leaf (Value.isGrade_iff.2 ⟨g, hvalue⟩), by rw [hvalue]; rfl⟩
  | .list xs, n, h => by
    rw [ofValue] at h
    obtain ⟨g, hg, rfl⟩ := exists_of_map_eq_ok h
    exact nomatch Grade.ofValue_eq_ok_iff.1 hg

/-- Entries that are read are those of a branch, and the branch has their fields. -/
theorem areEntries_of_entriesOfValue (path : String) : (es : List (Scalar × Value)) →
    {b c : Branch} → {fields : Entries String Value} → b.HasFields fields →
    entriesOfValue path b es = .ok c →
    Value.AreEntries es ∧
      c.HasFields ((Value.canonicalFields es).foldl (fun fs e ↦ Entries.set fs e.1 e.2) fields)
  | [], b, c, fields, hb, h => by
    obtain rfl : b = c := Except.ok.inj h
    exact ⟨by simp [Value.AreEntries], hb⟩
  | (key, v) :: es, b, c, fields, hb, h => by
    rw [entriesOfValue] at h
    rw [Value.areEntries_cons, Value.canonicalFields, List.foldl_cons]
    -- What the first entry is read as is added to the branch, and its field to the fields so far.
    split at h <;> rename_i hown
    · have hkey : key.plain = ownKey := by simpa using hown
      obtain ⟨g, hg, hread⟩ := exists_of_bind_eq_ok h
      obtain rfl := Grade.ofValue_eq_ok_iff.1 hg
      obtain ⟨hes, hfields⟩ := areEntries_of_entriesOfValue path es (hb.setOwn g) hread
      have hgrade := Value.isGrade_iff.2 ⟨g, rfl⟩
      rw [hkey]
      exact ⟨⟨⟨fun _ ↦ hgrade, fun _ ↦ .leaf hgrade, by decide⟩, hes⟩, hfields⟩
    · split at h <;> rename_i hrest
      · have hkey : key.plain = restKey := by simpa using hrest
        obtain ⟨g, hg, hread⟩ := exists_of_bind_eq_ok h
        obtain rfl := Grade.ofValue_eq_ok_iff.1 hg
        obtain ⟨hes, hfields⟩ := areEntries_of_entriesOfValue path es (hb.setRest g) hread
        have hgrade := Value.isGrade_iff.2 ⟨g, rfl⟩
        rw [hkey]
        exact ⟨⟨⟨fun _ ↦ hgrade, fun _ ↦ .leaf hgrade, by decide⟩, hes⟩, hfields⟩
      · split at h <;> rename_i hgroups
        · exact nomatch h
        · have hmod : isModifier key.plain = false := by simp [isModifier, hown, hrest]
          obtain ⟨n, hn, hread⟩ := exists_of_bind_eq_ok h
          obtain ⟨hnode, hvalue⟩ := isNode_of_ofValue _ v hn
          obtain ⟨hes, hfields⟩ := areEntries_of_entriesOfValue path es (hb.setChild hmod n) hread
          rw [hvalue] at hfields
          refine ⟨⟨⟨fun hmodifier ↦ ?_, fun _ ↦ hnode, by simpa using hgroups⟩, hes⟩, hfields⟩
          rw [hmod] at hmodifier
          exact nomatch hmodifier

end

end Node

/-! ### Trees -/

/-- A list is one of texts exactly if its texts can be read. -/
theorem Value.toTexts?_eq_some_iff {v : Value} {names : List String} :
    v.toTexts? = some names ↔ v = .texts names := by
  constructor
  · intro h
    cases v with
    | scalar s => cases h
    | map es => cases h
    | list xs =>
      rw [Value.toTexts?] at h
      congr 1
      induction xs generalizing names with
      | nil =>
        obtain rfl := Option.some.inj h
        rfl
      | cons x xs ih =>
        rw [List.mapM_cons] at h
        obtain ⟨y, hy, h⟩ := Option.bind_eq_some_iff.1 h
        obtain ⟨ys, hys, h⟩ := Option.bind_eq_some_iff.1 h
        obtain rfl : y :: ys = names := Option.some.inj h
        have hx : x = .text y := by
          split at hy
          · rw [Option.some.inj hy]
          · cases hy
        rw [ih hys, hx]
        rfl
  · rintro rfl
    exact Value.toTexts?_texts names

namespace Tree

/-- **Memberships are read** from a list of texts, or are none where nothing is stored. -/
theorem groupsOfValue_eq_ok_iff {owner : String} {o : Option Value} {groups : List String} :
    groupsOfValue owner o = .ok groups ↔
      groups = [] ∧ (o = none ∨ o = some .null) ∨ o = some (.texts groups) := by
  unfold groupsOfValue
  split
  · simp [eq_comm, Value.texts]
  · simp [eq_comm, Value.texts]
  · rename_i v hnull
    have hne : v ≠ .null := by
      rintro rfl
      exact hnull rfl
    cases htexts : v.toTexts? with
    | some names =>
      have hv := Value.toTexts?_eq_some_iff.1 htexts
      have hinj : names = groups ↔ v = .texts groups := by
        rw [← Value.toTexts?_eq_some_iff, htexts, Option.some.injEq]
      simp [hne, hinj]
    | none =>
      have hother : v ≠ .texts groups := by
        rintro rfl
        rw [Value.toTexts?_texts] at htexts
        cases htexts
      simp [hne, hother]

theorem exists_groupsOfValue_iff {owner : String} {o : Option Value} :
    (∃ groups, groupsOfValue owner o = .ok groups) ↔
      ∀ v ∈ o, v = .null ∨ ∃ names, v = .texts names := by
  simp only [groupsOfValue_eq_ok_iff]
  constructor
  · rintro ⟨groups, ⟨rfl, rfl | rfl⟩ | rfl⟩ v hv
    · exact nomatch hv
    · exact Or.inl (Option.some.inj hv).symm
    · exact Or.inr ⟨groups, (Option.some.inj hv).symm⟩
  · intro h
    cases o with
    | none => exact ⟨[], Or.inl ⟨rfl, Or.inl rfl⟩⟩
    | some v =>
      rcases h v rfl with rfl | ⟨names, rfl⟩
      · exact ⟨[], Or.inl ⟨rfl, Or.inr rfl⟩⟩
      · exact ⟨names, Or.inr rfl⟩

/-- The memberships that are read are written as they were, if there are some. -/
theorem groupsField_of_groupsOfValue {owner : String} {o : Option Value} {groups : List String}
    (h : groupsOfValue owner o = .ok groups) :
    Value.groupsField o = if groups = [] then [] else [(groupsKey, .texts groups)] := by
  rcases groupsOfValue_eq_ok_iff.1 h with ⟨rfl, rfl | rfl⟩ | rfl
  · rfl
  · rfl
  · cases groups <;> rfl

/-- **Which data are trees**: what has the shape of one can be read, and nothing else. -/
theorem exists_ofValue_iff {owner : String} {v : Value} :
    (∃ t, ofValue owner v = .ok t) ↔ v.IsTree := by
  cases v with
  | scalar s => exact ⟨fun ⟨_, h⟩ ↦ (nomatch h), False.elim⟩
  | list xs => exact ⟨fun ⟨_, h⟩ ↦ (nomatch h), False.elim⟩
  | map es =>
    rw [Value.IsTree, ← exists_groupsOfValue_iff, ofValue]
    constructor
    · rintro ⟨t, h⟩
      obtain ⟨groups, hgroups, h⟩ := exists_of_bind_eq_ok h
      obtain ⟨root, hroot, h⟩ := exists_of_bind_eq_ok h
      have hentries := (Node.areEntries_of_entriesOfValue "/" _ .empty hroot).1
      exact ⟨⟨groups, hgroups⟩, Value.isNode_map_iff.2 hentries⟩
    · rintro ⟨⟨groups, hgroups⟩, hnode⟩
      have hentries := Value.isNode_map_iff.1 hnode
      obtain ⟨root, hroot⟩ := Node.exists_entriesOfValue hentries
        (fun e he hmod path ↦ Node.exists_ofValue (hentries.2.1 e he hmod) path) "/" {}
      exact ⟨{ root, groups }, by rw [hgroups, hroot]; rfl⟩

/-- **In which form they are kept**: what is read is written as the data, put in order. -/
theorem toValue_of_ofValue {owner : String} {v : Value} {t : Tree} (h : ofValue owner v = .ok t) :
    t.toValue = v.canonicalTree := by
  have hwf := wellFormed_of_ofValue h
  cases v with
  | scalar s => exact nomatch h
  | list xs => exact nomatch h
  | map es =>
    rw [ofValue] at h
    obtain ⟨groups, hgroups, h⟩ := exists_of_bind_eq_ok h
    obtain ⟨root, hroot, h⟩ := exists_of_bind_eq_ok h
    obtain rfl : Tree.mk root groups = t := Except.ok.inj h
    have hfields := (Node.areEntries_of_entriesOfValue "/" _ .empty hroot).2
    have hmodifiers := hfields.modifiersFirst_eq hwf
    rw [toValue, fields_eq hwf, Value.canonicalTree, groupsField_of_groupsOfValue hgroups,
      ← hmodifiers]
    rfl

end Tree

end PathAccess
