import PathAccess.Proofs.Database.WellFormed
import PathAccess.Proofs.Tree.StoredForm
import PathAccess.Store
/-!
# Databases are read back as they were saved

The document of a well-formed database is read back as that database, in the same order
(`Database.WellFormed.ofDocument_toDocument`), so a store that was saved to gives back what was saved
(`Store.load_of_save`). Only the rules for names are not in the document; they are those of the reader.
Every database that is read from a document is well formed in turn, whoever wrote it
(`Database.wellFormed_of_ofDocument`).
-/

namespace PathAccess

namespace Database

variable {db : Database} {rules : PrincipalRules} {source : String}

/-- Well-formed trees under distinct names, as entries. -/
theorem WellFormed.of_mem (h : db.WellFormed) {e : String × Tree} (he : e ∈ db.trees) :
    e.2.WellFormed := by
  have hfind : db.find? e.1 = some e.2 := Entries.find?_of_mem h.distinct he
  rw [← db.treeOf_of_find? hfind]
  exact h.trees e.1

/-! ### Reading back -/

/-- **Trees are read back** behind those that were read before. -/
theorem treesOfValue_toValue {trees : Entries String Tree} (before : Entries String Tree)
    (hdistinct : (Entries.keys (before ++ trees)).Nodup) (hwf : ∀ e ∈ trees, e.2.WellFormed) :
    treesOfValue before (textKeyed (trees.map fun (name, t) ↦ (name, t.toValue))) =
      .ok (before ++ trees) := by
  induction trees generalizing before with
  | nil => simp [treesOfValue]
  | cons e trees ih =>
    obtain ⟨name, t⟩ := e
    have hnew : name ∉ Entries.keys before := by
      intro hmem
      rw [Entries.keys, List.map_append, List.nodup_append] at hdistinct
      exact hdistinct.2.2 name hmem name List.mem_cons_self rfl
    have hplain : (Scalar.text name).plain = name := rfl
    have ht : Tree.ofValue name t.toValue = .ok t :=
      Tree.ofValue_toValue (hwf (name, t) List.mem_cons_self) name
    have hrest := ih (before ++ [(name, t)]) (by simpa using hdistinct)
      fun e he ↦ hwf e (List.mem_cons_of_mem _ he)
    rw [List.map_cons, textKeyed_cons, treesOfValue, hplain, ht]
    change treesOfValue (Entries.set before name t) _ = _
    rw [Entries.set_of_notMem hnew, hrest, List.append_assoc, List.singleton_append]

theorem WellFormed.ofValue_toValue (h : db.WellFormed) (rules : PrincipalRules) :
    ofValue rules db.toValue = .ok { db with rules } := by
  have htrees := treesOfValue_toValue [] h.distinct fun e he ↦ h.of_mem he
  rw [toValue, Value.record_eq, ofValue, htrees]
  rfl

/-- **A well-formed database is read back from its document.** -/
theorem WellFormed.ofDocument_toDocument (h : db.WellFormed) (rules : PrincipalRules)
    (source : String) : ofDocument rules source db.toDocument = .ok { db with rules } := by
  have hversion : db.toDocument.field? "version" = some (.text documentVersion) := rfl
  have htrees : db.toDocument.field? "access_map" = some db.toValue := rfl
  -- A database without trees is stored as a mapping without entries, which stands for itself.
  have hvoid : (if db.toValue.isVoid then .map [] else db.toValue) = db.toValue := by
    rw [toValue, Value.record_eq]
    cases textKeyed (db.trees.map fun (name, t) ↦ (name, t.toValue)) <;> rfl
  have hmapping : ofMapping rules db.toDocument = .ok { db with rules } := by
    rw [ofMapping, hversion, htrees]
    simp only [Option.map_some, Option.getD_some, hvoid, h.ofValue_toValue rules]
    rfl
  rw [toDocument, Value.record_eq, textKeyed_cons] at hmapping ⊢
  rw [ofDocument, hmapping]

/-- **The stored form.** A well-formed database is read back from its document. What can be read as a tree
is exactly what has the shape of one, and it is written as it was, put in order. -/
theorem stored_form :
    (∀ (db : Database) (rules : PrincipalRules) (source : String), db.WellFormed →
      ofDocument rules source db.toDocument = .ok { db with rules }) ∧
    ∀ (owner : String) (v : Value),
      ((∃ t, Tree.ofValue owner v = .ok t) ↔ v.IsTree) ∧
      ∀ t, Tree.ofValue owner v = .ok t → t.toValue = v.canonicalTree :=
  ⟨fun _ rules source h ↦ h.ofDocument_toDocument rules source,
    fun _ _ ↦ ⟨Tree.exists_ofValue_iff, fun _ h ↦ Tree.toValue_of_ofValue h⟩⟩

/-- The first run's database is read back. A tree whose entries are out of order, with a key that is no
text and another one with its text, is written in order, without the memberships that it does not have. -/
theorem stored_form_alice :
    let v : Value := .map [
      (.null, .int 3), (.text "a", .map [(.text "x", .int 5), (.text "*", .int 1)]),
      (.text "?", .list []), (.text ".", .int 1), (.text "None", .int (-1))]
    ofDocument {} "<memory>" (seeded {}).toDocument = .ok (seeded {}) ∧
      v.IsTree ∧
      ∃ t, Tree.ofValue "alice" v = .ok t ∧ t.toValue = .record [
        (".", .int 1), ("None", .int (-1)), ("a", .record [("*", .int 1), ("x", .int 5)])] := by
  intro v
  have hread := stored_form.1 (seeded {}) {} "<memory>" (wellFormed_seeded {})
  let t : Tree := { root := {
    own := some .read
    children := [
      ("None", .leaf .revoked), ("a", .branch none (some .read) [("x", .leaf .grant)])] } }
  have ht : Tree.ofValue "alice" v = .ok t := rfl
  have hwritten : t.toValue = v.canonicalTree := (stored_form.2 "alice" v).2 t ht
  refine ⟨hread, (stored_form.2 "alice" v).1.1 ⟨t, ht⟩, t, ht, hwritten.trans ?_⟩
  rfl

/-! ### Whatever is read -/

theorem wellFormed_of_treesOfValue (trees : Entries String Tree) {trees' : Entries String Tree}
    {es : List (Scalar × Value)} (hdistinct : (Entries.keys trees).Nodup)
    (hwf : ∀ e ∈ trees, e.2.WellFormed) (h : treesOfValue trees es = .ok trees') :
    (Entries.keys trees').Nodup ∧ ∀ e ∈ trees', e.2.WellFormed := by
  induction es generalizing trees with
  | nil =>
    obtain rfl : trees = trees' := Except.ok.inj h
    exact ⟨hdistinct, hwf⟩
  | cons e es ih =>
    obtain ⟨key, v⟩ := e
    rw [treesOfValue] at h
    obtain ⟨t, ht, h⟩ := exists_of_bind_eq_ok h
    refine ih _ (Entries.nodup_keys_set hdistinct key.plain t) (fun e he ↦ ?_) h
    rcases Entries.mem_set he with heq | he
    · rw [heq]
      exact Tree.wellFormed_of_ofValue ht
    · exact hwf e he

theorem wellFormed_of_ofValue {v : Value} (h : ofValue rules v = .ok db) :
    db.WellFormed ∧ db.rules = rules := by
  unfold ofValue at h
  split at h
  · split at h <;> rename_i htrees
    · obtain rfl := Except.ok.inj h
      obtain ⟨hdistinct, hwf⟩ := wellFormed_of_treesOfValue [] List.nodup_nil
        (List.forall_mem_nil _) htrees
      exact ⟨⟨hdistinct, treeOf_of_forall (P := Tree.WellFormed) wellFormed_empty hwf⟩, rfl⟩
    · cases h
  · cases h

/-- **Every database that is read is well formed**, and has the rules of the reader. -/
theorem wellFormed_of_ofDocument {document : Value}
    (h : ofDocument rules source document = .ok db) : db.WellFormed ∧ db.rules = rules := by
  unfold ofDocument at h
  split at h
  · split at h <;> rename_i hmapping
    · obtain rfl := Except.ok.inj h
      unfold ofMapping at hmapping
      dsimp only at hmapping
      split at hmapping
      · cases hmapping
      · split at hmapping <;> rename_i hvalue
        · obtain rfl := Except.ok.inj hmapping
          exact wellFormed_of_ofValue hvalue
        · cases hmapping
    · cases h
  · cases h

end Database

namespace Store

variable {store : Store} {db : Database}

/-- What a store gives back is well formed, with the rules of the store. -/
theorem wellFormed_of_load (h : store.load = .ok (some db)) :
    db.WellFormed ∧ db.rules = store.rules := by
  unfold load at h
  split at h
  · exact nomatch h
  · obtain ⟨db', hdb', heq⟩ := exists_of_map_eq_ok h
    obtain rfl := Option.some.inj heq
    exact Database.wellFormed_of_ofDocument hdb'

/-- **A store gives back the database whose document it holds**, if it has the rules of that database. -/
theorem load_of_document (hdb : db.WellFormed) (hrules : db.rules = store.rules)
    (hdocument : store.document = some db.toDocument) : store.load = .ok (some db) := by
  have hread := hdb.ofDocument_toDocument store.rules store.source
  rw [← hrules] at hread
  rw [load, hdocument]
  dsimp only
  rw [← hrules, hread]
  rfl

end Store

end PathAccess
