import Mathlib
import PathAccess.Audit.Log
import PathAccess.Proofs.Path
/-!
# Reading the audit log

A log is a text, and its lines may hold anything. What is in the log is the values of those lines that hold
JSON, in order, whatever ends the lines (`AuditLog.records_ofText`). Blank lines and lines that are no JSON are
passed over.

A search asks for fields, and only a record has any. So a search is answered from all lines that hold a record,
unless a line holds JSON of another kind: then the first such line makes it fail (`AuditLog.search_eq`). Such a
line is counted and listed too, so all answers are those from the records exactly if there is none
(`AuditLog.answersFrom_records_iff`).
-/

namespace PathAccess

namespace Text

variable {c : Char}

/-! ### Texts that begin with a part -/

/-- What is collected already goes before the first part. -/
theorem exists_splitAt_go_eq_cons (c : Char) (cs : List Char) :
    ∃ piece pieces, ∀ part, splitAt.go c part cs = (part.reverse ++ piece) :: pieces := by
  induction cs with
  | nil => exact ⟨[], [], fun part ↦ by rw [splitAt.go, List.append_nil]⟩
  | cons d cs ih =>
    obtain ⟨piece, pieces, hgo⟩ := ih
    by_cases hd : d = c
    · exact ⟨[], splitAt.go c [] cs, fun part ↦ by
        rw [splitAt.go, if_pos (by simpa using hd), List.append_nil]⟩
    · exact ⟨d :: piece, pieces, fun part ↦ by
        rw [splitAt.go, if_neg (by simpa using hd), hgo]
        simp⟩

theorem splitAt_go_append_of_notMem {cs : List Char} (h : c ∉ cs) (part rest : List Char) :
    splitAt.go c part (cs ++ rest) = splitAt.go c (cs.reverse ++ part) rest := by
  induction cs generalizing part with
  | nil => rfl
  | cons d cs ih =>
    obtain ⟨hd, hcs⟩ : d ≠ c ∧ c ∉ cs := by simpa [eq_comm] using h
    rw [List.cons_append, splitAt.go, if_neg (by simpa using hd), ih hcs]
    simp

theorem splitAt_of_notMem {s : String} (h : c ∉ s.toList) : splitAt c s = [s] := by
  rw [splitAt, splitAt_go_of_notMem h]
  simp

theorem splitAt_append_singleton {s : String} (h : c ∉ s.toList) (t : String) :
    splitAt c (s ++ String.singleton c ++ t) = s :: splitAt c t := by
  have hlist : (s ++ String.singleton c ++ t).toList = s.toList ++ c :: t.toList := by simp
  rw [splitAt, hlist, splitAt_go_append h]
  simp [splitAt]

/-- A text without the separator goes before the first part of what follows. -/
theorem exists_splitAt_append {s : String} (h : c ∉ s.toList) (t : String) :
    ∃ piece pieces, splitAt c t = piece :: pieces ∧ splitAt c (s ++ t) = (s ++ piece) :: pieces := by
  obtain ⟨piece, pieces, hgo⟩ := exists_splitAt_go_eq_cons c t.toList
  refine ⟨String.ofList piece, pieces.map String.ofList, ?_, ?_⟩
  · rw [splitAt, hgo]
    rfl
  · rw [splitAt, String.toList_append, splitAt_go_append_of_notMem h, hgo]
    simp [String.ofList_append]

end Text

/-! ### Lines -/

/-- A line of a text: nothing in it ends a line. -/
structure IsLine (line : String) : Prop where
  /-- It holds no line feed. -/
  lineFeed_notMem : '\n' ∉ line.toList
  /-- It holds no carriage return. -/
  return_notMem : '\r' ∉ line.toList

instance (line : String) : Decidable (IsLine line) :=
  decidable_of_iff ('\n' ∉ line.toList ∧ '\r' ∉ line.toList)
    ⟨fun ⟨hfeed, hreturn⟩ ↦ ⟨hfeed, hreturn⟩, fun h ↦ ⟨h.lineFeed_notMem, h.return_notMem⟩⟩

/-- What ends a line: a line feed, a carriage return, or both. -/
def lineEnds : List String := ["\n", "\r", "\r\n"]

/-- The text of lines, each with its end, and of a last one that has none. -/
def textOfLines : List (String × String) → String → String
  | [], last => last
  | (line, ending) :: lines, last => line ++ ending ++ textOfLines lines last

variable {line : String}

theorem textLines_of_isLine (h : IsLine line) : textLines line = [line] := by
  rw [textLines, Text.splitAt_of_notMem h.lineFeed_notMem, List.flatMap_singleton,
    Text.splitAt_of_notMem h.return_notMem]

theorem textLines_append_lineFeed (h : IsLine line) (rest : String) :
    textLines (line ++ "\n" ++ rest) = line :: textLines rest := by
  have hsplit : Text.splitAt '\n' (line ++ "\n" ++ rest) = line :: Text.splitAt '\n' rest :=
    Text.splitAt_append_singleton h.lineFeed_notMem rest
  rw [textLines, hsplit, List.flatMap_cons, Text.splitAt_of_notMem h.return_notMem]
  rfl

theorem textLines_append_return (h : IsLine line) (rest : String) :
    textLines (line ++ "\r" ++ rest) = line :: textLines rest := by
  -- The line and its end stand before the first line feed of what follows.
  have hfeed : '\n' ∉ (line ++ "\r").toList := by simpa using h.lineFeed_notMem
  obtain ⟨piece, pieces, hrest, happend⟩ := Text.exists_splitAt_append hfeed rest
  have hsplit : Text.splitAt '\r' (line ++ "\r" ++ piece) = line :: Text.splitAt '\r' piece :=
    Text.splitAt_append_singleton h.return_notMem piece
  rw [textLines, textLines, happend, hrest, List.flatMap_cons, hsplit]
  rfl

/-! ### What is in a log -/

/-- The value of a line, if it holds JSON. -/
def lineValue? (line : String) : Option Value :=
  if (Text.strip line).isEmpty then none else Json.read? (Text.strip line)

/-- Whether a value is a record. -/
def Value.isRecord : Value → Bool
  | map _ => true
  | _ => false

theorem lineValue?_of_strip_eq (hstrip : Text.strip line = line) (hne : line ≠ "") :
    lineValue? line = Json.read? line := by
  rw [lineValue?, hstrip, if_neg (by simpa [String.isEmpty_iff] using hne)]

/-- The record of a line, if it holds one. -/
def lineRecord? (line : String) : Option Value :=
  (lineValue? line).filter (·.isRecord)

theorem filterMap_lineRecord? (lines : List String) :
    lines.filterMap lineRecord? = (lines.filterMap lineValue?).filter (·.isRecord) :=
  List.filter_filterMap.symm

namespace AuditLog

theorem records_ofText_eq (s : String) : (ofText s).records = (textLines s).filterMap lineValue? := rfl

theorem records_ofText_append (h : IsLine line) {ending : String} (hending : ending ∈ lineEnds)
    (rest : String) :
    (ofText (line ++ ending ++ rest)).records = [line].filterMap lineValue? ++ (ofText rest).records := by
  rw [records_ofText_eq, records_ofText_eq, ← List.filterMap_append, List.singleton_append]
  simp only [lineEnds, List.mem_cons, List.not_mem_nil, or_false] at hending
  rcases hending with rfl | rfl | rfl
  · rw [textLines_append_lineFeed h]
  · rw [textLines_append_return h]
  · -- Between the two characters there is an empty line.
    have hempty : textLines ("" ++ "\n" ++ rest) = "" :: textLines rest :=
      textLines_append_lineFeed (by decide) rest
    have hlines : textLines (line ++ "\r\n" ++ rest) = line :: "" :: textLines rest := by
      rw [← hempty, ← textLines_append_return h]
      congr 1
      rw [← String.toList_inj]
      simp
    have hnone : lineValue? "" = none := rfl
    rw [hlines, List.filterMap_cons, List.filterMap_cons, List.filterMap_cons, hnone]

/-- **A log holds the values of its lines**, in order, whatever ends them. -/
theorem records_ofText {lines : List (String × String)} {last : String}
    (hlines : ∀ l ∈ lines, IsLine l.1 ∧ l.2 ∈ lineEnds) (hlast : IsLine last) :
    (ofText (textOfLines lines last)).records = (lines.map (·.1) ++ [last]).filterMap lineValue? := by
  induction lines with
  | nil => rw [textOfLines, records_ofText_eq, textLines_of_isLine hlast, List.map_nil, List.nil_append]
  | cons l lines ih =>
    obtain ⟨⟨hline, hending⟩, hrest⟩ := List.forall_mem_cons.1 hlines
    rw [textOfLines, records_ofText_append hline hending, ih hrest, ← List.filterMap_append]
    rfl

/-! ### Searches -/

variable (l : AuditLog)

/-- A search goes on as long as its test can be made, and fails with the first value of which it cannot. -/
theorem filterAuxM_eq {test : Value → Except SearchError Bool} {testable p : Value → Bool}
    (hok : ∀ r, testable r = true → test r = .ok (p r))
    (herror : ∀ r, testable r = false → test r = .error ⟨r.kindName⟩) (rs acc : List Value) :
    rs.filterAuxM test acc =
      match rs.find? (!testable ·) with
      | some r => .error ⟨r.kindName⟩
      | none => .ok ((rs.filter p).reverse ++ acc) := by
  induction rs generalizing acc with
  | nil => rfl
  | cons r rs ih =>
    rw [List.filterAuxM, List.find?_cons]
    cases htestable : testable r with
    | false =>
      rw [herror r htestable]
      rfl
    | true =>
      rw [hok r htestable]
      refine (ih _).trans ?_
      cases hp : p r <;> simp [hp]

/-- **A search is answered from all values or fails at the first of which its test cannot be made.** -/
theorem search_eq {test : Value → Except SearchError Bool} {testable p : Value → Bool}
    (hok : ∀ r, testable r = true → test r = .ok (p r))
    (herror : ∀ r, testable r = false → test r = .error ⟨r.kindName⟩) :
    l.search test =
      match l.records.find? (!testable ·) with
      | some r => .error ⟨r.kindName⟩
      | none => .ok (l.records.filter p) := by
  rw [search, List.filterM, filterAuxM_eq hok herror]
  cases l.records.find? (!testable ·) with
  | some r => rfl
  | none =>
    rw [List.append_nil]
    exact congrArg Except.ok (List.reverse_reverse _)

/-- The records that satisfy a test, if nothing else is in the log; otherwise the error for the first value
that is none. -/
def found (p : Value → Bool) : Except SearchError (List Value) :=
  match l.records.find? (!·.isRecord) with
  | some r => .error ⟨r.kindName⟩
  | none => .ok (l.records.filter p)

theorem found_of_forall {p : Value → Bool} (h : ∀ r ∈ l.records, r.isRecord) :
    l.found p = .ok (l.records.filter p) := by
  have hnone : l.records.find? (!·.isRecord) = none := by simpa using h
  rw [found, hnone]

theorem found_of_find? {p : Value → Bool} {r : Value} (h : l.records.find? (!·.isRecord) = some r) :
    l.found p = .error ⟨r.kindName⟩ := by
  rw [found, h]

/-! ### What is asked of records -/

/-- The field of a value, absent if there is none. -/
def fieldValue (name : String) (r : Value) : Value :=
  (r.field? name).getD .null

/-- Whether a record has the given values in its fields. -/
def hasAll (fields : List (String × Value)) (r : Value) : Bool :=
  fields.all fun f ↦ (fieldValue f.1 r).equal f.2

/-- Whether a record tells of a principal, as the subject or the actor. -/
def tellsOf (name : String) (r : Value) : Bool :=
  (fieldValue "principal" r).equal (.text name) || (fieldValue "actor" r).equal (.text name)

/-- Whether a record has the path in a text or one below it. -/
def liesBelow (prefixPath : String) (r : Value) : Bool :=
  match fieldValue "path" r with
  | .scalar (.text path) => isAtOrBelow ("/" ++ Text.stripChar '/' prefixPath) path
  | _ => false

theorem fieldOf_of_isRecord {r : Value} (h : r.isRecord) (name : String) :
    fieldOf name r = .ok (fieldValue name r) := by
  cases r with
  | map es => rfl
  | scalar | list => cases h

theorem fieldOf_of_not_isRecord {r : Value} (h : r.isRecord = false) (name : String) :
    fieldOf name r = .error ⟨r.kindName⟩ := by
  cases r with
  | map es => cases h
  | scalar | list => rfl

theorem hasFields_of_isRecord {r : Value} (h : r.isRecord) (fields : List (String × Value)) :
    hasFields r fields = .ok (hasAll fields r) := by
  induction fields with
  | nil => rfl
  | cons f fields ih =>
    obtain ⟨name, v⟩ := f
    rw [hasFields, fieldOf_of_isRecord h]
    change (if (fieldValue name r).equal v = true then hasFields r fields else .ok false) = _
    rw [ih]
    cases heq : (fieldValue name r).equal v <;> simp [hasAll, heq]

theorem query_eq_found {fields : List (String × Value)} (h : fields ≠ []) :
    l.query fields = l.found (hasAll fields) := by
  refine l.search_eq (fun r hr ↦ hasFields_of_isRecord hr fields) fun r hr ↦ ?_
  obtain ⟨⟨name, v⟩, fields, rfl⟩ := List.exists_cons_of_ne_nil h
  rw [hasFields, fieldOf_of_not_isRecord hr]
  rfl

/-- Where no field is asked for, everything is found, records or not. -/
theorem query_nil : l.query [] = .ok l.records := by
  have hsearch : l.query [] =
      match l.records.find? (fun _ ↦ !true) with
      | some r => .error ⟨r.kindName⟩
      | none => .ok (l.records.filter fun _ ↦ true) :=
    l.search_eq (fun _ _ ↦ rfl) fun _ h ↦ nomatch h
  have hnone : l.records.find? (fun _ ↦ !true) = none := by simp
  have hall : l.records.filter (fun _ ↦ true) = l.records := by simp
  rw [hsearch, hnone, hall]

theorem byPrincipal_eq_found (name : String) : l.byPrincipal name = l.found (tellsOf name) := by
  refine l.search_eq (fun r hr ↦ ?_) fun r hr ↦ ?_
  · rw [fieldOf_of_isRecord hr, fieldOf_of_isRecord hr]
    rfl
  · rw [fieldOf_of_not_isRecord hr]
    rfl

theorem byPath_eq_found (prefixPath : String) : l.byPath prefixPath = l.found (liesBelow prefixPath) := by
  refine l.search_eq (fun r hr ↦ ?_) fun r hr ↦ ?_
  · rw [fieldOf_of_isRecord hr, liesBelow]
    change (match fieldValue "path" r with
      | .scalar (.text path) => _
      | _ => _) = _
    split <;> rfl
  · rw [fieldOf_of_not_isRecord hr]
    rfl

/-! ### Answers -/

/-- All that is asked of a log is answered from the given records. -/
structure AnswersFrom (l : AuditLog) (records : List Value) : Prop where
  /-- They are what is listed. -/
  records_eq : l.records = records
  /-- They are counted. -/
  count_eq : l.count = records.length
  /-- The last of them are the most recent ones. -/
  last_eq : ∀ n, l.last n = records.drop (records.length - n.toNat)
  /-- They are searched for values in fields. -/
  query_eq : ∀ fields, l.query fields = .ok (records.filter (hasAll fields))
  /-- They are searched for a kind of event. -/
  byEvent_eq : ∀ kind, l.byEvent kind = .ok (records.filter (hasAll [("event", .text kind)]))
  /-- They are searched for a principal. -/
  byPrincipal_eq : ∀ name, l.byPrincipal name = .ok (records.filter (tellsOf name))
  /-- They are searched for a path. -/
  byPath_eq : ∀ path, l.byPath path = .ok (records.filter (liesBelow path))

/-- All searches that ask for a field fail at a value, which is listed and counted. -/
structure StopsAt (l : AuditLog) (r : Value) : Prop where
  /-- It is listed. -/
  mem_records : r ∈ l.records
  /-- The search for values in fields fails. -/
  query_eq : ∀ fields, fields ≠ [] → l.query fields = .error ⟨r.kindName⟩
  /-- The search for a kind of event fails. -/
  byEvent_eq : ∀ kind, l.byEvent kind = .error ⟨r.kindName⟩
  /-- The search for a principal fails. -/
  byPrincipal_eq : ∀ name, l.byPrincipal name = .error ⟨r.kindName⟩
  /-- The search for a path fails. -/
  byPath_eq : ∀ path, l.byPath path = .error ⟨r.kindName⟩

variable {l}

theorem answersFrom_of_forall (h : ∀ r ∈ l.records, r.isRecord) : l.AnswersFrom l.records where
  records_eq := rfl
  count_eq := rfl
  last_eq := fun _ ↦ rfl
  query_eq := fun fields ↦ by
    by_cases hfields : fields = []
    · have hall : l.records.filter (hasAll []) = l.records := List.filter_eq_self.2 fun _ _ ↦ rfl
      rw [hfields, query_nil, hall]
    · rw [l.query_eq_found hfields, l.found_of_forall h]
  byEvent_eq := fun kind ↦ by
    rw [byEvent, l.query_eq_found (List.cons_ne_nil _ _), l.found_of_forall h]
  byPrincipal_eq := fun name ↦ by rw [l.byPrincipal_eq_found, l.found_of_forall h]
  byPath_eq := fun path ↦ by rw [l.byPath_eq_found, l.found_of_forall h]

theorem stopsAt_of_find? {r : Value} (h : l.records.find? (!·.isRecord) = some r) : l.StopsAt r where
  mem_records := List.mem_of_find?_eq_some h
  query_eq := fun fields hfields ↦ by rw [l.query_eq_found hfields, l.found_of_find? h]
  byEvent_eq := fun kind ↦ by
    rw [byEvent, l.query_eq_found (List.cons_ne_nil _ _), l.found_of_find? h]
  byPrincipal_eq := fun name ↦ by rw [l.byPrincipal_eq_found, l.found_of_find? h]
  byPath_eq := fun path ↦ by rw [l.byPath_eq_found, l.found_of_find? h]

/-- **A log answers from its records** exactly if no line holds JSON that is none. Where one does, what is
listed are the values of all lines, and the searches stop at the first that is no record. -/
theorem answersFrom_records_iff {lines : List (String × String)} {last : String}
    (hlines : ∀ l ∈ lines, IsLine l.1 ∧ l.2 ∈ lineEnds) (hlast : IsLine last) :
    let texts := lines.map (·.1) ++ [last]
    let l := ofText (textOfLines lines last)
    (l.AnswersFrom (texts.filterMap lineRecord?) ↔ ∀ text ∈ texts, ∀ r ∈ lineValue? text, r.isRecord) ∧
      l.records = texts.filterMap lineValue? ∧
      ∀ r, (texts.filterMap lineValue?).find? (!·.isRecord) = some r → l.StopsAt r := by
  intro texts l
  have hrecords : l.records = texts.filterMap lineValue? := records_ofText hlines hlast
  have hfilter : texts.filterMap lineRecord? = l.records.filter (·.isRecord) := by
    rw [hrecords, filterMap_lineRecord?]
  refine ⟨⟨fun h text htext r hr ↦ ?_, fun h ↦ ?_⟩, hrecords, fun r hr ↦ stopsAt_of_find? (hrecords ▸ hr)⟩
  · -- What is listed is filtered, so it has passed the filter.
    have hmem : r ∈ l.records := hrecords ▸ List.mem_filterMap.2 ⟨text, htext, hr⟩
    rw [h.records_eq, hfilter] at hmem
    exact (List.mem_filter.1 hmem).2
  · have hall : ∀ r ∈ l.records, r.isRecord := by
      intro r hr
      rw [hrecords] at hr
      obtain ⟨text, htext, hvalue⟩ := List.mem_filterMap.1 hr
      exact h text htext r hvalue
    rw [hfilter, List.filter_eq_self.2 hall]
    exact answersFrom_of_forall hall

/-- Two records, with a line that is no JSON and a blank one in between, and all ends that lines can have. -/
theorem answersFrom_records_iff_skipping :
    let lines := [("\x7b\"event\": \"access_denied\"\x7d", "\n"), ("\x7bnot json", "\r\n"), (" ", "\r")]
    let last := "\x7b\"event\": \"access_reset\"\x7d"
    (∀ l ∈ lines, IsLine l.1 ∧ l.2 ∈ lineEnds) ∧ IsLine last ∧
      (ofText (textOfLines lines last)).AnswersFrom
        [.record [("event", .text "access_denied")], .record [("event", .text "access_reset")]] := by
  intro lines last
  have hlines : ∀ l ∈ lines, IsLine l.1 ∧ l.2 ∈ lineEnds := by decide
  have hlast : IsLine last := by decide
  have hdenied : lineValue? "\x7b\"event\": \"access_denied\"\x7d" =
      some (.record [("event", .text "access_denied")]) := by
    rw [lineValue?_of_strip_eq (by decide) (by decide)]
    cbv
  have hbroken : lineValue? "\x7bnot json" = none := by
    rw [lineValue?_of_strip_eq (by decide) (by decide)]
    rfl
  have hblank : lineValue? " " = none := rfl
  have hreset : lineValue? last = some (.record [("event", .text "access_reset")]) := by
    rw [lineValue?_of_strip_eq (by decide) (by decide)]
    cbv
  have htexts : lines.map (·.1) ++ [last] =
      ["\x7b\"event\": \"access_denied\"\x7d", "\x7bnot json", " ", last] := rfl
  have hanswers := (answersFrom_records_iff hlines hlast).1
  rw [htexts, filterMap_lineRecord?, List.filterMap_cons_some hdenied, List.filterMap_cons_none hbroken,
    List.filterMap_cons_none hblank, List.filterMap_cons_some hreset, List.filterMap_nil] at hanswers
  refine ⟨hlines, hlast, hanswers.2 ?_⟩
  simp [hdenied, hbroken, hblank, hreset, Value.isRecord, Value.record]

/-- A line with a number is counted, and no search finds the record in the other line. -/
theorem number_counted_and_searches_stopped :
    let lines := ["5", "\x7b\"event\": \"access_reset\"\x7d"]
    let l := ofText (textOfLines (lines.map (·, "\n")) "")
    lines.filterMap lineRecord? = [.record [("event", .text "access_reset")]] ∧ l.count = 2 ∧
      l.byEvent "access_reset" = .error ⟨"int"⟩ ∧ l.byPath "/" = .error ⟨"int"⟩ := by
  intro lines l
  have hnumber : lineValue? "5" = some (.int 5) := rfl
  have hreset : lineValue? "\x7b\"event\": \"access_reset\"\x7d" =
      some (.record [("event", .text "access_reset")]) := by
    rw [lineValue?_of_strip_eq (by decide) (by decide)]
    cbv
  have hempty : lineValue? "" = none := rfl
  have hvalues : lines.filterMap lineValue? = [.int 5, .record [("event", .text "access_reset")]] := by
    rw [List.filterMap_cons_some hnumber, List.filterMap_cons_some hreset, List.filterMap_nil]
  have htexts : (lines.map (·, "\n")).map (·.1) = lines := rfl
  have hrecords : l.records = [.int 5, .record [("event", .text "access_reset")]] := by
    rw [records_ofText (by decide) (by decide), htexts, List.filterMap_append, hvalues,
      List.filterMap_cons_none hempty, List.filterMap_nil, List.append_nil]
  have hstops : l.StopsAt (.int 5) := stopsAt_of_find? (by rw [hrecords]; rfl)
  refine ⟨?_, ?_, hstops.byEvent_eq _, hstops.byPath_eq _⟩
  · rw [filterMap_lineRecord?, hvalues]
    rfl
  · rw [count, hrecords]
    rfl

end AuditLog

end PathAccess
