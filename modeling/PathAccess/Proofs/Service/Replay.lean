import Mathlib.Data.List.Forall2
import PathAccess.Proofs.Service.Decisions
/-!
# The audit trail tells the trees of players

Every change to the paths of a player is recorded, once and in order, and nothing is recorded that did not
come about. So whoever has the trees that the players began with can do without the database: the records
of a player are replayed on its tree, and what comes out is the tree that the player has now
(`root_eq_replay`). This holds whether the changes could be saved or not.

A record is read by its words. The path is the text of the segments with slashes in between, and can be
split again because no segment holds a slash or is empty. The level is the word of its grade.

Memberships are not told by the trail, but they are no part of the paths, and pruning them does not change
any.
-/

namespace PathAccess

/-- Whom an event is about. -/
def AuditEvent.principal : AuditEvent → String
  | denied principal .. => principal
  | granted _ principal .. => principal
  | removed _ principal _ => principal
  | reset _ principal _ => principal

/-- The denials of a player are kept. -/
theorem AuditEvent.isKept_denied {rules : PrincipalRules} {principal path : String}
    {required actual : Level} (h : rules.isPlayer principal) :
    (denied principal path required actual).isKept rules := by
  change !rules.isFake principal
  cases hfake : rules.isFake principal with
  | false => rfl
  | true => simp [PrincipalRules.isPlayer, PrincipalRules.kindOf, hfake] at h

/-- Whether records are those of some events, written one after the other at any time in any session. -/
def Written (records : List (Entries String Value)) (events : List AuditEvent) : Prop :=
  List.Forall₂ (fun record e ↦ ∃ now session, record = AuditEvent.record now session e) records events

theorem written_map (now session : String) (events : List AuditEvent) :
    Written (events.map (AuditEvent.record now session)) events := by
  rw [Written, List.forall₂_map_left_iff, List.forall₂_same]
  exact fun e _ ↦ ⟨now, session, rfl⟩

/-! ### Reading records -/

/-- The grade that a word stands for in records. -/
def Grade.ofName? (word : String) : Option Grade :=
  all.find? (·.name == word)

/-- The segments of a recorded path. -/
def Path.splitSegments (path : String) : List String :=
  (Text.splitAt '/' path).filter (!·.isEmpty)

/-- The text in a field of a record. -/
def recordText? (record : Entries String Value) (field : String) : Option String :=
  match Entries.find? record field with
  | some (.scalar (.text s)) => some s
  | _ => none

/-- The paths of a tree after the change that a record tells of. Other records change nothing. -/
def replayRecord (root : Branch) (record : Entries String Value) : Branch :=
  match recordText? record "event", recordText? record "path" with
  | some "access_granted", some path =>
    match (recordText? record "level").bind Grade.ofName? with
    | some g => (Tree.grant { root } (Path.splitSegments path) g).root
    | none => root
  | some "access_removed", some path => (Tree.revoke { root } (Path.splitSegments path)).2.root
  | some "access_reset", _ => {}
  | _, _ => root

/-- The paths of a principal's tree after the changes that the records of that name tell of. -/
def replay (name : String) (records : List (Entries String Value)) (root : Branch) : Branch :=
  (records.filter (recordText? · "principal" == some name)).foldl replayRecord root

theorem Grade.ofName?_name (g : Grade) : ofName? g.name = some g := by
  cases g <;> rfl

/-- **A recorded path is split into the segments** that it was made of. -/
theorem Path.splitSegments_render {segments : List String}
    (h : ∀ name ∈ segments, IsSegment name) : splitSegments (render segments) = segments := by
  have hkept : segments.filter (!·.isEmpty) = segments := by
    refine List.filter_eq_self.2 fun name hname ↦ ?_
    simpa using (h name hname).ne_empty
  rw [splitSegments, Resolver.splitAt_render h]
  split <;> rename_i hroot
  · rw [hroot]
    rfl
  · exact hkept

section Records

variable (now session : String)

theorem recordText?_principal (e : AuditEvent) :
    recordText? (e.record now session) "principal" = some e.principal := by
  cases e <;> rfl

variable (root : Branch)

theorem replayRecord_denied (principal path : String) (required actual : Level) :
    replayRecord root ((AuditEvent.denied principal path required actual).record now session) =
      root :=
  rfl

theorem replayRecord_granted (actor principal : String) {segments : List String}
    (h : ∀ name ∈ segments, Path.IsSegment name) (g : Grade) :
    replayRecord root
        ((AuditEvent.granted actor principal (Path.render segments) g).record now session) =
      (Tree.grant { root } segments g).root := by
  have hgrade := g.ofName?_name
  have hsegments := Path.splitSegments_render h
  change (match (some g.name).bind Grade.ofName? with
    | some g => (Tree.grant { root } (Path.splitSegments (Path.render segments)) g).root
    | none => root) = _
  rw [Option.bind_some, hgrade, hsegments]

theorem replayRecord_removed (actor principal : String) {segments : List String}
    (h : ∀ name ∈ segments, Path.IsSegment name) :
    replayRecord root
        ((AuditEvent.removed actor principal (Path.render segments)).record now session) =
      (Tree.revoke { root } segments).2.root := by
  have hsegments := Path.splitSegments_render h
  change (Tree.revoke { root } (Path.splitSegments (Path.render segments))).2.root = _
  rw [hsegments]

theorem replayRecord_reset (actor principal : String) (previous : Option Value) :
    replayRecord root ((AuditEvent.reset actor principal previous).record now session) = {} :=
  rfl

end Records

theorem replay_append (name : String) (records records' : List (Entries String Value))
    (root : Branch) :
    replay name (records ++ records') root = replay name records' (replay name records root) := by
  rw [replay, List.filter_append, List.foldl_append]
  rfl

/-- The record of one event changes the tree that the event is about. -/
theorem replay_singleton (name : String) (e : AuditEvent) (now session : String) (root : Branch) :
    replay name [e.record now session] root =
      if e.principal = name then replayRecord root (e.record now session) else root := by
  have hprincipal := recordText?_principal now session e
  rw [replay, List.filter_singleton, hprincipal]
  split <;> rename_i hname
  · simp [hname]
  · have hother : (e.principal == name) = false := by simpa using hname
    simp [hother]

/-! ### What an event tells of roots -/

namespace Database

variable {db db' : Database} {e : AuditEvent} {name : String}

/-- **The record of a change tells the change**, to whomever it is about. -/
theorem Told.root_treeOf (hdb : db.Distinct) (h : db.Told (some e) db')
    (hname : name ≠ defaultPrincipal) (now session : String) :
    (db'.treeOf name).root = replay name [e.record now session] (db.treeOf name).root := by
  rw [replay_singleton]
  cases h with
  | granted acting target names g =>
    rw [treeOf_set, replayRecord_granted _ _ _ _ _ names]
    by_cases htarget : name = target
    · subst htarget
      simp [AuditEvent.principal, Tree.grant]
    · simp [AuditEvent.principal, htarget, Ne.symm htarget]
  | removed acting target names left =>
    rw [treeOf_set, replayRecord_removed _ _ _ _ _ names]
    by_cases htarget : name = target
    · subst htarget
      simp [AuditEvent.principal, Tree.root_revoke]
    · simp [AuditEvent.principal, htarget, Ne.symm htarget]
  | principalRemoved acting target names empty =>
    rw [hdb.treeOf_remove, replayRecord_removed _ _ _ _ _ names]
    by_cases htarget : name = target
    · subst htarget
      have hroot := Tree.root_eq_of_isEmpty empty
      rw [Tree.root_revoke] at hroot
      simp [AuditEvent.principal, Tree.root_revoke, hroot]
    · simp [AuditEvent.principal, htarget, Ne.symm htarget]
  | restored acting previous =>
    rw [resetDefault, treeOf_set]
    simp [AuditEvent.principal, hname, hname.symm]
  | deleted acting previous other =>
    rename_i target
    rw [hdb.treeOf_remove, replayRecord_reset]
    by_cases htarget : name = target
    · simp [AuditEvent.principal, htarget]
    · simp [AuditEvent.principal, htarget, Ne.symm htarget]

/-- A change to the tree of a player is recorded. -/
theorem Told.isKept (h : db.Told (some e) db') {rules : PrincipalRules}
    (hplayer : rules.isPlayer e.principal) : e.isKept rules := by
  cases h with
  | granted => exact hplayer
  | removed => exact hplayer
  | principalRemoved => exact hplayer
  | restored => rfl
  | deleted => rfl

end Database

namespace Service

variable {s s' : Service}

/-! ### One request -/

/-- Whether what was recorded from one state of a service to a later one tells how the trees of players
have changed. -/
def TellsTrees (s s' : Service) : Prop :=
  ∃ events, s'.events = s.events ++ events ∧ ∀ records, Written records events →
    ∀ name, s.rules.isPlayer name → name ≠ defaultPrincipal →
      (s'.db.treeOf name).root = replay name records (s.db.treeOf name).root

/-- Where nothing is recorded, no root has changed. -/
theorem tellsTrees_of_roots (hevents : s'.events = s.events)
    (hroots : ∀ name, (s'.db.treeOf name).root = (s.db.treeOf name).root) : s.TellsTrees s' := by
  refine ⟨[], by rw [hevents, List.append_nil], fun records hwritten name _ _ ↦ ?_⟩
  obtain rfl := List.forall₂_nil_right_iff.1 hwritten
  exact hroots name

/-- One event is handed to the audit trail, which keeps it or not. -/
theorem tellsTrees_of_event {e : AuditEvent}
    (hevents : s'.events = s.events ++ [e].filter fun e ↦ s.auditRules.any (e.isKept ·))
    (haudit : s.auditRules = some s.rules)
    (hkept : s.rules.isPlayer e.principal → e.isKept s.rules)
    (hroots : ∀ name, name ≠ defaultPrincipal → ∀ now session, (s'.db.treeOf name).root =
      replay name [e.record now session] (s.db.treeOf name).root) : s.TellsTrees s' := by
  have hsame : (fun e ↦ s.auditRules.any (AuditEvent.isKept · e)) = AuditEvent.isKept s.rules := by
    rw [haudit]
    rfl
  rw [hsame, List.filter_singleton] at hevents
  refine ⟨_, hevents, fun records hwritten name hplayer hname ↦ ?_⟩
  cases hkeeps : e.isKept s.rules with
  | true =>
    rw [hkeeps] at hwritten
    obtain ⟨record, rest, ⟨now, session, rfl⟩, hrest, rfl⟩ := List.forall₂_cons_right_iff.1 hwritten
    obtain rfl := List.forall₂_nil_right_iff.1 hrest
    exact hroots name hname now session
  | false =>
    rw [hkeeps] at hwritten
    obtain rfl := List.forall₂_nil_right_iff.1 hwritten
    -- What is not kept is about someone else.
    have hother : e.principal ≠ name := by
      rintro rfl
      rw [hkept hplayer] at hkeeps
      exact nomatch hkeeps
    rw [hroots name hname "" "", replay_singleton, if_neg hother]
    rfl

/-- Nothing is recorded of lookups, and they change no root. -/
theorem tellsTrees_of_lookups (hdb : s.db.Distinct) {names : List String}
    (hend : s'.db = s.db.healedAll s.groupSources names) (hevents : s'.events = s.events) :
    s.TellsTrees s' := by
  refine tellsTrees_of_roots hevents fun name ↦ ?_
  rw [hend]
  exact hdb.root_treeOf_healedAll s.groupSources names name

section Courses

variable {α : Type} {k : Course α}

/-- A change is recorded once, if it is carried out. -/
theorem tellsTrees_of_decides (hdb : s.db.Distinct) (haudit : s.auditRules = some s.rules)
    {refused : α → Bool} (h : s.Decides refused k) : s.TellsTrees (s.run k.call).2 := by
  rcases db_events_run_call k s with ⟨names, hend, hevents⟩ | ⟨hend, hevents⟩
  · exact tellsTrees_of_lookups hdb hend hevents
  · cases h with
    | refused names refusal =>
      exact tellsTrees_of_lookups hdb hend (hevents.trans (List.append_nil _))
    | @carried names e db a accepted told =>
      have hhealed := hdb.healedAll s.groupSources names
      have hroots := hdb.root_treeOf_healedAll s.groupSources names
      cases e with
      | none =>
        -- Only a change of memberships has no event.
        obtain ⟨target, groups⟩ := told
        refine tellsTrees_of_roots (hevents.trans (List.append_nil _)) fun name ↦ ?_
        rw [hend]
        exact (hhealed.root_treeOf_setMemberships _ _ _).trans (hroots name)
      | some e =>
        refine tellsTrees_of_event hevents haudit told.isKept fun name hname now session ↦ ?_
        have hroot := told.root_treeOf hhealed hname now session
        rw [hroots] at hroot
        rw [hend]
        exact hroot

/-- A denial is recorded at most where something is only asked for, and it changes no tree. -/
theorem tellsTrees_of_asks (hdb : s.db.Distinct) (haudit : s.auditRules = some s.rules)
    (hnone : k.db = none) (hdenied : ∀ e ∈ k.event, ∃ principal path required actual,
      e = .denied principal path required actual) : s.TellsTrees (s.run k.call).2 := by
  rcases db_events_run_call k s with ⟨names, hend, hevents⟩ | ⟨hend, hevents⟩
  · exact tellsTrees_of_lookups hdb hend hevents
  · rw [hnone, Option.getD_none] at hend
    cases hevent : k.event with
    | none =>
      rw [hevent] at hevents
      exact tellsTrees_of_lookups hdb hend (hevents.trans (List.append_nil _))
    | some e =>
      obtain ⟨principal, path, required, actual, rfl⟩ := hdenied e hevent
      rw [hevent] at hevents
      refine tellsTrees_of_event hevents haudit AuditEvent.isKept_denied fun name _ now session ↦ ?_
      rw [hend, hdb.root_treeOf_healedAll, replay_singleton, replayRecord_denied, ite_self]

end Courses

/-- **Every request records what it does to players**, once, and nothing else of it. -/
theorem tellsTrees_perform (hdb : s.db.Distinct) (haudit : s.auditRules = some s.rules)
    (r : Request) : s.TellsTrees (r.perform s) := by
  rw [Request.perform_eq]
  cases hr : r.acting? with
  | some acting =>
    obtain ⟨k, hfollows, -, hdecides⟩ := r.decidesBy_call hdb (by rw [hr]; rfl)
    rw [hfollows.run_eq]
    exact tellsTrees_of_decides hdb haudit hdecides
  | none =>
    obtain ⟨k, hfollows, -, hnone, hdenied⟩ := r.asksBy_call hdb hr
    rw [hfollows.run_eq]
    exact tellsTrees_of_asks hdb haudit hnone hdenied

/-! ### Runs -/

/-- What a service can become without reloading, while its store begins to refuse saving and ceases to. -/
inductive Unreloaded (s : Service) : Service → Prop
  /-- Nothing happens. -/
  | refl : Unreloaded s s
  /-- A request is made, or the directories change. -/
  | act {s' : Service} {a : Action} (before : Unreloaded s s') (hreload : a.isReload = false) :
    Unreloaded s (a.perform s')
  /-- The store begins to refuse saving, or ceases to. -/
  | refuse {s' : Service} (before : Unreloaded s s') (fault : Option SaveError) :
    Unreloaded s { s' with store := s'.store.map fun store ↦ { store with fault } }

theorem TellsTrees.trans {s'' : Service} (h : s.TellsTrees s') (hrules : s'.rules = s.rules)
    (h' : s'.TellsTrees s'') : s.TellsTrees s'' := by
  obtain ⟨events, hevents, htells⟩ := h
  obtain ⟨events', hevents', htells'⟩ := h'
  refine ⟨events ++ events', by rw [hevents', hevents, List.append_assoc], ?_⟩
  intro records hwritten name hplayer hname
  have hfirst := List.forall₂_take_append records events events' hwritten
  have hrest := List.forall₂_drop_append records events events' hwritten
  have hroot := htells _ hfirst name hplayer hname
  have hroot' := htells' _ hrest name (by rwa [hrules]) hname
  rw [hroot', hroot, ← replay_append, List.take_append_drop]

/-- **What a run preserves**: the names are distinct, the rules are those of the audit trail, and what was
recorded tells the trees of players. -/
theorem Unreloaded.tellsTrees (hdb : s.db.Distinct) (haudit : s.auditRules = some s.rules)
    (h : s.Unreloaded s') :
    s'.db.Distinct ∧ s'.rules = s.rules ∧ s'.auditRules = some s.rules ∧ s.TellsTrees s' := by
  induction h with
  | refl => exact ⟨hdb, rfl, haudit, tellsTrees_of_roots rfl fun _ ↦ rfl⟩
  | @act s' a before hreload ih =>
    obtain ⟨hdb', hrules, haudit', htells⟩ := ih
    cases a with
    | request r =>
      have hsteps := r.steps_perform hdb'
      obtain ⟨store, events, heq⟩ := hsteps.sameBut
      have hrequest := s'.tellsTrees_perform hdb' (by rw [haudit', hrules]) r
      refine ⟨hsteps.distinct hdb', ?_, ?_, htells.trans hrules hrequest⟩
      · rw [Action.perform, heq]
        exact hrules
      · rw [Action.perform, heq]
        exact haudit'
    | reload => cases hreload
    | directories identity affiliations => exact ⟨hdb', hrules, haudit', htells⟩
  | refuse before fault ih => exact ih

/-- **The audit trail tells the trees of players.** A service records by its own rules, beginning with
nothing. Then at any time, and whether saving succeeded or not, the paths of a player's tree are those that
it began with, after the changes that the records of its name tell of in order. A player without a tree has
no paths. -/
theorem root_eq_replay (hdb : s.db.Distinct) (haudit : s.auditRules = some s.rules)
    (hempty : s.events = []) (h : s.Unreloaded s') {records : List (Entries String Value)}
    (hwritten : Written records s'.events) {name : String} (hplayer : s.rules.isPlayer name)
    (hname : name ≠ defaultPrincipal) :
    (s'.db.treeOf name).root = replay name records (s.db.treeOf name).root := by
  obtain ⟨-, -, -, events, hevents, htells⟩ := h.tellsTrees hdb haudit
  rw [hempty, List.nil_append] at hevents
  rw [hevents] at hwritten
  exact htells records hwritten name hplayer hname

/-- An entry is set and can be saved. Then the store refuses to save while another one is set and the first
is removed. The three records tell what is left. -/
theorem root_eq_replay_bob :
    let s : Service := {
      db := { trees := [("*", { root := { rest := some .read } })] }
      store := some {}
      identity := some { players := [("bob", {})] }
      auditRules := some {} }
    let granted : Action := .request (.grant "kralk" "bob" (.text "/tmp/x") (some .write) none)
    let grantedAgain : Action := .request (.grant "kralk" "bob" (.text "/log/y") (some .revoked) none)
    let removed : Action := .request (.grant "kralk" "bob" (.text "/tmp/x") none none)
    let saved := granted.perform s
    let refusing : Service :=
      { saved with store := saved.store.map fun store ↦ { store with fault := some .refused } }
    let s' := removed.perform (grantedAgain.perform refusing)
    s'.events.length = 3 ∧ (s'.db.treeOf "bob").levelAt ["log", "y"] = some .revoked ∧
      (s'.db.treeOf "bob").levelAt ["tmp", "x"] = none ∧
      (s'.db.treeOf "bob").root =
        replay "bob" (s'.events.map (AuditEvent.record "now" "session")) {} := by
  intro s granted grantedAgain removed saved refusing s'
  have hdb : s.db.Distinct := by
    unfold Database.Distinct
    decide
  have hsaved : s.Unreloaded saved := .act .refl rfl
  have hrefusing : s.Unreloaded refusing := hsaved.refuse (some .refused)
  have hrun : s.Unreloaded s' := .act (.act hrefusing rfl) rfl
  have hplayer : s.rules.isPlayer "bob" := by decide +kernel
  have hreplay := root_eq_replay hdb rfl rfl hrun (written_map "now" "session" s'.events) hplayer
    (by decide)
  exact ⟨by decide +kernel, by decide +kernel, by decide +kernel, hreplay⟩

end Service

end PathAccess
