import PathAccess.Proofs.Service.Courses
/-!
# What becomes of a request

Every request has a course, which its lookups begin. Those are known beforehand (`Request.lookups`): the
actor of a grant, the target of a grant or of a change of membership, and whoever is asked about.

A request that changes something then decides (`Request.decidesBy_call`). It is refused, and nothing more
comes of it. Or it is carried out, and then its event tells how the database that the lookups have left is
changed (`Database.Told`). A request that only asks changes nothing more, and records a denial at most
(`Request.asksBy_call`).
-/

namespace PathAccess

/-- What an event tells of a change: the database before it and the one after it. A change of memberships
is told by no event. -/
inductive Database.Told (db : Database) : Option AuditEvent → Database → Prop
  /-- The entry at a path is set. -/
  | granted (acting target : String) {segments : List String}
      (names : ∀ name ∈ segments, Path.IsSegment name) (g : Grade) :
      Told db (some (.granted acting target (Path.render segments) g))
        (db.set target ((db.treeOf target).grant segments g))
  /-- The entry at a path is removed, and something is left of the tree. -/
  | removed (acting target : String) {segments : List String}
      (names : ∀ name ∈ segments, Path.IsSegment name)
      (left : ((db.treeOf target).revoke segments).2.isEmpty = false) :
      Told db (some (.removed acting target (Path.render segments)))
        (db.set target ((db.treeOf target).revoke segments).2)
  /-- The entry at a path is removed, and with it the tree. -/
  | principalRemoved (acting target : String) {segments : List String}
      (names : ∀ name ∈ segments, Path.IsSegment name)
      (empty : ((db.treeOf target).revoke segments).2.isEmpty) :
      Told db (some (.removed acting target (Path.render segments))) (db.remove target)
  /-- The default tree is restored. -/
  | restored (acting : String) (previous : Option Value) :
      Told db (some (.reset acting defaultPrincipal previous)) db.resetDefault
  /-- Another tree is deleted. -/
  | deleted (acting : String) {target : String} (previous : Option Value)
      (other : target ≠ defaultPrincipal) :
      Told db (some (.reset acting target previous)) (db.remove target)
  /-- Memberships are replaced. -/
  | memberships (name : String) (groups : List String) :
      Told db none (db.setMemberships name groups)

namespace Service

variable {α β : Type} {s : Service}

/-! ### Changing -/

/-- How a change comes out: it is refused after some lookups, or the database that they leave is changed
as an event tells. -/
inductive Decides (s : Service) (refused : α → Bool) : Course α → Prop
  /-- The change is refused. -/
  | refused (names : List String) {a : α} (refusal : refused a) :
      Decides s refused { names, result := .ok a }
  /-- The change is carried out. -/
  | carried (names : List String) {e : Option AuditEvent} {db : Database} {a : α}
      (accepted : refused a = false) (told : (s.db.healedAll s.groupSources names).Told e db) :
      Decides s refused { names, db := some db, event := e, result := .ok a }

/-- Whether a call decides on a change after looking up the groups of some principals. -/
def DecidesBy (s : Service) (refused : α → Bool) (names : List String) (c : Call α) : Prop :=
  ∃ k, s.Follows c k ∧ k.names = names ∧ s.Decides refused k

section DecidesBy

variable {refused : α → Bool} {names : List String}

theorem decidesBy_refusal {a : α} (h : refused a) : s.DecidesBy refused [] (pure a) :=
  ⟨_, follows_pure a, rfl, .refused [] h⟩

theorem decidesBy_change {db : Database} {f : Service → Service} {e : AuditEvent} {a : α}
    (hf : ∀ store events, f { s with store, events } = { s with db, store, events })
    (h : refused a = false) (told : s.db.Told (some e) db) :
    s.DecidesBy refused [] (do modify f; Call.audit e; Call.persist; return a) :=
  ⟨_, follows_change hf e a, rfl, .carried [] h told⟩

theorem DecidesBy.get_bind {f : Service → Call α}
    (hf : ∀ store events, f { s with store, events } = f s) (h : s.DecidesBy refused names (f s)) :
    s.DecidesBy refused names (get >>= f) := by
  obtain ⟨k, hfollows, hnames, hdecides⟩ := h
  exact ⟨k, follows_get_bind hf hfollows, hnames, hdecides⟩

/-- Lookups may come before the change. -/
theorem DecidesBy.bind {refused : β → Bool} {c : Call α} {f : α → Call β} {a : α}
    {names' : List String} (hc : s.Follows c { names, result := .ok a })
    (h : ({ s with db := s.db.healedAll s.groupSources names } : Service).DecidesBy refused names'
      (f a)) : s.DecidesBy refused (names ++ names') (c >>= f) := by
  obtain ⟨k, hfollows, rfl, hdecides⟩ := h
  refine ⟨k.after names, hc.bind hfollows, rfl, ?_⟩
  cases hdecides with
  | refused names' refusal => exact .refused (names ++ names') refusal
  | carried names' accepted told =>
    have hdb := s.db.healedAll_append s.groupSources names names'
    refine .carried (names ++ names') accepted ?_
    rw [hdb]
    exact told

theorem DecidesBy.map {c : Call α} (refused : β → Bool) (f : α → β)
    (h : s.DecidesBy (fun a ↦ refused (f a)) names c) :
    s.DecidesBy refused names (do let a ← c; return f a) := by
  obtain ⟨k, hfollows, rfl, hdecides⟩ := h
  refine ⟨k.map f, hfollows.map f, rfl, ?_⟩
  cases hdecides with
  | refused names refusal => exact .refused names refusal
  | carried names accepted told => exact .carried names accepted told

end DecidesBy

/-- Whether a verdict is a refusal. -/
def isRefusal {ρ ο : Type} (verdict : Except ρ ο) : Bool :=
  !verdict.isOk

section Grant

variable {acting target : String} {segments : List String}

theorem decidesBy_removeEntry (hnames : ∀ name ∈ segments, Path.IsSegment name) :
    s.DecidesBy isRefusal [] (Call.removeEntry acting target segments (Path.render segments)) := by
  refine .get_bind (fun _ _ ↦ rfl) ?_
  rcases hfind : s.db.find? target with - | t
  · simp only [hfind]
    exact decidesBy_refusal rfl
  · have htree := s.db.treeOf_of_find? hfind
    rcases hrevoke : t.revoke segments with ⟨_ | _ | _, u⟩
    · simp only [hfind, hrevoke]
      exact decidesBy_refusal rfl
    · have hleft : ((s.db.treeOf target).revoke segments).2.isEmpty = false := by
        rw [htree, hrevoke]
        exact isEmpty_of_revoke_eq_removed hrevoke
      have htold : s.db.Told _ _ := .removed acting target hnames hleft
      rw [htree, hrevoke] at htold
      simp only [hfind, hrevoke]
      exact decidesBy_change (fun _ _ ↦ rfl) rfl htold
    · have hempty : ((s.db.treeOf target).revoke segments).2.isEmpty := by
        rw [htree, hrevoke]
        exact isEmpty_of_revoke_eq_principalRemoved hrevoke
      simp only [hfind, hrevoke]
      exact decidesBy_change (fun _ _ ↦ rfl) rfl (.principalRemoved acting target hnames hempty)

variable (target segments) in
theorem exists_follows_alreadyAtLevel (hdb : s.db.Distinct) (kind : PrincipalKind) (g : Grade) :
    ∃ b, s.Follows (Call.alreadyAtLevel target kind segments g)
      { names := readers target, result := .ok b } := by
  have hlevel := s.follows_evaluate target hdb segments
  by_cases hheld : (s.evaluation segments target).level != some g
  · refine ⟨false, hlevel.bind_ok ?_⟩
    simp only [hheld, if_true]
    exact follows_pure _
  · by_cases hkind : kind != .group
    · refine ⟨true, hlevel.bind_ok ?_⟩
      simp only [hheld, hkind, Bool.false_eq_true, if_false, if_true]
      exact follows_pure _
    · let db := s.db.healedAll s.groupSources (readers target)
      refine ⟨((db.find? target).bind (·.root.entry? segments)).any (·.isLeafOf g),
        hlevel.bind_ok ?_⟩
      simp only [hheld, hkind, Bool.false_eq_true, if_false]
      exact follows_get_bind (fun _ _ ↦ rfl) (follows_pure _)

theorem decidesBy_setEntry (hdb : s.db.Distinct)
    (hnames : ∀ name ∈ segments, Path.IsSegment name) (g : Grade) :
    s.DecidesBy isRefusal (readers target)
      (Call.setEntry acting target segments (Path.render segments) g) := by
  obtain ⟨b, halready⟩ := exists_follows_alreadyAtLevel target segments hdb (s.rules.kindOf target) g
  refine .get_bind (fun _ _ ↦ rfl) ?_
  -- The target's level is all that is looked up here.
  rw [← List.append_nil (readers target)]
  refine .bind halready ?_
  split
  · exact decidesBy_refusal rfl
  · refine .get_bind (fun _ _ ↦ rfl) ?_
    dsimp only
    split
    · exact decidesBy_refusal rfl
    · exact decidesBy_change (fun _ _ ↦ rfl) rfl (.granted acting target hnames g)

/-- The principals whose groups are looked up for a grant on a resolved path: the actor, if the path and
the target are in order, and then the target, if the actor may set an entry. -/
def grantLookups (s : Service) (acting target : String) (segments : List String) (level : Level) :
    List String :=
  let kind := s.rules.kindOf target
  let held := (s.evaluation (segments.filter (· != ownKey)) acting).level
  if (grantPathProblem? segments).isSome ||
      (kind != .group && !s.playerExists target && !(s.rules.isAdmin acting && kind == .fake)) then []
  else readers acting ++
    if level.isNone || (!Level.mayGrant held level && !s.rules.isAdmin acting) then []
    else readers target

theorem decidesBy_grantAt (hdb : s.db.Distinct)
    (hnames : ∀ name ∈ segments, Path.IsSegment name) (level : Level) :
    s.DecidesBy isRefusal (s.grantLookups acting target segments level)
      (Call.grantAt acting target segments level) := by
  rw [Call.grantAt, grantLookups]
  cases hproblem : grantPathProblem? segments with
  | some problem => exact decidesBy_refusal rfl
  | none =>
    refine .get_bind (fun _ _ ↦ rfl) ?_
    simp only [Option.isSome_none, Bool.false_or]
    split
    · exact decidesBy_refusal rfl
    · have hheld := s.follows_evaluate acting hdb (segments.filter (· != ownKey))
      refine .bind hheld ?_
      by_cases hbarred : !Level.mayGrant (s.evaluation (segments.filter (· != ownKey)) acting).level
          level && !s.rules.isAdmin acting
      · simp only [hbarred, Bool.or_true, if_true]
        exact decidesBy_refusal rfl
      · simp only [hbarred, Bool.or_false]
        cases level with
        | none => exact decidesBy_removeEntry hnames
        | some g => exact decidesBy_setEntry (hdb.healedAll _ _) hnames g

theorem decidesBy_grant (hdb : s.db.Distinct) (acting target : String) (path : Value) (level : Level)
    (cwd : Option String) :
    s.DecidesBy (fun r ↦ isRefusal r.verdict)
      (match s.resolver.resolve path (some acting) cwd level.isNone with
        | .ok segments => s.grantLookups acting target segments level
        | .error _ => [])
      (Call.grant acting target path level cwd) := by
  refine .get_bind (fun _ _ ↦ rfl) ?_
  cases hresolve : s.resolver.resolve path (some acting) cwd level.isNone with
  | error e => exact decidesBy_refusal rfl
  | ok segments =>
    have hnames : ∀ name ∈ segments, Path.IsSegment name := fun name hname ↦
      Path.Resolver.isSegment_of_mem_resolve hresolve hname
    have hdecides : s.DecidesBy isRefusal (s.grantLookups acting target segments level) _ :=
      decidesBy_grantAt hdb hnames level
    exact hdecides.map (fun r : GrantResult ↦ isRefusal r.verdict)
      fun verdict ↦ ⟨target, some (Path.render segments), level, verdict⟩

end Grant

section Memberships

variable {target : String}

/-- **Memberships are stored** in one piece: nothing is stale after them, and to look the groups up once
more changes nothing. -/
theorem follows_storeMemberships {groups : List String} {db : Database}
    (hset : s.db.setMemberships target groups = db)
    (hpruned : (db.groupsOf s.groupSources target).pruned = []) :
    s.Follows (Call.storeMemberships target groups)
      { db := some db, result := .ok (db.groupsOf s.groupSources target).groups } := by
  intro store events
  have hput : ({ s with store, events } : Service).run
      (modify fun s ↦ { s with db := s.db.setMemberships target groups }) =
      (.ok (), { s with db, store, events }) := by rw [run_modify, ← hset]
  have hcourse : ({ s with store, events } : Service).run (Course.call
        { db := some db, result := .ok (db.groupsOf s.groupSources target).groups }) =
      ({ s with db, store, events } : Service).run (do
        Call.persist
        return (db.groupsOf s.groupSources target).groups) := rfl
  rw [Call.storeMemberships, run_bind_of_ok hput, hcourse, run_bind, run_bind]
  have hsame := sameBut_persist ({ s with db, store, events } : Service)
  rcases hrun : Service.run _ Call.persist with ⟨_ | u, s'⟩
  · rfl
  · rw [hrun] at hsame
    have hgroups : s'.db.resolveGroups s'.groupSources target =
        (db.groupsOf s.groupSources target, s'.db) := by
      rw [hsame.db_eq, hsame.groupSources_eq]
      change (db.groupsOf s.groupSources target,
        if (db.groupsOf s.groupSources target).changed then _ else db) = _
      rw [GroupResolution.changed, hpruned]
      rfl
    dsimp only
    rw [run_bind_of_ok s'.run_get, hgroups]
    rfl

/-- Whoever is or becomes a member is one of a group that has a tree. -/
theorem has_of_membershipProblem?_eq_none (hdb : s.db.Distinct) {acting target group : String}
    {add : Bool}
    (h : (if add then Call.joiningProblem? { s with db := s.db.healed s.groupSources target }
          (s.db.groupsOf s.groupSources target) acting target group
        else Call.leavingProblem? { s with db := s.db.healed s.groupSources target }
          (s.db.groupsOf s.groupSources target) target group) = none) :
    ∀ g ∈ (if add then (s.db.groupsOf s.groupSources target).explicit ++ [group]
        else (s.db.groupsOf s.groupSources target).explicit.filter (· != group)),
      (s.db.healed s.groupSources target).has g := by
  intro g hg
  cases add with
  | true =>
    obtain ⟨-, -, hgroup⟩ := of_joiningProblem?_eq_none h
    rcases List.mem_append.1 hg with hkept | hnew
    · exact hdb.has_healed_of_mem_explicit hkept
    · obtain rfl : g = group := by simpa using hnew
      exact hgroup
  | false => exact hdb.has_healed_of_mem_explicit (List.mem_of_mem_filter hg)

theorem decidesBy_changeMembership (hdb : s.db.Distinct) (acting target group : String)
    (add : Bool) :
    s.DecidesBy (fun r ↦ isRefusal r.verdict) (if s.rules.isPlayer target then [target] else [])
      (Call.changeMembership acting target group add) := by
  refine .get_bind (fun _ _ ↦ rfl) ?_
  rw [PrincipalRules.isPlayer]
  by_cases hplayer : s.rules.kindOf target == .player
  · have hnot : (s.rules.kindOf target != .player) = false := by rw [bne, hplayer]; rfl
    simp only [hnot, hplayer, if_true, Bool.false_eq_true, if_false]
    rw [← List.append_nil [target]]
    refine .bind (s.follows_resolveGroups target) (.get_bind (fun _ _ ↦ rfl) ?_)
    simp only [Database.healedAll_cons, Database.healedAll_nil]
    -- Joining and leaving differ in their reasons for a refusal only.
    generalize hproblem : ite (add = true) _ _ = problem
    cases problem with
    | some refusal => exact decidesBy_refusal rfl
    | none =>
      have hhas := has_of_membershipProblem?_eq_none hdb hproblem
      have hpruned : ((Database.setMemberships _ target _).groupsOf s.groupSources target).pruned =
          [] := (hdb.healed s.groupSources target).pruned_groupsOf_setMemberships _ hhas
      have hfollows := follows_storeMemberships
        (s := { s with db := s.db.healed s.groupSources target }) rfl hpruned
      exact ⟨_, hfollows.map _, rfl, .carried [] rfl (.memberships target _)⟩
  · have hnot : (s.rules.kindOf target != .player) = true := by simpa using hplayer
    simp only [hnot, hplayer, if_true, Bool.false_eq_true, if_false]
    exact decidesBy_refusal rfl

end Memberships

theorem decidesBy_reset (acting target : String) :
    s.DecidesBy (fun r ↦ isRefusal r.verdict) [] (Call.reset acting target) := by
  refine .get_bind (fun _ _ ↦ rfl) ?_
  cases hfind : s.db.find? target with
  | none => exact decidesBy_refusal rfl
  | some previous =>
    dsimp only
    cases hproblem : Call.resetProblem? s acting target with
    | some refusal => exact decidesBy_refusal rfl
    | none =>
      by_cases hdefault : target = defaultPrincipal
      · subst hdefault
        exact decidesBy_change (fun _ _ ↦ rfl) rfl (.restored acting _)
      · have hother : (target == defaultPrincipal) = false := by simpa using hdefault
        simp only [hother, Bool.false_eq_true, if_false]
        exact decidesBy_change (fun _ _ ↦ rfl) rfl (.deleted acting _ hdefault)

/-! ### Asking -/

/-- Whether a call only asks: after looking up the groups of some principals it changes nothing, and at most
a denial is recorded. -/
def AsksBy (s : Service) (names : List String) (c : Call α) : Prop :=
  ∃ k, s.Follows c k ∧ k.names = names ∧ k.db = none ∧
    ∀ e ∈ k.event, ∃ principal path required actual, e = .denied principal path required actual

section AsksBy

variable {names : List String}

theorem asksBy_pure (a : α) : s.AsksBy [] (pure a) :=
  ⟨_, follows_pure a, rfl, rfl, by simp⟩

theorem asksBy_denied (principal path : String) (required actual : Level) (a : α) :
    s.AsksBy [] (do Call.audit (.denied principal path required actual); return a) := by
  refine ⟨_, follows_audit _ a, rfl, rfl, fun e he ↦ ?_⟩
  exact ⟨principal, path, required, actual, (Option.some.inj he).symm⟩

theorem AsksBy.get_bind {f : Service → Call α}
    (hf : ∀ store events, f { s with store, events } = f s) (h : s.AsksBy names (f s)) :
    s.AsksBy names (get >>= f) := by
  obtain ⟨k, hfollows, hasks⟩ := h
  exact ⟨k, follows_get_bind hf hfollows, hasks⟩

theorem AsksBy.bind {c : Call α} {f : α → Call β} {a : α} {names' : List String}
    (hc : s.Follows c { names, result := .ok a })
    (h : ({ s with db := s.db.healedAll s.groupSources names } : Service).AsksBy names' (f a)) :
    s.AsksBy (names ++ names') (c >>= f) := by
  obtain ⟨k, hfollows, rfl, hasks⟩ := h
  exact ⟨k.after names, hc.bind hfollows, rfl, hasks⟩

end AsksBy

section Queries

variable (path : Value) (cwd : Option String)

theorem asksBy_check (hdb : s.db.Distinct) (principal : String) (required : Level)
    (ownSession : Bool) :
    s.AsksBy
      (match s.resolver.resolve path (some principal) cwd false with
        | .ok segments =>
          if ownSession && Call.isOwnRecord s segments principal required then []
          else readers principal
        | .error _ => [])
      (Call.check path principal required cwd ownSession) := by
  refine .get_bind (fun _ _ ↦ rfl) ?_
  cases s.resolver.resolve path (some principal) cwd false with
  | error e => exact asksBy_denied _ _ _ _ _
  | ok segments =>
    dsimp only
    split
    · exact asksBy_pure _
    · rw [← List.append_nil (readers principal)]
      refine .bind (s.follows_evaluate principal hdb segments) ?_
      split
      · exact asksBy_denied _ _ _ _ _
      · exact asksBy_pure _

theorem follows_resolvePath (acting : Option String) :
    s.Follows (Call.resolvePath path acting cwd)
      { result := (s.resolver.resolve path acting cwd false).mapError .invalidPath } := by
  refine follows_get_bind (fun _ _ ↦ rfl) ?_
  cases s.resolver.resolve path acting cwd false with
  | error e => exact follows_throw _
  | ok segments => exact follows_pure _

theorem asksBy_effectiveLevel (hdb : s.db.Distinct) (principal : String) :
    s.AsksBy
      (match s.resolver.resolve path (some principal) cwd false with
        | .ok _ => readers principal
        | .error _ => [])
      (Call.effectiveLevel path principal cwd) := by
  have hpath := s.follows_resolvePath path cwd (some principal)
  cases hresolve : s.resolver.resolve path (some principal) cwd false with
  | error e =>
    rw [hresolve] at hpath
    exact ⟨_, hpath.bind_error _, rfl, rfl, by simp⟩
  | ok segments =>
    rw [hresolve] at hpath
    exact ⟨_, hpath.bind (follows_evaluate _ principal hdb segments), rfl, rfl,
      by simp [Course.after]⟩

theorem asksBy_canonicalPath (acting : Option String) :
    s.AsksBy [] (Call.canonicalPath path acting cwd) :=
  ⟨_, (s.follows_resolvePath path cwd acting).map _, rfl, rfl, by simp [Course.map]⟩

theorem asksBy_groupsOf (name : String) : s.AsksBy [name] (Call.groupsOf name) :=
  ⟨_, (s.follows_resolveGroups name).map _, rfl, rfl, by simp [Course.map]⟩

/-- Whether a name without a tree is shown the default tree, or why nothing is shown. -/
def fallsBackResult (s : Service) (name : String) : Except ServiceError Bool :=
  if 1 < (s.db.groupsOf s.groupSources name).groups.length then .ok false
  else if s.rules.isGroup name then
    .error (.unknownPrincipal name "no such group in the database")
  else if !s.playerExists name then .error (.unknownPrincipal name "no such player")
  else .ok true

theorem follows_fallsBack_of_known {name : String} (h : s.rules.isFake name || s.db.has name) :
    s.Follows (Call.fallsBack name) { result := .ok false } := by
  refine follows_get_bind (fun _ _ ↦ rfl) ?_
  rw [if_pos h]
  exact follows_pure _

theorem follows_fallsBack {name : String} (h : ¬(s.rules.isFake name || s.db.has name)) :
    s.Follows (Call.fallsBack name) { names := [name], result := s.fallsBackResult name } := by
  refine follows_get_bind (fun _ _ ↦ rfl) ?_
  rw [if_neg h]
  refine Follows.bind (k := { result := s.fallsBackResult name }) (s.follows_resolveGroups name) ?_
  rw [fallsBackResult]
  split
  · exact follows_pure _
  · split
    · exact follows_throw _
    · split
      · exact follows_throw _
      · exact follows_pure _

theorem asksBy_list (name : String) (mode : Option ListingMode) :
    s.AsksBy
      (if s.rules.isFake name || s.db.has name then readers name
        else if 1 < (s.db.groupsOf s.groupSources name).groups.length then name :: readers name
        else [name])
      (Call.list name mode) := by
  -- Once it is known whose trees are shown, they are looked up.
  have hlist : ∀ {names fallback}, s.Follows (Call.fallsBack name) { names, result := .ok fallback } →
      s.AsksBy (names ++ readers (if fallback then defaultPrincipal else name))
        (Call.list name mode) := by
    intro names fallback hfallback
    refine .bind hfallback ?_
    exact ⟨_, (follows_treesFor _ _).map _, rfl, rfl, by simp [Course.map]⟩
  split <;> rename_i hknown
  · exact hlist (follows_fallsBack_of_known hknown)
  · have hfalls := follows_fallsBack hknown
    rw [fallsBackResult] at hfalls
    split <;> rename_i hmany
    · rw [if_pos hmany] at hfalls
      exact hlist hfalls
    · rw [if_neg hmany] at hfalls
      split at hfalls
      · exact ⟨_, hfalls.bind_error _, rfl, rfl, by simp⟩
      · split at hfalls
        · exact ⟨_, hfalls.bind_error _, rfl, rfl, by simp⟩
        · exact hlist hfalls

end Queries

end Service

namespace Request

/-- Whether the result of a request is a refusal. What is only asked for is never refused. -/
def isRefusal : (r : Request) → r.Result → Bool
  | grant .., result => Service.isRefusal result.verdict
  | changeMembership .., result => Service.isRefusal result.verdict
  | reset .., result => Service.isRefusal result.verdict
  | check .., _ | effectiveLevel .., _ | groupsOf _, _ | canonicalPath .., _ | list .., _ => false

/-- The principals whose groups a request looks up, in order. -/
def lookups (s : Service) : Request → List String
  | grant acting target path level cwd =>
    match s.resolver.resolve path (some acting) cwd level.isNone with
    | .ok segments => s.grantLookups acting target segments level
    | .error _ => []
  | changeMembership _ target _ _ => if s.rules.isPlayer target then [target] else []
  | reset _ _ => []
  | check path principal required cwd ownSession =>
    match s.resolver.resolve path (some principal) cwd false with
    | .ok segments =>
      if ownSession && Call.isOwnRecord s segments principal required then []
      else Service.readers principal
    | .error _ => []
  | effectiveLevel path principal cwd =>
    match s.resolver.resolve path (some principal) cwd false with
    | .ok _ => Service.readers principal
    | .error _ => []
  | groupsOf name => [name]
  | canonicalPath _ _ _ => []
  | list name _ =>
    if s.rules.isFake name || s.db.has name then Service.readers name
    else if 1 < (s.db.groupsOf s.groupSources name).groups.length then
      name :: Service.readers name
    else [name]

variable {s : Service}

/-- **The course of a request that changes something**: after its lookups it is refused, or carried out. -/
theorem decidesBy_call (hdb : s.db.Distinct) (r : Request) (hr : r.acting?.isSome) :
    s.DecidesBy r.isRefusal (r.lookups s) r.call := by
  cases r with
  | grant acting target path level cwd => exact Service.decidesBy_grant hdb acting target path level cwd
  | changeMembership acting target group add =>
    exact Service.decidesBy_changeMembership hdb acting target group add
  | reset acting target => exact Service.decidesBy_reset acting target
  | check | effectiveLevel | groupsOf | canonicalPath | list => exact nomatch hr

/-- **The course of a request that only asks.** -/
theorem asksBy_call (hdb : s.db.Distinct) (r : Request) (hr : r.acting? = none) :
    s.AsksBy (r.lookups s) r.call := by
  cases r with
  | grant | changeMembership | reset => exact nomatch hr
  | check path principal required cwd ownSession =>
    exact Service.asksBy_check path cwd hdb principal required ownSession
  | effectiveLevel path principal cwd => exact Service.asksBy_effectiveLevel path cwd hdb principal
  | groupsOf name => exact Service.asksBy_groupsOf name
  | canonicalPath path acting cwd => exact Service.asksBy_canonicalPath path cwd acting
  | list name mode => exact Service.asksBy_list name mode

end Request

end PathAccess
