import Mathlib.Logic.Relation
import PathAccess.Proofs.Database.WellFormed
import PathAccess.Proofs.Service.Grants
import PathAccess.Proofs.Service.Requests
/-!
# What requests are made of

Whatever a request does, it does in steps of two kinds. It hands an event to the audit trail, or it
exchanges the database and saves the new one at once. And the database changes in few ways
(`Database.Changed`): an entry of a tree is edited at a path where entries can stand, a player joins a
group, memberships are cut, the default tree is restored, or a tree is deleted. Both the reading that
prunes and the changes proper are of this kind, and it makes no difference whether saving succeeds.

So an invariant of the steps is one of all runs, in whatever state a run begins and with whatever
arguments (`Request.steps_perform`). Only that the names of the database are distinct has to be known.
-/

namespace PathAccess

/-- What one step of a request can do to a database. -/
inductive Database.Changed (rules : PrincipalRules) (db : Database) : Database → Prop
  /-- An entry is set or removed, at a resolved path where entries can stand. -/
  | edited {target : String} {segments : List String} {db' : Database}
      (edited : Service.Edited db target segments db')
      (storable : grantPathProblem? segments = none)
      (names : ∀ name ∈ segments, Path.IsSegment name) : Changed rules db db'
  /-- A player joins a group, and keeps some of its memberships. -/
  | joined {name group : String} {groups : List String} (player : rules.isPlayer name)
      (isGroup : rules.isGroup group) (kept : groups.Sublist (db.memberships name))
      (new : group ∉ groups) : Changed rules db (db.setMemberships name (groups ++ [group]))
  /-- Some memberships of a principal are kept. -/
  | cut {name : String} {groups : List String} (kept : groups.Sublist (db.memberships name)) :
      Changed rules db (db.setMemberships name groups)
  /-- The default tree is restored. -/
  | restored : Changed rules db db.resetDefault
  /-- A tree is deleted. -/
  | deleted (name : String) : Changed rules db (db.remove name)

section Changed

variable {rules : PrincipalRules} {db db' : Database}

theorem Database.Changed.rules_eq (h : db.Changed rules db') : db'.rules = db.rules := by
  cases h with
  | edited hedited => exact hedited.rules_eq
  | joined => exact Database.rules_setMemberships _ _ _
  | cut => exact Database.rules_setMemberships _ _ _
  | restored => rfl
  | deleted name => rfl

theorem Database.Changed.distinct (h : db.Changed rules db') (hdb : db.Distinct) :
    db'.Distinct := by
  cases h with
  | edited hedited => exact hedited.distinct hdb
  | joined => exact hdb.setMemberships _ _
  | cut => exact hdb.setMemberships _ _
  | restored => exact hdb.set _ _
  | deleted name => exact hdb.remove _

/-- **No change makes a database ill-formed.** -/
theorem Database.Changed.wellFormed (h : db.Changed rules db') (hdb : db.WellFormed) :
    db'.WellFormed := by
  cases h with
  | edited hedited storable =>
    obtain ⟨path, last, rfl, hpath, hlast⟩ :=
      Service.exists_of_grantPathProblem?_eq_none storable
    cases hedited with
    | granted g =>
      refine hdb.set _ (Branch.WellFormed.grant (hdb.trees _) ?_ ?_ g)
      · simpa using hpath
      · simpa using hlast
    | removed has left => exact hdb.set _ ((hdb.trees _).revoke _)
    | principalRemoved has empty => exact hdb.remove _
  | joined => exact hdb.setMemberships _ _
  | cut => exact hdb.setMemberships _ _
  | restored => exact hdb.set _ Database.wellFormed_defaultSchema
  | deleted name => exact hdb.remove _

end Changed

namespace Service

/-- The service after the database is exchanged and saved, if it can be saved. -/
def stored (s : Service) (db : Database) : Service :=
  (({ s with db } : Service).run Call.persist).2

/-- One step of a request. -/
inductive Step (s : Service) : Service → Prop
  /-- An event is handed to the audit trail. -/
  | heard (e : AuditEvent) : Step s (s.heard e)
  /-- The database is changed and saved. -/
  | stored {db : Database} (changed : s.db.Changed s.rules db) : Step s (s.stored db)

/-- Any number of steps. -/
def Steps : Service → Service → Prop :=
  Relation.ReflTransGen Step

variable {s s' s'' : Service}

theorem Steps.refl (s : Service) : s.Steps s :=
  Relation.ReflTransGen.refl

theorem Steps.trans (h : s.Steps s') (h' : s'.Steps s'') : s.Steps s'' :=
  Relation.ReflTransGen.trans h h'

theorem Step.steps (h : s.Step s') : s.Steps s' :=
  Relation.ReflTransGen.single h

/-- **What each step preserves, any number of steps preserves.** -/
theorem Steps.induction {P : Service → Prop} (h : s.Steps s')
    (step : ∀ s s', P s → s.Step s' → P s') (hs : P s) : P s' := by
  induction h with
  | refl => exact hs
  | tail _ hstep ih => exact step _ _ ih hstep

theorem sameBut_stored (s : Service) (db : Database) : s.SameBut db (s.stored db) := by
  have hset : s.SameBut db { s with db } := ⟨_, _, rfl⟩
  exact hset.trans (sameBut_persist { s with db })

/-- The database is exchanged, and saved if it can be. -/
theorem stored_cases (s : Service) (db : Database) :
    s.CanSave ∧ s.stored db = ({ s with db } : Service).saved ∨
      ¬s.CanSave ∧ s.stored db = { s with db } := by
  by_cases hsave : s.CanSave
  · have hpersist : ({ s with db } : Service).run Call.persist = _ := CanSave.run_persist hsave
    exact Or.inl ⟨hsave, congrArg Prod.snd hpersist⟩
  · obtain ⟨e, hpersist⟩ := run_persist_of_not_canSave (s := { s with db }) hsave
    exact Or.inr ⟨hsave, congrArg Prod.snd hpersist⟩

theorem Step.sameBut (h : s.Step s') : s.SameBut s'.db s' := by
  cases h with
  | heard e => exact (s.sameBut_heard e).self
  | @stored db changed => exact (s.sameBut_stored db).self

/-- What the service is set up with is never changed. -/
theorem Steps.sameBut (h : s.Steps s') : s.SameBut s'.db s' :=
  h.induction (P := fun s' ↦ s.SameBut s'.db s')
    (fun _ _ hsame hstep ↦ hsame.trans hstep.sameBut) (.refl s)

theorem Steps.rules_eq (h : s.Steps s') : s'.rules = s.rules :=
  h.sameBut.rules_eq

/-- No step makes two entries of one name. -/
theorem Steps.distinct (h : s.Steps s') (hdb : s.db.Distinct) : s'.db.Distinct := by
  refine h.induction (P := fun s ↦ s.db.Distinct) (fun s s' hs hstep ↦ ?_) hdb
  cases hstep with
  | heard e =>
    rw [(s.sameBut_heard e).db_eq]
    exact hs
  | @stored db changed =>
    rw [(s.sameBut_stored db).db_eq]
    exact changed.distinct hs

/-! ### The steps of calls -/

/-- **A call made of two parts** takes the steps of both. The second part is one of the state that the
first leaves, if it gives a result. -/
theorem steps_bind {α β : Type} {c : Call α} {f : α → Call β} (hc : s.Steps (s.run c).2)
    (hf : ∀ a s', s.run c = (.ok a, s') → s'.Steps (s'.run (f a)).2) :
    s.Steps (s.run (c >>= f)).2 := by
  rw [run_bind]
  rcases hrun : s.run c with ⟨_ | a, s'⟩
  · rwa [hrun] at hc
  · rw [hrun] at hc
    exact hc.trans (hf a s' hrun)

/-- A call that reads the state and does nothing else first. -/
theorem steps_get_bind {α : Type} {f : Service → Call α} (hf : s.Steps (s.run (f s)).2) :
    s.Steps (s.run (get >>= f)).2 := by
  rwa [run_bind_of_ok s.run_get]

theorem steps_audit (e : AuditEvent) : s.Steps (s.run (Call.audit e)).2 :=
  (Step.heard e).steps

/-- A change that is recorded and saved. -/
theorem steps_change {α : Type} {db : Database} {f : Service → Service} (hf : f s = { s with db })
    (hchanged : s.db.Changed s.rules db) (e : AuditEvent) (a : α) :
    s.Steps (s.run (do modify f; Call.audit e; Call.persist; return a)).2 := by
  have haudit : ({ s with db } : Service).run (Call.audit e) =
      (.ok (), ({ s with db } : Service).heard e) := rfl
  -- The audit trail does not depend on the database, so the event may as well come first.
  have hheard : ({ s with db } : Service).heard e = { s.heard e with db } := by
    unfold heard
    split <;> rfl
  have hstored : (s.heard e).Step ((s.heard e).stored db) := by
    refine .stored ?_
    rwa [(s.sameBut_heard e).db_eq, (s.sameBut_heard e).rules_eq]
  rw [run_bind_of_ok (s.run_modify f), hf, run_bind_of_ok haudit, hheard, run_bind]
  refine (Step.heard e).steps.trans (hstored.steps.trans ?_)
  rw [stored]
  rcases ({ s.heard e with db } : Service).run Call.persist with ⟨_ | u, s'⟩ <;> exact .refl s'

section Reading

variable (s) (name : String)

theorem steps_resolveGroups : s.Steps (s.run (Call.resolveGroups name)).2 := by
  rw [Call.resolveGroups, run_bind_of_ok s.run_get]
  have hresolve : s.db.resolveGroups s.groupSources name =
      (s.db.groupsOf s.groupSources name, s.db.healed s.groupSources name) := rfl
  rw [hresolve]
  dsimp only
  rw [run_bind_of_ok (s.run_set _), Database.healed_eq, GroupResolution.changed]
  by_cases hpruned : (s.db.groupsOf s.groupSources name).pruned = []
  · simp only [hpruned]
    exact .refl s
  · have hstep : s.Step (s.stored (s.db.setMemberships name
        (s.db.groupsOf s.groupSources name).explicit)) :=
      .stored (.cut (s.db.explicit_sublist_memberships _ _))
    rw [if_neg hpruned, if_pos (by simpa using hpruned), run_bind]
    refine hstep.steps.trans ?_
    rw [stored]
    rcases Service.run _ Call.persist with ⟨_ | u, s'⟩ <;> exact .refl s'

theorem steps_treesFor : s.Steps (s.run (Call.treesFor name)).2 := by
  refine steps_get_bind ?_
  dsimp only
  split
  · exact .refl s
  · exact steps_bind (s.steps_resolveGroups name) fun r s' _ ↦ steps_get_bind (.refl s')

theorem steps_evaluate (segments : List String) :
    s.Steps (s.run (Call.evaluate segments name)).2 :=
  steps_bind (s.steps_treesFor name) fun _ s' _ ↦ steps_get_bind (.refl s')

theorem steps_resolvePath (path : Value) (acting cwd : Option String) :
    s.Steps (s.run (Call.resolvePath path acting cwd)).2 := by
  rw [run_resolvePath]
  exact .refl s

theorem steps_effectiveLevel (path : Value) (principal : String) (cwd : Option String) :
    s.Steps (s.run (Call.effectiveLevel path principal cwd)).2 :=
  steps_bind (s.steps_resolvePath path _ cwd) fun segments s' _ ↦ s'.steps_evaluate _ segments

theorem steps_check (path : Value) (principal : String) (required : Level) (cwd : Option String)
    (ownSession : Bool) :
    s.Steps (s.run (Call.check path principal required cwd ownSession)).2 := by
  refine steps_get_bind ?_
  split
  · exact steps_bind (steps_audit _) fun _ s' _ ↦ .refl s'
  · dsimp only
    split
    · exact .refl s
    · refine steps_bind (s.steps_evaluate _ _) fun e s' _ ↦ ?_
      split
      · exact steps_bind (steps_audit _) fun _ s' _ ↦ .refl s'
      · exact .refl s'

theorem steps_groupsOf : s.Steps (s.run (Call.groupsOf name)).2 :=
  steps_bind (s.steps_resolveGroups name) fun _ s' _ ↦ .refl s'

theorem steps_canonicalPath (path : Value) (acting cwd : Option String) :
    s.Steps (s.run (Call.canonicalPath path acting cwd)).2 :=
  steps_bind (s.steps_resolvePath path acting cwd) fun _ s' _ ↦ .refl s'

theorem steps_fallsBack : s.Steps (s.run (Call.fallsBack name)).2 := by
  refine steps_get_bind ?_
  split
  · exact .refl s
  · refine steps_bind (s.steps_resolveGroups name) fun r s' _ ↦ ?_
    split
    · exact .refl s'
    · split
      · exact .refl s'
      · split <;> exact .refl s'

theorem steps_list (mode : Option ListingMode) : s.Steps (s.run (Call.list name mode)).2 :=
  steps_bind (s.steps_fallsBack name) fun _ s' _ ↦
    steps_bind (s'.steps_treesFor _) fun _ s'' _ ↦ .refl s''

end Reading

section Changing

variable {acting target : String} {segments : List String}

theorem steps_alreadyAtLevel (kind : PrincipalKind) (g : Grade) :
    s.Steps (s.run (Call.alreadyAtLevel target kind segments g)).2 := by
  refine steps_bind (s.steps_evaluate target segments) fun e s' _ ↦ ?_
  split
  · exact .refl s'
  · split
    · exact .refl s'
    · exact steps_get_bind (.refl s')

variable (hstorable : grantPathProblem? segments = none)
  (hnames : ∀ name ∈ segments, Path.IsSegment name)

include hstorable hnames

theorem steps_removeEntry (resolved : String) :
    s.Steps (s.run (Call.removeEntry acting target segments resolved)).2 := by
  rcases s.run_removeEntry_cases acting target segments resolved with
    hrun | ⟨db, e, outcome, hedited, -, -, -, hrun⟩
  · rw [hrun]
    exact .refl s
  · rw [hrun]
    exact steps_change rfl (.edited hedited hstorable hnames) e _

theorem steps_setEntry (resolved : String) (g : Grade) :
    s.Steps (s.run (Call.setEntry acting target segments resolved g)).2 := by
  refine steps_get_bind (steps_bind (steps_alreadyAtLevel _ g) fun b s' _ ↦ ?_)
  split
  · exact .refl s'
  · refine steps_get_bind ?_
    dsimp only
    split
    · exact .refl s'
    · exact steps_change rfl (.edited (.granted g) hstorable hnames) _ _

end Changing

theorem steps_grantAt {acting target : String} {segments : List String}
    (hnames : ∀ name ∈ segments, Path.IsSegment name) (level : Level) :
    s.Steps (s.run (Call.grantAt acting target segments level)).2 := by
  rw [Call.grantAt]
  cases hproblem : grantPathProblem? segments with
  | some problem => exact .refl s
  | none =>
    refine steps_get_bind ?_
    dsimp only
    split
    · exact .refl s
    · refine steps_bind (s.steps_evaluate acting _) fun e s' _ ↦ ?_
      split
      · exact .refl s'
      · cases level with
        | none => exact steps_removeEntry hproblem hnames _
        | some g => exact steps_setEntry hproblem hnames _ g

theorem steps_grant (acting target : String) (path : Value) (level : Level)
    (cwd : Option String) : s.Steps (s.run (Call.grant acting target path level cwd)).2 := by
  refine steps_get_bind ?_
  split <;> rename_i hresolve
  · exact .refl s
  · refine steps_bind (steps_grantAt (fun name hname ↦ ?_) level) fun _ s' _ ↦ .refl s'
    exact Path.Resolver.isSegment_of_mem_resolve hresolve hname

/-- Who may be added to a group is not in it, and it is a group with a tree. -/
theorem of_joiningProblem?_eq_none {r : GroupResolution} {acting target group : String}
    (h : Call.joiningProblem? s r acting target group = none) :
    group ∉ r.groups ∧ s.rules.isGroup group ∧ s.db.has group := by
  unfold Call.joiningProblem? at h
  split at h <;> rename_i hmember
  · exact nomatch h
  · split at h <;> rename_i hgroup
    · exact nomatch h
    · simp only [Bool.or_eq_true, Bool.not_eq_true', not_or, Bool.not_eq_false] at hgroup
      exact ⟨by simpa using hmember, hgroup⟩

/-- Nothing is stale after memberships in groups that have a tree were stored, so the groups that are
reported at the end come without another change. -/
theorem steps_storeMemberships {target : String} {groups : List String} (hdb : s.db.Distinct)
    (hchanged : s.db.Changed s.rules (s.db.setMemberships target groups))
    (hgroups : ∀ group ∈ groups, s.db.has group) :
    s.Steps (s.run (Call.storeMemberships target groups)).2 := by
  rw [Call.storeMemberships, run_bind_of_ok (s.run_modify _), run_bind]
  have hsteps : s.Steps (s.stored (s.db.setMemberships target groups)) := (Step.stored hchanged).steps
  have hsame := s.sameBut_stored (s.db.setMemberships target groups)
  rw [stored] at hsteps hsame
  rcases hrun : ({ s with db := s.db.setMemberships target groups } : Service).run Call.persist with
    ⟨e | u, s'⟩
  · rwa [hrun] at hsteps
  · rw [hrun] at hsteps hsame
    have hpruned : (s'.db.groupsOf s'.groupSources target).pruned = [] := by
      rw [hsame.db_eq]
      exact hdb.pruned_groupsOf_setMemberships _ hgroups
    have hresolve : s'.db.resolveGroups s'.groupSources target =
        (s'.db.groupsOf s'.groupSources target, s'.db) := by
      simp [Database.resolveGroups, GroupResolution.changed, hpruned]
    dsimp only
    rw [run_bind_of_ok s'.run_get, hresolve]
    exact hsteps

/-- **A change of membership** joins a player to a group or cuts its memberships, after pruning them. -/
theorem steps_changeMembership (hdb : s.db.Distinct) (acting target group : String) (add : Bool) :
    s.Steps (s.run (Call.changeMembership acting target group add)).2 := by
  refine steps_get_bind ?_
  split <;> rename_i hplayer
  · exact .refl s
  · refine steps_bind (s.steps_resolveGroups target) fun r s' hrun ↦ steps_get_bind ?_
    obtain ⟨rfl, rfl⟩ := eq_of_run_resolveGroups_eq_ok hrun
    have hsame := s.sameBut_afterLookup target
    have hkept : (s.db.groupsOf s.groupSources target).explicit.Sublist
        ((s.afterLookup target).db.memberships target) := by
      rw [hsame.db_eq]
      exact hdb.explicit_sublist_memberships_healed s.groupSources target
    have hhas : ∀ g ∈ (s.db.groupsOf s.groupSources target).explicit,
        (s.afterLookup target).db.has g := by
      rw [hsame.db_eq]
      exact fun g hg ↦ hdb.has_healed_of_mem_explicit hg
    have hdb' : (s.afterLookup target).db.Distinct := by
      rw [hsame.db_eq]
      exact hdb.healed _ _
    dsimp only
    cases add with
    | true =>
      simp only [if_true]
      cases hproblem : Call.joiningProblem? (s.afterLookup target)
          (s.db.groupsOf s.groupSources target) acting target group with
      | some refusal => exact .refl _
      | none =>
        obtain ⟨hnew, hgroup, hgroupHas⟩ := of_joiningProblem?_eq_none hproblem
        refine steps_bind (steps_storeMemberships hdb' (.joined ?_ hgroup hkept ?_) ?_)
          fun _ s'' _ ↦ .refl s''
        · rw [hsame.rules_eq]
          simpa [PrincipalRules.isPlayer] using hplayer
        · exact fun hmem ↦ hnew (Database.mem_groups_of_mem_explicit hmem)
        · intro g hg
          rcases List.mem_append.1 hg with hg | hg
          · exact hhas g hg
          · obtain rfl : g = group := by simpa using hg
            exact hgroupHas
    | false =>
      simp only [Bool.false_eq_true, if_false]
      cases hproblem : Call.leavingProblem? (s.afterLookup target)
          (s.db.groupsOf s.groupSources target) target group with
      | some refusal => exact .refl _
      | none =>
        refine steps_bind (steps_storeMemberships hdb' (.cut ?_) ?_) fun _ s'' _ ↦ .refl s''
        · exact List.filter_sublist.trans hkept
        · exact fun g hg ↦ hhas g (List.mem_of_mem_filter hg)

theorem steps_reset (acting target : String) : s.Steps (s.run (Call.reset acting target)).2 := by
  refine steps_get_bind ?_
  split
  · exact .refl s
  · split
    · exact .refl s
    · dsimp only
      refine steps_change rfl ?_ _ _
      split
      · exact .restored
      · exact .deleted target

end Service

/-- **Every request takes steps.** -/
theorem Request.steps_perform {s : Service} (hdb : s.db.Distinct) (r : Request) :
    s.Steps (r.perform s) := by
  cases r with
  | grant acting target path level cwd => exact Service.steps_grant acting target path level cwd
  | changeMembership acting target group add =>
    exact Service.steps_changeMembership hdb acting target group add
  | reset acting target => exact Service.steps_reset acting target
  | check path principal required cwd ownSession =>
    exact s.steps_check path principal required cwd ownSession
  | effectiveLevel path principal cwd => exact s.steps_effectiveLevel path principal cwd
  | groupsOf name => exact s.steps_groupsOf name
  | canonicalPath path acting cwd => exact s.steps_canonicalPath path acting cwd
  | list name mode => exact s.steps_list name mode

end PathAccess
