import PathAccess.Proofs.Service.Changes
/-!
# Runs of a service

A run is a list of requests, performed one after the other. Each request is a call; what it answers
is of no interest here, nor whether it fails, only what it leaves behind.
-/

namespace PathAccess

/-- A call of the service with its arguments. -/
inductive Request where
  /-- Grants a level to a target at a path, or removes the entry there with no access. -/
  | grant (acting target : String) (path : Value) (level : Level) (cwd : Option String)
  /-- Adds a target to a group, or removes it from one. -/
  | changeMembership (acting target group : String) (add : Bool)
  /-- Resets a target. -/
  | reset (acting target : String)
  /-- Checks for a level at a path. -/
  | check (path : Value) (principal : String) (required : Level) (cwd : Option String)
      (ownSession : Bool)
  /-- Asks for the level at a path. -/
  | effectiveLevel (path : Value) (principal : String) (cwd : Option String)
  /-- Asks for the groups of a principal. -/
  | groupsOf (name : String)
  /-- Asks for the canonical form of a path. -/
  | canonicalPath (path : Value) (acting cwd : Option String)
  /-- Lists the trees of a principal. -/
  | list (name : String) (mode : Option ListingMode)

namespace Request

/-- On whose behalf a request changes something; nothing for one that only asks. -/
def acting? : Request → Option String
  | grant acting .. => some acting
  | changeMembership acting .. => some acting
  | reset acting _ => some acting
  | check .. | effectiveLevel .. | groupsOf _ | canonicalPath .. | list .. => none

/-- The service after a request. -/
def perform (s : Service) : Request → Service
  | grant acting target path level cwd => (s.run (Call.grant acting target path level cwd)).2
  | changeMembership acting target group add =>
    (s.run (Call.changeMembership acting target group add)).2
  | reset acting target => (s.run (Call.reset acting target)).2
  | check path principal required cwd ownSession =>
    (s.run (Call.check path principal required cwd ownSession)).2
  | effectiveLevel path principal cwd => (s.run (Call.effectiveLevel path principal cwd)).2
  | groupsOf name => (s.run (Call.groupsOf name)).2
  | canonicalPath path acting cwd => (s.run (Call.canonicalPath path acting cwd)).2
  | list name mode => (s.run (Call.list name mode)).2

/-- A request that only asks leaves the database as it is, where nothing is stale. -/
theorem sameBut_perform_of_acting?_eq_none {s : Service} {r : Request} (hr : r.acting? = none)
    (h : ∀ name, (s.db.groupsOf s.groupSources name).pruned = []) :
    s.SameBut s.db (r.perform s) := by
  cases r with
  | grant acting target path level cwd => exact nomatch hr
  | changeMembership acting target group add => exact nomatch hr
  | reset acting target => exact nomatch hr
  | check path principal required cwd ownSession =>
    exact Service.run_check (h principal) path required cwd ownSession
  | effectiveLevel path principal cwd =>
    rw [perform, Service.run_effectiveLevel (h principal)]
    cases s.resolver.resolve path (some principal) cwd false <;> exact .refl s
  | groupsOf name =>
    rw [perform, Service.run_groupsOf (h name)]
    exact .refl s
  | canonicalPath path acting cwd =>
    rw [perform, Service.run_canonicalPath]
    exact .refl s
  | list name mode =>
    rw [perform, Service.run_list h]
    exact .refl s

end Request

namespace Service

/-- The service after several requests. -/
def after (s : Service) (requests : List Request) : Service :=
  requests.foldl Request.perform s

/-- **What every request preserves, a run preserves.** -/
theorem after_induction {P : Service → Prop} {s : Service} {requests : List Request} (h : P s)
    (step : ∀ s, P s → ∀ r ∈ requests, P (r.perform s)) : P (s.after requests) := by
  induction requests generalizing s with
  | nil => exact h
  | cons r requests ih =>
    exact ih (step s h r List.mem_cons_self) fun s hs r' hr' ↦
      step s hs r' (List.mem_cons_of_mem _ hr')

end Service

end PathAccess
