import PathAccess.Proofs.Service.Decisions
/-!
# Refused changes

A change can be refused for many reasons, some of which show only after levels were looked up. What it has
done by then is to prune: memberships in groups that are gone, first those of the actor and then those of
the target. So a refusal leaves the database as it was, or without these, and the store as it was, or with
what is left saved. Nothing is recorded (`run_refused`).

The prunings come one after the other, as each may take away a group that another player is a member of
(`Database.Pruned`).
-/

namespace PathAccess

namespace Database

/-- Whether a name is that of a player with a membership in a group that has no tree. -/
def Stale (db : Database) (name : String) : Prop :=
  name ≠ "" ∧ db.rules.isPlayer name ∧ ∃ group ∈ db.memberships name, db.has group = false

/-- Removes the memberships of a player in groups that have no tree. An entry of which nothing is left
goes. -/
def prune (db : Database) (name : String) : Database :=
  db.setMemberships name ((db.memberships name).filter db.has)

/-- The memberships of some players are pruned, one after the other, and each has some that are stale. -/
inductive Pruned : Database → List String → Database → Prop
  /-- Nothing is pruned. -/
  | nil (db : Database) : Pruned db [] db
  /-- The memberships of one player are pruned, and then those of others. -/
  | cons {db db' : Database} {name : String} {names : List String} (stale : db.Stale name)
      (rest : Pruned (db.prune name) names db') : Pruned db (name :: names) db'

variable {db : Database} {s : GroupSources} {name : String}

theorem Pruned.eq_of_length_eq_zero {db' : Database} {names : List String}
    (h : db.Pruned names db') (hlength : names.length = 0) : db' = db := by
  cases h with
  | nil => rfl
  | cons => exact nomatch hlength

/-- Stale is what a lookup prunes. -/
theorem stale_iff : db.Stale name ↔ (db.groupsOf s name).pruned ≠ [] := by
  rw [Ne, pruned_groupsOf_eq_nil_iff, Stale]
  simp

theorem healed_of_stale (h : db.Stale name) : db.healed s name = db.prune name := by
  have hpruned := (stale_iff (s := s)).1 h
  rw [healed_eq, if_neg hpruned, explicit_groupsOf hpruned, prune]

end Database

namespace Request

/-- Whom a request is about: who acts and on whom, or who is asked about. -/
def parties : Request → List String
  | grant acting target .. => [acting, target]
  | changeMembership acting target .. => [acting, target]
  | reset acting target => [acting, target]
  | check _ principal .. => [principal]
  | effectiveLevel _ principal _ => [principal]
  | groupsOf name => [name]
  | canonicalPath .. => []
  | list name _ => [name]

end Request

namespace Service

variable {s : Service}

theorem readers_sublist (name : String) : (readers name).Sublist [name] := by
  rw [readers]
  split
  · exact List.nil_sublist _
  · exact List.Sublist.refl _

/-- **A change looks up the groups of its parties at most**, those of the actor first. -/
theorem lookups_sublist_parties {r : Request} (hr : r.acting?.isSome) :
    (r.lookups s).Sublist r.parties := by
  cases r with
  | grant acting target path level cwd =>
    have hgrant : ∀ segments, (s.grantLookups acting target segments level).Sublist
        ([acting] ++ [target]) := by
      intro segments
      rw [grantLookups]
      split
      · exact List.nil_sublist _
      · refine (readers_sublist acting).append ?_
        split
        · exact List.nil_sublist _
        · exact readers_sublist target
    rw [Request.lookups]
    split
    · exact hgrant _
    · exact List.nil_sublist _
  | changeMembership acting target group add =>
    rw [Request.lookups]
    split
    · exact List.sublist_cons_self acting [target]
    · exact List.nil_sublist _
  | reset acting target => exact List.nil_sublist _
  | check | effectiveLevel | groupsOf | canonicalPath | list => cases hr

/-- The store once the database was saved a number of times. -/
def storeAfter (s : Service) (db : Database) (saves : Nat) : Option Store :=
  if saves = 0 then s.store
  else s.store.map fun store ↦
    { store with document := some db.toDocument, saves := store.saves + saves }

/-- One saving more. -/
theorem storeAfter_saved (s : Service) (db db' : Database) (saves : Nat)
    (h : saves = 0 → db' = db) :
    ({ s with db } : Service).saved.storeAfter db' saves = s.storeAfter db' (saves + 1) := by
  cases saves with
  | zero =>
    rw [h rfl]
    rfl
  | succ saves =>
    have hcount : ∀ n : Nat, n + 1 + (saves + 1) = n + (saves + 1 + 1) := by omega
    simp [storeAfter, saved, Function.comp_def, hcount]

/-- **Lookups prune**, and save once for each principal whose memberships they prune. -/
theorem exists_pruned_afterLookups (s : Service) (names : List String) :
    ∃ pruned, pruned.Sublist names ∧ s.db.Pruned pruned (s.afterLookups names).db ∧
      (s.afterLookups names).store = s.storeAfter (s.afterLookups names).db pruned.length := by
  induction names generalizing s with
  | nil => exact ⟨[], List.nil_sublist _, .nil _, rfl⟩
  | cons name names ih =>
    have hrest : s.afterLookups (name :: names) = (s.afterLookup name).afterLookups names := rfl
    obtain ⟨pruned, hsub, hpruned, hstore⟩ := ih (s.afterLookup name)
    rw [hrest]
    -- The first name is counted if it has something stale, and the others are looked up after it.
    by_cases hstale : s.db.Stale name
    · have hne := (Database.stale_iff (s := s.groupSources)).1 hstale
      have hlookup : s.afterLookup name = ({ s with db := s.db.prune name } : Service).saved := by
        rw [afterLookup, if_neg hne, Database.healed_of_stale hstale]
      rw [hlookup] at hpruned hstore ⊢
      have hmore := s.storeAfter_saved (s.db.prune name) _ pruned.length hpruned.eq_of_length_eq_zero
      exact ⟨name :: pruned, hsub.cons_cons name, .cons hstale hpruned, hstore.trans hmore⟩
    · have hlookup : s.afterLookup name = s := by
        rw [afterLookup, if_pos]
        by_contra hne
        exact hstale (Database.stale_iff.2 hne)
      rw [hlookup] at hpruned hstore ⊢
      exact ⟨pruned, hsub.cons name, hpruned, hstore⟩

/-- **A change that is refused** leaves nothing behind but prunings. Over a store that works every change
has a result. If that is a refusal, then the memberships of some of its parties were pruned, which had
stale ones, and nothing else has changed: no event is recorded, and the store is the one before if nothing
was pruned. Otherwise it holds what is left, saved once for each pruning. -/
theorem run_refused (hdb : s.db.Distinct) (hsave : s.CanSave) {r : Request} (hr : r.acting?.isSome) :
    ∃ result s', s.run r.call = (.ok result, s') ∧
      (r.isRefusal result →
        s'.events = s.events ∧
        ∃ pruned, pruned.Sublist r.parties ∧ s.db.Pruned pruned s'.db ∧
          s'.store = s.storeAfter s'.db pruned.length) := by
  obtain ⟨k, hfollows, hnames, hdecides⟩ := r.decidesBy_call hdb hr
  have hrun := hsave.run_call k
  rw [← hfollows.run_eq] at hrun
  cases hdecides with
  | @refused names a refusal =>
    refine ⟨a, _, hrun, fun _ ↦ ?_⟩
    obtain ⟨pruned, hsub, hpruned, hstore⟩ := s.exists_pruned_afterLookups names
    refine ⟨events_afterLookups names, pruned, ?_, hpruned, hstore⟩
    rw [show names = r.lookups s from hnames] at hsub
    exact hsub.trans (lookups_sublist_parties hr)
  | @carried names e db a accepted told =>
    refine ⟨a, _, hrun, fun refusal ↦ ?_⟩
    rw [accepted] at refusal
    cases refusal

/-- A player who was a member of a group that is gone may not hand out anything. The refusal leaves it
without its entry, which held nothing else, and that is saved. -/
theorem run_refused_alice :
    let s : Service := {
      db := { trees := [("*", { root := { rest := some .read } }), ("alice", { groups := ["Arch_gone"] })] }
      store := some {}
      identity := some { players := [("alice", {}), ("bob", {})] }
      auditRules := some {} }
    let r : Request := .grant "alice" "bob" (.text "/tmp/x") (some .write) none
    ∃ result s', s.run r.call = (.ok result, s') ∧ r.isRefusal result ∧ s'.events = [] ∧
      (∃ pruned, pruned.Sublist r.parties ∧ s.db.Pruned pruned s'.db ∧
        s'.store = s.storeAfter s'.db pruned.length) ∧
      s'.db.has "alice" = false ∧ s'.store.map (·.saves) = some 1 := by
  intro s r
  have hdb : s.db.Distinct := by
    unfold Database.Distinct
    decide
  obtain ⟨result, s', hrun, hrefused⟩ := run_refused (r := r) hdb (by decide) rfl
  have hrefusal : (s.run r.call).1.toOption.any r.isRefusal := by decide +kernel
  have hgone : (s.run r.call).2.db.has "alice" = false := by decide +kernel
  have hsaved : (s.run r.call).2.store.map (·.saves) = some 1 := by decide +kernel
  rw [hrun] at hrefusal hgone hsaved
  obtain ⟨hevents, hpruned⟩ := hrefused hrefusal
  exact ⟨result, s', hrun, hrefusal, hevents, hpruned, hgone, hsaved⟩

end Service

end PathAccess
