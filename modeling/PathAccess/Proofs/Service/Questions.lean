import Mathlib.Data.List.Induction
import Mathlib.Data.List.Infix
import PathAccess.Proofs.Service.Answers
/-!
# Questions in between

To ask is to change: a question may prune memberships in groups that are gone, and an entry of which nothing
is left then goes. So a run is not the same with questions in between (`answers_changed_by_asking`). If such
a group is made again, a member that nobody had asked about is a member again, while one that was
asked about is not.

This is all that asking does. A run with questions in between leaves a service that stands beside the one
that the run without them leaves, and the groups that are gone are those of which a question has pruned
a membership (`Service.lostIn`, `Unrevived.beside`). As long as none of these has a tree again
(`Service.Unrevived`), every request is answered as it is without the questions, but for two ways in which
an entry that held nothing but pruned memberships shows by its absence: it cannot be reset, and the
removal of the last of its paths is the removal of the entry (`answer_with_questions`).
-/

namespace PathAccess

/-! ### Runs -/

/-- What comes next in a run with questions in between. -/
inductive Turn where
  /-- Something that belongs to the run happens. -/
  | made (a : Action)
  /-- Someone asks. -/
  | asked (r : Request) (asks : r.acting? = none)

namespace Turn

/-- What happens to the service. -/
def action : Turn → Action
  | made a => a
  | asked r _ => .request r

/-- What happens without the question. -/
def made? : Turn → Option Action
  | made a => some a
  | asked .. => none

/-- Whether the stored database is taken up again. -/
def isReload (turn : Turn) : Bool :=
  turn.action.isReload

end Turn

/-- The groups of which a membership is lost from one database to another. -/
def Database.lost (db db' : Database) : List String :=
  db.trees.flatMap fun (name, t) ↦ t.groups.filter fun g ↦ !(db'.memberships name).contains g

theorem Database.Distinct.mem_lost_iff {db db' : Database} (hdb : db.Distinct) {g : String} :
    g ∈ db.lost db' ↔ db.Lost db' g := by
  rw [lost, List.mem_flatMap]
  constructor
  · rintro ⟨⟨name, t⟩, hentry, hg⟩
    obtain ⟨hmem, hnot⟩ := List.mem_filter.1 hg
    exact ⟨name, mem_memberships_of_find? (Entries.find?_of_mem hdb hentry) hmem, by simpa using hnot⟩
  · rintro ⟨name, hmem, hnot⟩
    cases hfind : db.find? name with
    | none =>
      rw [memberships, treeOf, hfind] at hmem
      cases hmem
    | some t =>
      rw [memberships, treeOf_of_find? db hfind] at hmem
      exact ⟨(name, t), Entries.mem_of_find? hfind, List.mem_filter.2 ⟨hmem, by simpa using hnot⟩⟩

namespace Service

variable {s t : Service} {turns : List Turn}

/-- The service after a run with its questions. -/
def afterTurns (s : Service) (turns : List Turn) : Service :=
  s.afterActions (turns.map Turn.action)

/-- The service after a run without its questions. -/
def afterMade (s : Service) (turns : List Turn) : Service :=
  s.afterActions (turns.filterMap Turn.made?)

/-- The groups of which a question of a run prunes a membership. -/
def lostIn (s : Service) : List Turn → List String
  | [] => []
  | .made a :: turns => (a.perform s).lostIn turns
  | .asked r _ :: turns => s.db.lost (r.perform s).db ++ (r.perform s).lostIn turns

/-- Whether no group of which a question has pruned a membership has a tree later in the run. -/
def Unrevived (s : Service) (turns : List Turn) : Prop :=
  ∀ now, now <+: turns → (s.afterTurns now).db.Lacks (· ∈ s.lostIn now)

instance (s : Service) (turns : List Turn) : Decidable (s.Unrevived turns) :=
  decidable_of_iff (∀ now ∈ turns.inits, ∀ g ∈ s.lostIn now, (s.afterTurns now).db.has g = false) <| by
    simp only [List.mem_inits]
    rfl

theorem lostIn_append (s : Service) (turns turns' : List Turn) :
    s.lostIn (turns ++ turns') = s.lostIn turns ++ (s.afterTurns turns).lostIn turns' := by
  induction turns generalizing s with
  | nil => rfl
  | cons turn turns ih =>
    cases turn with
    | made a => exact ih (a.perform s)
    | asked r asks =>
      have hrest := ih (r.perform s)
      rw [List.cons_append, lostIn, hrest, lostIn, List.append_assoc]
      rfl

theorem afterTurns_concat (s : Service) (turns : List Turn) (turn : Turn) :
    s.afterTurns (turns ++ [turn]) = turn.action.perform (s.afterTurns turns) := by
  rw [afterTurns, List.map_append, afterActions, List.foldl_append]
  rfl

theorem afterMade_made (s : Service) (turns : List Turn) (a : Action) :
    s.afterMade (turns ++ [.made a]) = a.perform (s.afterMade turns) := by
  rw [afterMade, List.filterMap_append, afterActions, List.foldl_append]
  rfl

theorem afterMade_asked (s : Service) (turns : List Turn) (r : Request) (asks : r.acting? = none) :
    s.afterMade (turns ++ [.asked r asks]) = s.afterMade turns := by
  rw [afterMade, List.filterMap_append]
  exact congrArg s.afterActions (List.append_nil _)

theorem Unrevived.of_concat {turn : Turn} (h : s.Unrevived (turns ++ [turn])) : s.Unrevived turns :=
  fun now hnow ↦ h now (hnow.trans (List.prefix_append turns [turn]))

theorem Unrevived.lacks (h : s.Unrevived turns) :
    (s.afterTurns turns).db.Lacks (· ∈ s.lostIn turns) :=
  h turns List.prefix_rfl

/-- **What happens to both** keeps them beside each other. -/
theorem Beside.perform {gone : String → Prop} (h : Beside gone s t) (hlacks : t.db.Lacks gone)
    (a : Action) (hreload : a.isReload → s.Durable ∧ t.Durable) :
    Beside gone (a.perform s) (a.perform t) := by
  cases a with
  | request r =>
    have hrun := (h.run_call hlacks r).2
    rwa [← Request.perform_eq, ← Request.perform_eq] at hrun
  | reload =>
    obtain ⟨hs, ht⟩ := hreload rfl
    rwa [hs.perform_reload, ht.perform_reload]
  | directories identity affiliations =>
    obtain ⟨store, events, heq⟩ := h.same
    have hset : Service.SameBut t.db { s with identity, affiliations }
        { t with identity, affiliations } := ⟨store, events, by rw [heq]⟩
    exact ⟨hset, h.thinned, ⟨h.apart.memberships, h.apart.joined, h.apart.fullGroup,
      h.apart.juniorGroup, h.apart.affiliations, h.apart.default⟩, h.canSave, h.canSave_right⟩

/-- **With the questions of a run and without them** two services stand beside each other, when no group of
which a membership was pruned is made again. -/
theorem Unrevived.beside (h : s.Unrevived turns) (hdb : s.db.Distinct) (hsave : s.CanSave)
    (hgroups : s.GroupsApart) (hreload : (∃ turn ∈ turns, turn.isReload) → s.Durable) :
    Beside (· ∈ s.lostIn turns) (s.afterMade turns) (s.afterTurns turns) := by
  induction turns using List.reverseRecOn with
  | nil =>
    exact (Beside.refl hdb hgroups hsave).mono (fun _ ↦ False.elim)
      fun _ hmem ↦ absurd hmem List.not_mem_nil
  | append_singleton turns turn ih =>
    have hearlier : (∃ turn' ∈ turns, turn'.isReload) → s.Durable := by
      rintro ⟨turn', hmem, hturn⟩
      exact hreload ⟨turn', List.mem_append_left _ hmem, hturn⟩
    have hbefore := ih h.of_concat hearlier
    have hlacks := h.of_concat.lacks
    cases turn with
    | made a =>
      have hlost : s.lostIn (turns ++ [.made a]) = s.lostIn turns := by
        rw [lostIn_append]
        exact List.append_nil _
      rw [afterTurns_concat, afterMade_made, hlost]
      refine hbefore.perform hlacks a fun hturn ↦ ?_
      have hdurable := hreload ⟨.made a, List.mem_append_right _ (List.mem_singleton_self _), hturn⟩
      exact ⟨hdurable.afterActions _, hdurable.afterActions _⟩
    | asked r asks =>
      have hlost : s.lostIn (turns ++ [.asked r asks]) = s.lostIn turns ++
          (s.afterTurns turns).db.lost (r.perform (s.afterTurns turns)).db := by
        rw [lostIn_append]
        exact congrArg _ (List.append_nil _)
      have hdistinct := hbefore.thinned.distinct_right
      obtain ⟨hlookups, hsave'⟩ := hbefore.canSave_right.sameBut_perform hdistinct asks
      have hafter := hbefore.lookups_right hlookups hsave'
      have hsame : ∀ g, g ∈ s.lostIn (turns ++ [.asked r asks]) ↔ g ∈ s.lostIn turns ∨
          Database.Lost (s.afterTurns turns).db (r.perform (s.afterTurns turns)).db g := by
        intro g
        rw [hlost, List.mem_append, hdistinct.mem_lost_iff]
      rw [afterTurns_concat, afterMade_asked]
      refine hafter.mono (fun g ↦ (hsame g).2) fun g hg ↦ hafter.thinned.gone g ((hsame g).1 hg)

/-- **Questions in between are not seen in answers**, but for what their pruning shows. A run starts over a
store that does not fail, and nobody who plays counts as a group. In between anyone may be asked about, as
long as no group of which such a question prunes a membership has a tree again. If the run reloads, the
store gave back the database in use at its start. Then every request, a listing apart, is answered at its
end with the questions as it is without them, in all but two cases. A reset finds no entry if the entry held
nothing but pruned memberships. And a removal that leaves nothing but these removes the principal. -/
theorem answer_with_questions (hdb : s.db.Distinct) (hsave : s.CanSave) (hgroups : s.GroupsApart)
    (hreload : (∃ turn ∈ turns, turn.isReload) → s.Durable) (h : s.Unrevived turns) (r : Request) :
    r.Agree (· ∈ s.lostIn turns) (s.afterMade turns).db ((s.afterMade turns).run r.call).2.db
      ((s.afterMade turns).run r.call).1 ((s.afterTurns turns).run r.call).1 :=
  ((h.beside hdb hsave hgroups hreload).run_call h.lacks r).1

/-- A player joins a group, the group is deleted, and the player's groups are asked for. Then the level of
the player is what it is without the question. -/
theorem answer_with_questions_law :
    let s : Service := {
      db := .seeded {}
      store := some { document := some (Database.seeded {}).toDocument }
      identity := some { players := [("alice", {}), ("bob", { level := 50 })] } }
    let turns : List Turn := [
      .made (.request (.changeMembership "bob" "alice" "Arch_law" true)),
      .made (.request (.reset "bob" "Arch_law")),
      .asked (.groupsOf "alice") rfl,
      .made .reload]
    let r : Request := .effectiveLevel (.text "/data/Law/x") "alice" none
    s.lostIn turns = ["Arch_law"] ∧ s.Unrevived turns ∧
      (s.afterMade turns).db.has "alice" ∧ (s.afterTurns turns).db.has "alice" = false ∧
      ((s.afterTurns turns).run r.call).1 = ((s.afterMade turns).run r.call).1 := by
  intro s turns r
  have hwf := Database.wellFormed_seeded {}
  have hdurable : s.Durable :=
    ⟨hwf, rfl, _, rfl, rfl, rfl, Store.load_of_document hwf rfl rfl⟩
  have hgroups : s.GroupsApart := groupsApart_of_sound (Database.sound_seeded {}) rfl rfl rfl
  have hlost : s.lostIn turns = ["Arch_law"] := by decide +kernel
  have hunrevived : s.Unrevived turns := by decide +kernel
  have hsame := answer_with_questions hwf.distinct hdurable.canSave hgroups (fun _ ↦ hdurable)
    hunrevived r
  exact ⟨hlost, hunrevived, by decide +kernel, by decide +kernel, hsame⟩

/-- **Asking changes answers.** In the first three runs a group is deleted, and a member is then asked for its
groups. If the group is made again, the member does not belong to it. If the membership was all that the
member had, there is nothing to be reset. And to remove the member's last path is to remove the
member. In the last two runs no group is made again. In the one a player counts as a group, and is gone
once its own groups were asked for. In the other the store is behind, and what the question prunes is
saved over what it holds. -/
theorem answers_changed_by_asking :
    let base : Service := {
      db := { trees := [
        ("*", { root := { rest := some .read } }),
        ("Arch_law", { root := { rest := some .write } }),
        ("alice", { groups := ["Arch_law"] }),
        ("carol", { root := { children := [("tmp", .leaf .write)] }, groups := ["Arch_law"] })] }
      identity := some { players := [("alice", {}), ("bob", { level := 50 }), ("carol", {})] } }
    let deleted : Turn := .made (.request (.reset "bob" "Arch_law"))
    let made : Turn :=
      .made (.request (.grant "kralk" "Arch_law" (.text "/tmp") (some .write) none))
    let asked (name : String) : Turn := .asked (.groupsOf name) rfl
    let level (s : Service) :=
      (s.run (Call.effectiveLevel (.text "/tmp") "alice" none)).1.toOption.map fun e ↦
        (e.level, e.source)
    let reset (s : Service) := (s.run (Call.reset "bob" "alice")).1
    let removal (s : Service) := (s.run (Call.grant "kralk" "carol" (.text "/tmp") none none)).1
    let joined : Service := { base with
      db := { trees := [("alice", { groups := ["bob"] }), ("bob", { groups := ["Arch_gone"] })] } }
    let leaving (s : Service) := (s.run (Call.changeMembership "kralk" "alice" "bob" false)).1
    let behind : Service := { base with
      db := { trees := [("alice", { groups := ["Arch_gone"] })] }
      store := some { document := some base.db.toDocument } }
    (level (base.afterMade [deleted, asked "alice", made]) = some (some .write, some "Arch_law") ∧
      level (base.afterTurns [deleted, asked "alice", made]) = some (some .read, some "*")) ∧
    ((reset (base.afterMade [deleted, asked "alice"]) matches .ok ⟨_, .ok .reset⟩) ∧
      reset (base.afterTurns [deleted, asked "alice"]) matches .ok ⟨_, .error (.notFound _)⟩) ∧
    ((removal (base.afterMade [deleted, asked "carol"]) matches .ok ⟨_, _, _, .ok .removed⟩) ∧
      removal (base.afterTurns [deleted, asked "carol"]) matches
        .ok ⟨_, _, _, .ok .principalRemoved⟩) ∧
    (joined.Unrevived [asked "bob"] ∧
      (leaving (joined.afterMade [asked "bob"]) matches .ok ⟨_, _, .ok .removed, _⟩) ∧
      leaving (joined.afterTurns [asked "bob"]) matches .ok ⟨_, _, .error (.notAMember ..), _⟩) ∧
    (behind.Unrevived [asked "alice", .made .reload] ∧
      level (behind.afterMade [asked "alice", .made .reload]) = some (some .write, some "Arch_law") ∧
      level (behind.afterTurns [asked "alice", .made .reload]) = some (none, none)) := by
  decide +kernel

end Service

end PathAccess
