import PathAccess.Proofs.Database.Trees
import PathAccess.Proofs.Service.Calls
import PathAccess.Proofs.Tree.Frame
import PathAccess.Service.Grant
import PathAccess.Service.Membership
import PathAccess.Service.Reset
/-!
# What the changing calls do

One lemma for each call says all that it can do to the database where nothing is stale. A grant or a
removal either leaves it alone or edits one tree at a path where entries can stand, and then the actor
was entitled to it (`run_grant`). A change of membership or a reset leaves it alone if there is a
reason to refuse it.
-/

namespace PathAccess

namespace Service

variable (s : Service)

/-! ### Granting and removing -/

/-- What a grant or a removal that is carried out does to the database. -/
inductive Edited (db : Database) (target : String) (segments : List String) : Database → Prop
  /-- The entry is set, in a new tree if there is none. -/
  | granted (g : Grade) :
    Edited db target segments (db.set target ((db.treeOf target).grant segments g))
  /-- The entry is removed, and something is left of the tree. -/
  | removed (has : db.has target) (left : ((db.treeOf target).revoke segments).2.isEmpty = false) :
    Edited db target segments (db.set target ((db.treeOf target).revoke segments).2)
  /-- The entry is removed, and with it the tree. -/
  | principalRemoved (has : db.has target)
      (empty : ((db.treeOf target).revoke segments).2.isEmpty) :
    Edited db target segments (db.remove target)

/-- Where entries can stand: below ordinary names, and not at that of the memberships. -/
theorem exists_of_grantPathProblem?_eq_none {segments : List String}
    (h : grantPathProblem? segments = none) :
    ∃ path last, segments = path ++ [last] ∧ Ordinary path ∧ last ≠ groupsKey := by
  rcases List.eq_nil_or_concat segments with rfl | ⟨path, last, rfl⟩
  · simp [grantPathProblem?] at h
  · refine ⟨path, last, List.concat_eq_append, ?_, ?_⟩
    · intro name hname
      cases hres : isReserved name with
      | false => rfl
      | true =>
        have hany : path.any isReserved = true := List.any_eq_true.2 ⟨name, hname, hres⟩
        simp [grantPathProblem?, hany] at h
    · rintro rfl
      cases hany : path.any isReserved <;> simp [grantPathProblem?, hany] at h

theorem isEmpty_of_revoke_eq_principalRemoved {t u : Tree} {segments : List String}
    (h : t.revoke segments = (.principalRemoved, u)) : u.isEmpty := by
  unfold Tree.revoke at h
  split at h <;> rename_i hroot
  · simp at h
  · obtain ⟨houtcome, rfl⟩ := Prod.mk.inj h
    split at houtcome <;> rename_i hempty
    · exact hempty
    · simp at houtcome

theorem isEmpty_of_revoke_eq_removed {t u : Tree} {segments : List String}
    (h : t.revoke segments = (.removed, u)) : u.isEmpty = false := by
  unfold Tree.revoke at h
  split at h <;> rename_i hroot
  · simp at h
  · obtain ⟨houtcome, rfl⟩ := Prod.mk.inj h
    split at houtcome <;> rename_i hempty
    · simp at houtcome
    · simpa using hempty

/-- **A removal** finds nothing, or comes down to an edit that is recorded and saved. The root that the target
has then is that of its tree without the entry, also if there is no tree any more. -/
theorem run_removeEntry_cases (acting target : String) (segments : List String)
    (resolved : String) :
    s.run (Call.removeEntry acting target segments resolved) =
        (.ok (.error (.notFound target resolved)), s) ∨
      ∃ db e outcome, Edited s.db target segments db ∧ s.db.has target ∧
        ((s.db.treeOf target).revoke segments).1 ≠ .notFound ∧
        (s.db.Distinct →
          (db.treeOf target).root = ((s.db.treeOf target).revoke segments).2.root) ∧
        s.run (Call.removeEntry acting target segments resolved) =
          s.run (do
            modify ({ · with db })
            Call.audit e
            Call.persist
            return .ok outcome) := by
  rw [Call.removeEntry, run_bind_of_ok s.run_get]
  rcases hfind : s.db.find? target with - | t
  · left
    simp only [hfind]
    rfl
  · have htree := s.db.treeOf_of_find? hfind
    have hhas : s.db.has target := by simp [Database.has_eq_isSome_find?, hfind]
    simp only [hfind]
    rcases hrevoke : t.revoke segments with ⟨_ | _ | _, u⟩
    · exact Or.inl rfl
    · right
      have hleft : ((s.db.treeOf target).revoke segments).2.isEmpty = false := by
        rw [htree, hrevoke]
        exact isEmpty_of_revoke_eq_removed hrevoke
      have hedited : Edited s.db target segments _ := .removed hhas hleft
      rw [htree, hrevoke] at hedited ⊢
      refine ⟨_, _, _, hedited, hhas, by simp, fun _ ↦ ?_, rfl⟩
      rw [Database.treeOf_set, if_pos rfl]
    · right
      have hempty : ((s.db.treeOf target).revoke segments).2.isEmpty := by
        rw [htree, hrevoke]
        exact isEmpty_of_revoke_eq_principalRemoved hrevoke
      have hroot : u.root = {} := Tree.root_eq_of_isEmpty
        (isEmpty_of_revoke_eq_principalRemoved hrevoke)
      rw [htree, hrevoke]
      refine ⟨_, _, _, .principalRemoved hhas hempty, hhas, by simp, fun hdb ↦ ?_, rfl⟩
      rw [hdb.treeOf_remove, if_pos rfl, hroot]

/-- A removal finds nothing, or edits the database. -/
theorem run_removeEntry (acting target : String) (segments : List String) (resolved : String) :
    ∃ db, s.SameBut db (s.run (Call.removeEntry acting target segments resolved)).2 ∧
      (db = s.db ∨ Edited s.db target segments db ∧ s.db.has target) := by
  rcases s.run_removeEntry_cases acting target segments resolved with
    hrun | ⟨db, e, outcome, hedited, hhas, -, -, hrun⟩
  · rw [hrun]
    exact ⟨s.db, .refl s, Or.inl rfl⟩
  · rw [hrun]
    exact ⟨db, s.sameBut_change rfl e _, Or.inr ⟨hedited, hhas⟩⟩

/-- Whether an actor may make new groups. -/
def MayMakeGroups (acting : String) : Prop :=
  s.isArchwizard acting ∨ s.rules.isAdmin acting

section Grant

variable {s} {acting target : String}
  (htarget : (s.db.groupsOf s.groupSources target).pruned = [])

include htarget

/-- Asking whether a grant would change anything changes nothing. -/
theorem run_alreadyAtLevel (kind : PrincipalKind) (segments : List String) (g : Grade) :
    ∃ b, s.run (Call.alreadyAtLevel target kind segments g) = (.ok b, s) := by
  rw [Call.alreadyAtLevel, run_bind_of_ok (run_evaluate htarget segments)]
  split
  · exact ⟨_, rfl⟩
  · split
    · exact ⟨_, rfl⟩
    · exact ⟨_, rfl⟩

/-- **Setting an entry** is refused, or edits the database. Only who may make groups makes one. -/
theorem run_setEntry (segments : List String) (resolved : String) (g : Grade) :
    ∃ db, s.SameBut db (s.run (Call.setEntry acting target segments resolved g)).2 ∧
      (db = s.db ∨ Edited s.db target segments db ∧
        (s.rules.isGroup target → s.db.has target ∨ s.MayMakeGroups acting)) := by
  obtain ⟨b, hb⟩ := run_alreadyAtLevel htarget (s.rules.kindOf target) segments g
  rw [Call.setEntry, run_bind_of_ok s.run_get, run_bind_of_ok hb]
  split
  · exact ⟨s.db, .refl s, Or.inl rfl⟩
  · rw [run_bind_of_ok s.run_get]
    dsimp only
    split <;> rename_i hcreated
    · exact ⟨s.db, .refl s, Or.inl rfl⟩
    · refine ⟨_, s.sameBut_change rfl _ _, Or.inr ⟨.granted g, fun hgroup ↦ ?_⟩⟩
      have hkind : (s.rules.kindOf target == .group) = true := hgroup
      cases hhas : s.db.has target with
      | true => exact Or.inl rfl
      | false =>
        simp only [hkind, hhas, Bool.not_false, Bool.and_true, Bool.true_and, Bool.not_eq_true',
          Bool.not_eq_false, Bool.or_eq_true] at hcreated
        exact Or.inr hcreated

/-- **A grant on a resolved path** is refused, or edits the database. It is not refused only at a path
where entries can stand and to an actor who may hand out what is asked for. -/
theorem run_grantAt (hacting : (s.db.groupsOf s.groupSources acting).pruned = [])
    (segments : List String) (level : Level) :
    ∃ db, s.SameBut db (s.run (Call.grantAt acting target segments level)).2 ∧
      (db = s.db ∨ Edited s.db target segments db ∧ grantPathProblem? segments = none ∧
        (Level.mayGrant (s.evaluation (segments.filter (· != ownKey)) acting).level level ∨
          s.rules.isAdmin acting) ∧
        (s.rules.isGroup target → s.db.has target ∨ s.MayMakeGroups acting)) := by
  rw [Call.grantAt]
  cases hproblem : grantPathProblem? segments with
  | some problem => exact ⟨s.db, .refl s, Or.inl rfl⟩
  | none =>
    dsimp only
    rw [run_bind_of_ok s.run_get]
    split
    · exact ⟨s.db, .refl s, Or.inl rfl⟩
    · rw [run_bind_of_ok (run_evaluate hacting _)]
      split <;> rename_i hheld
      · exact ⟨s.db, .refl s, Or.inl rfl⟩
      · have hentitled : Level.mayGrant
            (s.evaluation (segments.filter (· != ownKey)) acting).level level = true ∨
              s.rules.isAdmin acting = true := by
          cases hgrant : Level.mayGrant
              (s.evaluation (segments.filter (· != ownKey)) acting).level level with
          | true => exact Or.inl rfl
          | false => exact Or.inr (by simpa [hgrant] using hheld)
        cases level with
        | none =>
          obtain ⟨db, hsame, hdb⟩ := s.run_removeEntry acting target segments (Path.render segments)
          exact ⟨db, hsame, hdb.imp_right fun h ↦ ⟨h.1, rfl, hentitled, fun _ ↦ Or.inl h.2⟩⟩
        | some g =>
          obtain ⟨db, hsame, hdb⟩ := run_setEntry htarget segments (Path.render segments) g
          exact ⟨db, hsame, hdb.imp_right fun h ↦ ⟨h.1, rfl, hentitled, h.2⟩⟩

/-- **A grant**, from whatever path it is asked for on. -/
theorem run_grant (hacting : (s.db.groupsOf s.groupSources acting).pruned = [])
    (path : Value) (level : Level) (cwd : Option String) :
    ∃ db, s.SameBut db (s.run (Call.grant acting target path level cwd)).2 ∧
      (db = s.db ∨ ∃ segments, Edited s.db target segments db ∧
        grantPathProblem? segments = none ∧
        (Level.mayGrant (s.evaluation (segments.filter (· != ownKey)) acting).level level ∨
          s.rules.isAdmin acting) ∧
        (s.rules.isGroup target → s.db.has target ∨ s.MayMakeGroups acting)) := by
  rw [Call.grant, run_bind_of_ok s.run_get]
  split <;> rename_i segments hresolve
  · exact ⟨s.db, .refl s, Or.inl rfl⟩
  · obtain ⟨db, hsame, hdb⟩ := run_grantAt htarget hacting segments level
    refine ⟨db, ?_, hdb.imp_right fun h ↦ ⟨segments, h⟩⟩
    rw [run_bind]
    rcases hrun : s.run (Call.grantAt acting target segments level) with ⟨r, s'⟩
    rw [hrun] at hsame
    cases r with
    | error e => exact hsame
    | ok a => exact hsame

end Grant

/-! ### Memberships and resets -/

section Refused

variable {s}

/-- **A change of membership** that is refused changes nothing. -/
theorem run_changeMembership {acting target group : String} {add : Bool}
    (htarget : (s.db.groupsOf s.groupSources target).pruned = [])
    (hproblem : (if add then
        Call.joiningProblem? s (s.db.groupsOf s.groupSources target) acting target group
      else Call.leavingProblem? s (s.db.groupsOf s.groupSources target) target group).isSome) :
    (s.run (Call.changeMembership acting target group add)).2 = s := by
  obtain ⟨refusal, hrefusal⟩ := Option.isSome_iff_exists.1 hproblem
  rw [Call.changeMembership, run_bind_of_ok s.run_get]
  split
  · rfl
  · rw [run_bind_of_ok (run_resolveGroups htarget), run_bind_of_ok s.run_get]
    dsimp only
    rw [hrefusal]
    rfl

/-- **A reset** that is refused changes nothing. -/
theorem run_reset {acting target : String} (hproblem : (Call.resetProblem? s acting target).isSome) :
    (s.run (Call.reset acting target)).2 = s := by
  obtain ⟨refusal, hrefusal⟩ := Option.isSome_iff_exists.1 hproblem
  rw [Call.reset, run_bind_of_ok s.run_get]
  split
  · rfl
  · rw [hrefusal]
    rfl

end Refused

end Service

end PathAccess
