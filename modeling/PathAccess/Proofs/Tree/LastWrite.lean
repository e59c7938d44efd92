import PathAccess.Proofs.Evaluation.Priority
import PathAccess.Proofs.Tree.Frame
import PathAccess.Proofs.Tree.Keyed
/-!
# The last write wins

A grant at a path of ordinary names sets the level at the path and everywhere below it, and nothing
else (`Tree.levelAt_grant`). So after a whole history of grants the level at a path is that of the
last one at or above the path, and where no grant reaches, the tree cannot be told from the one that
the history began with, in whichever list of trees it stands
(`evaluateTrees_grantAll?`).
-/

namespace PathAccess

namespace Branch

variable {b : Branch}

/-- **A grant is found at its path and at every path below it.** -/
theorem levelFrom_grant_of_prefix (hb : b.Keyed) {path query : List String}
    (hne : path ≠ []) (hpath : Ordinary path) (h : path <+: query) (g : Grade) (above : Level) :
    levelFrom (some (b.grant path g).toNode) above query = some g := by
  induction path generalizing b query above with
  | nil => exact absurd rfl hne
  | cons name path ih =>
    obtain ⟨segment, query, rfl⟩ := List.exists_cons_of_ne_nil (h.ne_nil hne)
    obtain ⟨rfl, hprefix⟩ := List.cons_prefix_cons.1 h
    cases path with
    | nil =>
      rw [grant, grantEntry_of_ne_modifier hpath.isModifier_head, levelFrom_putChild hb.distinct, if_pos rfl]
      split <;> rename_i hrest
      · simp [hrest]
      · simp
    | cons name' path =>
      obtain ⟨n, heq, hn⟩ := exists_grant_cons_cons b name name' path g
      rw [heq, levelFrom_putChild hb.distinct, if_pos rfl, hn]
      exact ih (hb.below_branch name) (List.cons_ne_nil _ _) hpath.tail hprefix _

/-- A grade for unnamed children is found at the name that stands for them, which no child has. -/
theorem levelFrom_grant_rest (hb : b.WellFormed) {path : List String} (hpath : Ordinary path)
    (g : Grade) (above : Level) :
    levelFrom (some (b.grant (path ++ [restKey]) g).toNode) above (path ++ [restKey]) =
      some g := by
  induction path generalizing b above with
  | nil =>
    have hunnamed : Entries.find? (b.grant [restKey] g).children restKey = none := by
      cases hf : Entries.find? (b.grant [restKey] g).children restKey with
      | none => rfl
      | some n =>
        have hgrant : (b.grant [restKey] g).WellFormed := hb.grantEntry (by decide) g
        exact absurd (hgrant.isReserved_of_find? hf) (by decide)
    rw [List.nil_append, levelFrom_toNode_cons, hunnamed]
    rfl
  | cons name path ih =>
    obtain ⟨name', rest, hnext⟩ := List.exists_cons_of_ne_nil
      (List.append_ne_nil_of_right_ne_nil path (List.cons_ne_nil restKey []))
    have hbelow := ih (hb.below_branch name) hpath.tail
    rw [hnext] at hbelow
    obtain ⟨n, heq, hn⟩ := exists_grant_cons_cons b name name' rest g
    rw [List.cons_append, hnext, heq, levelFrom_putChild hb.distinct, if_pos rfl, hn]
    exact hbelow _

end Branch

/-- A grant of a history. -/
structure PathGrant where
  /-- The path. -/
  path : List String
  /-- The grade that is granted there. -/
  grade : Grade

namespace Tree

variable {t : Tree}

/-- A grant is found at and below its path, whatever the names of the tree's children are. -/
theorem levelAt_grant_of_prefix (ht : t.Keyed) {path query : List String} (hne : path ≠ [])
    (hpath : Ordinary path) (h : path <+: query) (g : Grade) :
    (t.grant path g).levelAt query = some g := by
  obtain ⟨segment, query, rfl⟩ := List.exists_cons_of_ne_nil (h.ne_nil hne)
  exact Branch.levelFrom_grant_of_prefix ht hne hpath h g none

/-- A grant of a directory's `*` is found at that very path. -/
theorem levelAt_grant_rest (ht : t.WellFormed) {path : List String} (hpath : Ordinary path)
    (g : Grade) : (t.grant (path ++ [restKey]) g).levelAt (path ++ [restKey]) = some g := by
  have hlevel := Branch.levelFrom_grant_rest (b := t.root) ht hpath g none
  cases path <;> exact hlevel

/-- **The level after one grant**: its grade at or below its path, and the level before elsewhere. -/
theorem levelAt_grant (ht : t.WellFormed) {path : List String} (hne : path ≠ [])
    (hpath : Ordinary path) (g : Grade) (query : List String) :
    (t.grant path g).levelAt query = if path <+: query then some g else t.levelAt query := by
  split <;> rename_i h
  · exact levelAt_grant_of_prefix ht.keyed hne hpath h g
  · exact levelAt_grant_of_not_prefix ht (hpath.editBase.symm ▸ h) g

/-- One grant after the other. -/
def grantAll? (t : Tree) (grants : List PathGrant) : Except GrantError Tree :=
  grants.foldlM (fun t c ↦ t.grant? c.path (some c.grade)) t

theorem grant?_of_ne_nil (t : Tree) {path : List String} (h : path ≠ []) (g : Grade) :
    t.grant? path (some g) = .ok (t.grant path g) := by
  simp [grant?, h]

/-- The last grant at or above a path. -/
def lastGrant? (grants : List PathGrant) (query : List String) : Option PathGrant :=
  grants.reverse.find? fun c ↦ decide (c.path <+: query)

theorem lastGrant?_cons (c : PathGrant) (grants : List PathGrant) (query : List String) :
    lastGrant? (c :: grants) query =
      (lastGrant? grants query <|> if c.path <+: query then some c else none) := by
  simp only [lastGrant?, List.reverse_cons, List.find?_append, List.find?_cons, List.find?_nil]
  by_cases h : c.path <+: query <;> simp [h]

/-- **The level after a history**: that of the last grant at or above the path, or else the level
before. -/
theorem exists_grantAll? (ht : t.WellFormed) {grants : List PathGrant}
    (hgrants : ∀ c ∈ grants, c.path ≠ [] ∧ Ordinary c.path) :
    ∃ u, t.grantAll? grants = .ok u ∧ ∀ query, u.levelAt query =
      ((lastGrant? grants query).map (·.grade) <|> t.levelAt query) := by
  induction grants generalizing t with
  | nil => exact ⟨t, rfl, fun query ↦ by simp [lastGrant?]⟩
  | cons c grants ih =>
    obtain ⟨hne, hpath⟩ := hgrants c List.mem_cons_self
    obtain ⟨u, hu, hlevel⟩ := ih (ht.grant hpath c.grade)
      fun c' hc' ↦ hgrants c' (List.mem_cons_of_mem _ hc')
    refine ⟨u, ?_, fun query ↦ ?_⟩
    · rw [grantAll?, List.foldlM_cons, grant?_of_ne_nil t hne]
      exact hu
    · rw [hlevel, lastGrant?_cons, levelAt_grant ht hne hpath]
      cases lastGrant? grants query with
      | some c' => rfl
      | none => by_cases h : c.path <+: query <;> simp [h]

end Tree

/-- A tree can be replaced in a list by one with the same level. -/
theorem evaluateTrees_congr {t u : Tree} {query : List String}
    (h : u.levelAt query = t.levelAt query) (owner : String) (before after : List OwnedTree) :
    evaluateTrees (before ++ ⟨owner, u⟩ :: after) query =
      evaluateTrees (before ++ ⟨owner, t⟩ :: after) query := by
  induction before with
  | nil => simp only [List.nil_append, evaluateTrees_cons, h]
  | cons t' before ih => simp only [List.cons_append, evaluateTrees_cons, ih]

/-- **The last write wins, and nothing else changes.** A history of grants at ordinary paths succeeds.
At every path, if one of them was at the path or above it, the tree alone gives the level of the last
such grant. If none was, the tree gives in every list of trees, at every place, the level and the
source that the first tree gives there. -/
theorem evaluateTrees_grantAll? {t : Tree} (ht : t.WellFormed) {grants : List PathGrant}
    (hgrants : ∀ c ∈ grants, c.path ≠ [] ∧ Ordinary c.path) :
    ∃ u, t.grantAll? grants = .ok u ∧ ∀ query,
      match grants.reverse.find? fun c ↦ decide (c.path <+: query) with
      | some c => ∀ owner, evaluateTrees [⟨owner, u⟩] query = ⟨some c.grade, some owner, query⟩
      | none => ∀ owner before after,
        evaluateTrees (before ++ ⟨owner, u⟩ :: after) query =
          evaluateTrees (before ++ ⟨owner, t⟩ :: after) query := by
  obtain ⟨u, hu, hlevel⟩ := Tree.exists_grantAll? ht hgrants
  refine ⟨u, hu, fun query ↦ ?_⟩
  have hq := hlevel query
  unfold Tree.lastGrant? at hq
  split <;> rename_i hlast
  · intro owner
    simp [evaluateTrees_cons, hq, hlast]
  · intro owner before after
    exact evaluateTrees_congr (by simp [hq, hlast]) owner before after

/-- The second grant splits the leaf that the first one made, and the third takes both back. -/
theorem evaluateTrees_grantAll?_split :
    let t : Tree := { root := { children := [("d", .leaf .write)] } }
    let grants : List PathGrant :=
      [⟨["d", "x"], .read⟩, ⟨["d", "x", "y"], .grant⟩, ⟨["d", "x"], .revoked⟩]
    (t.WellFormed ∧ ∀ c ∈ grants, c.path ≠ [] ∧ Ordinary c.path) ∧
    ∃ u, t.grantAll? grants = .ok u ∧
      evaluateTrees [⟨"a", u⟩] ["d", "x", "y"] = ⟨some .revoked, some "a", ["d", "x", "y"]⟩ ∧
      evaluateTrees [⟨"a", u⟩] ["d", "z"] = ⟨some .write, some "a", ["d", "z"]⟩ := by
  intro t grants
  have ht : t.WellFormed := by decide
  have hgrants : ∀ c ∈ grants, c.path ≠ [] ∧ Ordinary c.path := by decide
  obtain ⟨u, hu, h⟩ := evaluateTrees_grantAll? ht hgrants
  refine ⟨⟨ht, hgrants⟩, u, hu, h ["d", "x", "y"] "a", ?_⟩
  exact h ["d", "z"] "a" [] []

end PathAccess
