import PathAccess.Proofs.Service.Courses
/-!
# The rules about homes and the own tree

Three things are asked for the level of a principal at a path, one after the other: its own tree, the
rules about homes, and the trees of its groups with the default tree (`Service.level_evaluation`). Where a
rule speaks, the last are never asked. So in one's own home, and in the open directories of all homes, the
level depends on the own tree alone: on what it says, and on whether it says anything
(`Service.effectiveLevel_ruled`).

A store can only prevent an answer. To look up the groups may prune memberships, and if the store
refuses to save then, the call fails (`Service.run_effectiveLevel_cases`).
-/

namespace PathAccess

namespace Homes

variable {h : Homes} {first second name : String} {rest : List String}

theorem ruled?_own (hfirst : first ∈ h.roots) :
    h.ruled? (first :: name :: rest) name = some .grant := by
  simp [ruled?, hfirst]

theorem ruled?_open (hfirst : first ∈ h.roots) (hsecond : second ≠ name)
    (hopen : rest.head? = some h.openDir) :
    h.ruled? (first :: second :: rest) name = some .read := by
  simp [ruled?, hfirst, hsecond, hopen]

end Homes

namespace Service

variable {s : Service} {path : List String} {name : String}

/-! ### What decides -/

/-- Dropping what gives nothing does not change what is found first. -/
theorem findSome?_filter_of_eq_none {α β : Type} {f : α → Option β} {p : α → Bool} {l : List α}
    (h : ∀ a ∈ l, p a = false → f a = none) : (l.filter p).findSome? f = l.findSome? f := by
  rw [← List.head?_filterMap, ← List.head?_filterMap, List.filterMap_filter]
  congr 1
  refine List.filterMap_congr fun a ha ↦ ?_
  cases hp : p a with
  | true => simp
  | false => simp [h a ha hp]

/-- The level of the first tree that says something among those that apply to a principal, its own apart. -/
def others (s : Service) (path : List String) (name : String) : Level :=
  ((s.priority name).filter (· != name)).findSome? (s.levelOf path)

/-- The first verdict on a principal is that of its own tree, or else of the first other that gives one. -/
theorem head?_verdicts_treesOf (s : Service) (path : List String) (name : String) :
    (verdicts (s.treesOf name).1 path).head?.map (·.2) =
      (s.levelOf path name <|> s.others path name) := by
  have hfirst : (verdicts (s.treesOf name).1 path).head?.map (·.2) =
      (s.priority name).findSome? (s.levelOf path) := by
    rw [verdicts_treesOf, List.head?_filterMap, List.map_findSome?]
    simp [Function.comp_def]
  rw [hfirst, others]
  cases hown : s.levelOf path name with
  | none =>
    rw [findSome?_filter_of_eq_none fun n _ hn ↦ ?_]
    · rfl
    · obtain rfl : n = name := by simpa using hn
      exact hown
  | some g =>
    obtain ⟨names, hnames⟩ : ∃ names, s.priority name = name :: names := by
      rw [priority]
      split <;> exact ⟨_, rfl⟩
    rw [hnames, List.findSome?_cons, hown]
    rfl

/-- **A rule decides** where the own tree says nothing. -/
theorem evaluation_of_ruled {g : Grade} (hown : s.levelOf path name = none)
    (hruled : s.homes.ruled? path name = some g) :
    s.evaluation path name = ⟨some g, some ruledSource, path⟩ := by
  have hdecides : ownDecides (s.treesOf name).1 path (s.treesOf name).2 = false := by
    rw [ownDecides_treesOf, hown]
    simp
  change (if ownDecides (s.treesOf name).1 path (s.treesOf name).2 then _ else _) = _
  rw [hdecides, hruled]
  rfl

/-- **What decides the level of a principal at a path**: its own tree, then the rules about homes, then the
first of the other trees that apply. -/
theorem level_evaluation (s : Service) (path : List String) (name : String) :
    (s.evaluation path name).level =
      (s.levelOf path name <|> s.homes.ruled? path name <|> s.others path name) := by
  have htrees : (evaluateTrees (s.treesOf name).1 path).level =
      (s.levelOf path name <|> s.others path name) := by
    rw [evaluateTrees_eq_head?_verdicts, ← head?_verdicts_treesOf]
  cases hruled : s.homes.ruled? path name with
  | none =>
    rw [evaluation, evaluateFor, hruled]
    simpa using htrees
  | some g =>
    cases hown : s.levelOf path name with
    | none =>
      rw [evaluation_of_ruled hown hruled]
      rfl
    | some own =>
      -- Rules speak of paths with two segments and more.
      have hpath : path ≠ [] := by
        rintro rfl
        cases hruled
      rw [evaluation_of_own hpath hown]
      rfl

/-! ### Asking -/

/-- Whether to ask for the level of a principal at a path gives an evaluation. The one way in which it may
not is that memberships have to be pruned and the store refuses to save. -/
def Answers (s : Service) (path : Value) (name : String) (cwd : Option String) (e : Evaluation) :
    Prop :=
  (s.run (Call.effectiveLevel path name cwd)).1 = .ok e ∨
    ¬s.Settled name ∧ ∃ store ∈ s.store, ∃ refusal ∈ store.fault,
      (s.run (Call.effectiveLevel path name cwd)).1 = .error (.unsaved refusal)

/-- **The level is answered**, whatever the store does. -/
theorem answers_evaluation (hdb : s.db.Distinct) {path : Value} {cwd : Option String}
    {segments : List String}
    (hpath : s.resolver.resolve path (some name) cwd false = .ok segments) :
    s.Answers path name cwd (s.evaluation segments name) := by
  by_cases hsettled : s.Settled name
  · exact Or.inl (congrArg Prod.fst (hsettled.run_effectiveLevel hpath))
  by_cases hsave : s.CanSave
  · exact Or.inl (congrArg Prod.fst (hsave.run_effectiveLevel hdb hpath))
  obtain ⟨store, hstore, refusal, hfault⟩ :
      ∃ store, s.store = some store ∧ ∃ refusal, store.fault = some refusal := by
    simpa [CanSave, Option.ne_none_iff_exists'] using hsave
  -- The lookup of the principal's groups prunes something, which is the end of the call.
  obtain ⟨hname, hpruned⟩ := not_or.1 hsettled
  have hstale : s.firstStale? (readers name) = some name := by
    have hchanged : (s.db.groupsOf s.groupSources name).changed = true := by
      simp [GroupResolution.changed, hpruned]
    rw [readers, if_neg (by simpa using hname)]
    exact List.find?_cons_of_pos hchanged
  have hresolve : s.run (Call.resolvePath path (some name) cwd) = (.ok segments, s) := by
    rw [run_resolvePath, hpath]
    rfl
  have hcourse := run_call_of_fault
    { names := readers name, result := .ok (s.evaluation segments name) } hstore hfault
  rw [← (s.follows_evaluate name hdb segments).run_eq, hstale] at hcourse
  refine Or.inr ⟨hsettled, store, hstore, refusal, hfault, ?_⟩
  rw [Call.effectiveLevel, run_bind_of_ok hresolve, hcourse]

/-! ### Homes -/

/-- The level that the own tree gives alone, or else the one of a rule. -/
def ownOr (s : Service) (name : String) (path : List String) (ruled : Grade) : Evaluation :=
  match (evaluateTrees [⟨name, s.db.treeOf name⟩] path).level with
  | some own => ⟨some own, some name, path⟩
  | none => ⟨some ruled, some ruledSource, path⟩

theorem evaluation_eq_ownOr {g : Grade} (hruled : s.homes.ruled? path name = some g) :
    s.evaluation path name = s.ownOr name path g := by
  have hlevel : (evaluateTrees [⟨name, s.db.treeOf name⟩] path).level = s.levelOf path name :=
    evaluateTrees_singleton ⟨name, s.db.treeOf name⟩ path
  rw [ownOr, hlevel]
  cases hown : s.levelOf path name with
  | none => exact evaluation_of_ruled hown hruled
  | some own =>
    have hpath : path ≠ [] := by
      rintro rfl
      cases hruled
    exact evaluation_of_own hpath hown

/-- What a rule leaves to the own tree depends on nothing but the root of that tree. -/
theorem ownOr_congr {s' : Service} (h : (s'.db.treeOf name).root = (s.db.treeOf name).root)
    (path : List String) (g : Grade) : s'.ownOr name path g = s.ownOr name path g := by
  rw [ownOr, ownOr, evaluateTrees_singleton, evaluateTrees_singleton, Tree.levelAt_of_root_eq h]

variable {path : Value} {cwd : Option String} {first second : String} {rest : List String}

/-- **Ruled homes depend only on the own tree.** Let a principal ask for its level at a path that resolves to
one with two segments or more, below one of the directories of homes. If the second segment is the
principal's name, then the level is what its own tree gives alone, and the full grant by a rule if that is
nothing. If it is not and the third is the open directory, then the same holds with reading for the full
grant. So any two services with the same directories, and with the same root of that one tree, give the
same answer, whatever their other trees, memberships, affiliations and stores may be. -/
theorem effectiveLevel_ruled (hdb : s.db.Distinct)
    (hpath : s.resolver.resolve path (some name) cwd false = .ok (first :: second :: rest))
    (hfirst : first ∈ s.homes.roots) :
    (second = name →
      s.Answers path name cwd (s.ownOr name (first :: second :: rest) .grant)) ∧
    (second ≠ name → rest.head? = some s.layout.openDir →
      s.Answers path name cwd (s.ownOr name (first :: second :: rest) .read)) ∧
    (second = name ∨ rest.head? = some s.layout.openDir → ∀ s' : Service, s'.db.Distinct →
      s'.layout = s.layout → (s'.db.treeOf name).root = (s.db.treeOf name).root →
      ∀ path' cwd',
        s'.resolver.resolve path' (some name) cwd' false = .ok (first :: second :: rest) →
        ∃ e, s.Answers path name cwd e ∧ s'.Answers path' name cwd' e) := by
  have hanswer : ∀ g, s.homes.ruled? (first :: second :: rest) name = some g →
      s.Answers path name cwd (s.ownOr name (first :: second :: rest) g) := by
    intro g hruled
    rw [← evaluation_eq_ownOr hruled]
    exact answers_evaluation hdb hpath
  refine ⟨?_, fun hother hopen ↦ hanswer _ (Homes.ruled?_open hfirst hother hopen),
    fun hhome s' hdb' hlayout hroot path' cwd' hpath' ↦ ?_⟩
  · rintro rfl
    exact hanswer _ (Homes.ruled?_own hfirst)
  · obtain ⟨g, hruled⟩ : ∃ g, s.homes.ruled? (first :: second :: rest) name = some g := by
      by_cases hown : second = name
      · rw [hown]
        exact ⟨_, Homes.ruled?_own hfirst⟩
      · exact ⟨_, Homes.ruled?_open hfirst hown (hhome.resolve_left hown)⟩
    have hruled' : s'.homes.ruled? (first :: second :: rest) name = some g := by
      rw [homes, hlayout]
      exact hruled
    refine ⟨_, hanswer g hruled, ?_⟩
    rw [← ownOr_congr hroot, ← evaluation_eq_ownOr hruled']
    exact answers_evaluation hdb' hpath'

/-- One of bob's groups denies him the directory, the other is gone, and the default tree denies everything.
Yet he may read, just as without any of them. -/
theorem effectiveLevel_ruled_bob :
    let s : Service := {
      db := { trees := [
        ("*", { root := { rest := some .revoked } }),
        ("bob", { root := { children := [("tmp", .leaf .write)] }, groups := ["Arch_gone", "Arch_law"] }),
        ("Arch_law", { root := { children := [("d", .leaf .revoked)] } })] }
      identity := some { players := [("bob", {}), ("alice", {})] } }
    let bare : Service := {
      db := { trees := [("bob", { root := { children := [("tmp", .leaf .write)] } })] } }
    let asked := (s.run (Call.effectiveLevel (.text "/d/alice/open/x") "bob" none)).1
    asked = .ok ⟨some .read, some "!", ["d", "alice", "open", "x"]⟩ ∧
      asked = (bare.run (Call.effectiveLevel (.text "/d/alice/open/x") "bob" none)).1 := by
  intro s bare asked
  have hdb : s.db.Distinct := by
    unfold Database.Distinct
    decide
  have hbare : bare.db.Distinct := by
    unfold Database.Distinct
    decide
  have hpath : s.resolver.resolve (.text "/d/alice/open/x") (some "bob") none false =
      .ok ["d", "alice", "open", "x"] := congrArg Except.ok (by decide)
  have hpath' : bare.resolver.resolve (.text "/d/alice/open/x") (some "bob") none false =
      .ok ["d", "alice", "open", "x"] := congrArg Except.ok (by decide)
  obtain ⟨-, hopen, hsame⟩ := effectiveLevel_ruled hdb hpath (by decide)
  obtain ⟨e, hasked, hbared⟩ := hsame (.inr rfl) bare hbare rfl rfl _ _ hpath'
  -- Without a store nothing fails.
  have hanswered : ∀ {t : Service} {e : Evaluation}, t.store = none →
      t.Answers (.text "/d/alice/open/x") "bob" none e →
      (t.run (Call.effectiveLevel (.text "/d/alice/open/x") "bob" none)).1 = .ok e := by
    rintro t e hstore (hok | ⟨-, store, hmem, -⟩)
    · exact hok
    · rw [hstore] at hmem
      cases hmem
  refine ⟨hanswered rfl (hopen (by decide) rfl), ?_⟩
  exact (hanswered rfl hasked).trans (hanswered rfl hbared).symm

end Service

end PathAccess
