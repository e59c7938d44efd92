import PathAccess.Proofs.Database.Trees
import PathAccess.Proofs.Evaluation.Verdicts
import PathAccess.Proofs.Service.Calls
/-!
# What the level of a principal depends on

Where nothing is stale, the level of a principal at a path is decided by the trees of a list of
names, `priority`: its own, those of its groups, and the default. Whether a name has an empty tree or
none makes no difference. So the level is a function of what the trees of these names say at the path
(`evaluation_congr`), and a change of the database that is seen at other paths only is not seen at
all.
-/

namespace PathAccess

namespace Service

variable (s : Service)

/-- The names whose trees apply to a principal, highest priority first. -/
def priority (name : String) : List String :=
  if name == defaultPrincipal then [name]
  else name :: (s.db.groupsOf s.groupSources name).groups ++ [defaultPrincipal]

/-- The level that the tree of a name gives at a path. -/
def levelOf (path : List String) (name : String) : Level :=
  (s.db.treeOf name).levelAt path

theorem levelOf_eq_bind (path : List String) (name : String) :
    s.levelOf path name = (s.db.find? name).bind (·.levelAt path) := by
  rw [levelOf, Database.treeOf]
  cases s.db.find? name with
  | none => exact Tree.levelAt_of_isEmpty rfl path
  | some t => rfl

/-- The verdict of a name's tree, if it has one. -/
theorem verdicts_find? (path : List String) (name : String) :
    verdicts ((s.db.find? name).map (⟨name, ·⟩ : Tree → OwnedTree)).toList path =
      ((s.levelOf path name).map (name, ·)).toList := by
  rw [levelOf_eq_bind]
  cases s.db.find? name with
  | none => rfl
  | some t => exact verdicts_singleton ⟨name, t⟩ path

/-- The verdicts of the trees of several names. -/
theorem verdicts_filterMap_find? (path : List String) (names : List String) :
    verdicts (names.filterMap fun name ↦ (s.db.find? name).map (⟨name, ·⟩)) path =
      names.filterMap fun name ↦ (s.levelOf path name).map (name, ·) := by
  rw [verdicts, List.filterMap_filterMap]
  congr 1
  funext name
  rw [levelOf_eq_bind]
  cases s.db.find? name <;> rfl

/-- The verdict of the default tree, which counts even if it is not stored. -/
theorem verdicts_defaultTree (path : List String) :
    verdicts [⟨defaultPrincipal, s.db.defaultTree⟩] path =
      ((s.levelOf path defaultPrincipal).map (defaultPrincipal, ·)).toList :=
  verdicts_singleton ⟨defaultPrincipal, s.db.defaultTree⟩ path

/-- **The verdicts on a principal**, by the names in order of priority. -/
theorem verdicts_treesOf (path : List String) (name : String) :
    verdicts (s.treesOf name).1 path =
      (s.priority name).filterMap fun n ↦ (s.levelOf path n).map (n, ·) := by
  rw [treesOf, priority]
  by_cases hname : name == defaultPrincipal
  · rw [if_pos hname, if_pos hname]
    obtain rfl := eq_of_beq hname
    rw [verdicts_defaultTree]
    cases h : s.levelOf path defaultPrincipal <;> simp [h]
  · rw [if_neg hname, if_neg hname]
    dsimp only
    rw [verdicts_append, verdicts_append, verdicts_find?, verdicts_filterMap_find?,
      verdicts_defaultTree, List.cons_append, List.filterMap_cons, List.filterMap_append]
    cases s.levelOf path name <;> cases h : s.levelOf path defaultPrincipal <;> simp [h]

/-- Whether a principal's own tree decides a path. -/
theorem ownDecides_treesOf (path : List String) (name : String) :
    ownDecides (s.treesOf name).1 path (s.treesOf name).2 =
      (!path.isEmpty && (s.levelOf path name).isSome) := by
  rw [treesOf, levelOf_eq_bind]
  by_cases hname : name == defaultPrincipal
  · rw [if_pos hname]
    obtain rfl := eq_of_beq hname
    rw [Database.defaultTree, Database.treeOf]
    cases s.db.find? defaultPrincipal with
    | none => simp [ownDecides]
    | some t => exact decision?_trace_eq_zero ⟨_, t⟩ [] path
  · rw [if_neg hname]
    dsimp only
    rw [List.append_assoc, ← Option.isSome_map, ownDecides_eq]
    cases s.db.find? name <;> rfl

variable {s}

/-- **The level of a principal at a path depends on what the trees that apply say there.** -/
theorem evaluation_congr {s' : Service} {path : List String} {name : String}
    (hhomes : s'.homes = s.homes) (hpriority : s'.priority name = s.priority name)
    (hlevel : ∀ n, s'.levelOf path n = s.levelOf path n) :
    s'.evaluation path name = s.evaluation path name := by
  rw [evaluation, evaluation, hhomes]
  refine evaluateFor_congr _ _ ?_ ?_
  · rw [verdicts_treesOf, verdicts_treesOf, hpriority]
    simp only [hlevel]
  · rw [ownDecides_treesOf, ownDecides_treesOf, hlevel]

end Service

end PathAccess
