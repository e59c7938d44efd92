import PathAccess.Proofs.Tree.Replacement
/-!
# Granting a modifier

A grant of a directory's `.` or `*` brings nothing into a shorter form, since every branch on the way has a
child afterwards and the last one keeps its modifier. So it is a change of one branch
(`Branch.grant_concat`), and its effect is that of the change on this branch.

The `.` of a directory is asked for at the directory's own path only, and there only if something stands
above. So a grant of `.` is not seen at any other path, and a grant of `*` is not seen at the directory's own
path while something stands above it. Where nothing does, the `*` answers for the directory as well, and a
grant of it is seen there (`Tree.alikeAt_grant_modifier`).

A grant of `*` deletes the leaves beside it that agree with it. This is never seen
(`Tree.alikeAt_grant_rest`).
-/

namespace PathAccess

/-- The `.` of a node. A leaf has one as soon as it is split. -/
def Node.own? : Node → Option Grade
  | leaf g => some g
  | branch own _ _ => own

theorem Node.isLeafOf_iff {g : Grade} {n : Node} : n.isLeafOf g ↔ n = .leaf g := by
  cases n <;> simp [Node.isLeafOf]

namespace Branch

variable {b : Branch} {path : List String}

/-! ### The branch that a grant of a modifier changes -/

/-- **A grant of a modifier changes one branch.** -/
theorem grant_concat {last : String} (hlast : isModifier last) (b : Branch) (path : List String)
    (g : Grade) : b.grant (path ++ [last]) g = b.changeAt path (·.grantEntry last g) := by
  induction path generalizing b with
  | nil => rfl
  | cons name path ih =>
    cases path with
    | nil => simp [grant, hlast, changeAt, putChild]
    | cons name' path =>
      obtain ⟨n, heq, hn⟩ := grant_cons_cons b name name' (path ++ [last]) g
      rw [← List.cons_append, ih (b.below name)] at hn
      have hkept : n = some ((b.below name).changeAt (name' :: path) (·.grantEntry last g)).toNode := by
        rcases hn with hn | hn
        · exact hn
        · exact hn.trans (compact_setChild _ _ _)
      rw [List.cons_append, List.cons_append, heq, hkept]
      rfl

theorem grantEntry_own (b : Branch) (g : Grade) : b.grantEntry ownKey g = { b with own := some g } :=
  rfl

theorem grantEntry_rest (b : Branch) (g : Grade) :
    b.grantEntry restKey g =
      { b with rest := some g, children := b.children.filter fun e ↦ !e.2.isLeafOf g } :=
  rfl

/-- **Deleting the leaves that agree with a new `*` is not seen below.** -/
theorem levelFrom_grantEntry_rest (hb : b.Keyed) (g : Grade) (above : Level) (segment : String)
    (query : List String) :
    levelFrom (some (b.grantEntry restKey g).toNode) above (segment :: query) =
      levelFrom (some (toNode { b with rest := some g })) above (segment :: query) := by
  rw [levelFrom_toNode_cons, levelFrom_toNode_cons, grantEntry_rest]
  have hfind := Entries.find?_filter hb.distinct (fun n ↦ !n.isLeafOf g) segment
  rw [hfind]
  cases h : Entries.find? b.children segment with
  | none => rfl
  | some n =>
    by_cases hleaf : n.isLeafOf g
    · obtain rfl := Node.isLeafOf_iff.1 hleaf
      simp [Option.filter, hleaf]
    · simp [Option.filter, hleaf]

theorem own_below {name : String} {n : Node} (h : Entries.find? b.children name = some n) :
    (b.below name).own = n.own? := by
  cases n <;> simp [below, h, Node.own?]

/-- The branch at the path of a node has its `.`. -/
theorem own_branchAt {n : Node} (h : b.toNode.nodeAt? path = some n) :
    (b.branchAt path).own = n.own? := by
  rcases List.eq_nil_or_concat path with rfl | ⟨init, last, rfl⟩
  · obtain rfl : b.toNode = n := Option.some.inj h
    rfl
  · rw [List.concat_eq_append] at h ⊢
    rw [← find?_branchAt] at h
    rw [branchAt, List.foldl_append]
    exact own_below h

/-- Above the path of a node there stands what stands there before the way is made. -/
theorem standingOver_eq {n : Node} (h : b.toNode.nodeAt? path = some n) (above : Level) :
    b.standingOver path above = (b.toNode.standingAbove path <|> above) := by
  induction path generalizing b above with
  | nil => rfl
  | cons name path ih =>
    rw [toNode, Node.nodeAt?_branch_cons] at h
    obtain ⟨c, hc, hcn⟩ := Option.bind_eq_some_iff.1 h
    have habove : b.toNode.standingAbove (name :: path) = (c.standingAbove path <|> b.rest) :=
      Node.standingAbove_branch_cons hc path
    rw [habove, standingOver]
    cases c with
    | branch own rest children =>
      have hbelow : b.below name = ⟨own, rest, children⟩ := by simp [below, hc]
      rw [hbelow, ih (b := ⟨own, rest, children⟩) hcn]
      simp only [toNode]
      cases (Node.branch own rest children).standingAbove path <;> rfl
    | leaf g =>
      -- A leaf names nothing, so the path ends at it.
      cases path with
      | nil => rfl
      | cons segment path => cases hcn

end Branch

namespace Tree

variable {t : Tree} {path : List String}

theorem grant_concat {last : String} (hlast : isModifier last) (t : Tree) (path : List String)
    (g : Grade) : t.grant (path ++ [last]) g = t.changeAt path (·.grantEntry last g) := by
  rw [grant, Branch.grant_concat hlast, changeAt]

theorem standingOver_of_nodeAt? {n : Node} (h : t.nodeAt? path = some n) :
    t.root.standingOver path none = t.standingAbove path := by
  rw [Branch.standingOver_eq h, standingAbove]
  cases t.root.toNode.standingAbove path <;> rfl

/-- The level at the path of a node is the answer of the branch there. -/
theorem levelAt_of_nodeAt? (hne : path ≠ []) {n : Node} (h : t.nodeAt? path = some n) :
    t.levelAt path = (t.root.branchAt path).answer (t.standingAbove path) := by
  have hself : path ++ [] ≠ [] := by rwa [List.append_nil]
  have hlevel := levelAt_append (t := t) hself
  rwa [List.append_nil, standingOver_of_nodeAt? h] at hlevel

/-- After a change it is the answer of the changed branch. -/
theorem levelAt_changeAt_of_nodeAt? (hne : path ≠ []) {n : Node} (h : t.nodeAt? path = some n)
    (f : Branch → Branch) :
    (t.changeAt path f).levelAt path = (f (t.root.branchAt path)).answer (t.standingAbove path) := by
  have hself : path ++ [] ≠ [] := by rwa [List.append_nil]
  have hlevel := levelAt_changeAt (t := t) (f := f) hself
  rwa [List.append_nil, standingOver_of_nodeAt? h] at hlevel

/-- **A grant of `.` is seen at the directory's own path only**, and a grant of `*` is not seen there as long
as something stands above. The path may name a leaf too, whose grade is the `.` of the directory into which
it is split. Where nothing stands above, a directory is not asked for its `.`, and the `*` that is granted is
seen at the directory's own path as well. -/
theorem alikeAt_grant_modifier (t : Tree) (hne : path ≠ []) (g : Grade) :
    (∀ n, t.nodeAt? path = some n →
      (∃ b : Branch, (t.grant (path ++ [restKey]) g).nodeAt? path = some b.toNode ∧ b.own = n.own?) ∧
      ((t.standingAbove path).isSome → (t.grant (path ++ [restKey]) g).AlikeAt t path) ∧
      (t.standingAbove path = none → ∀ owner,
        evaluateTrees [⟨owner, t.grant (path ++ [restKey]) g⟩] path = ⟨some g, some owner, path⟩)) ∧
    ∀ query, query ≠ path → (t.grant (path ++ [ownKey]) g).AlikeAt t query := by
  rw [grant_concat (by decide), grant_concat (by decide)]
  refine ⟨fun n hn ↦ ⟨?_, fun hstands ↦ ?_, fun hnone owner ↦ ?_⟩, fun query hquery ↦ ?_⟩
  · refine ⟨(t.root.branchAt path).grantEntry restKey g, ?_, Branch.own_branchAt hn⟩
    have hnode := Branch.nodeAt?_changeAt t.root path (·.grantEntry restKey g) []
    rw [List.append_nil] at hnode
    exact hnode
  · obtain ⟨above, habove⟩ := Option.isSome_iff_exists.1 hstands
    rw [alikeAt_iff, levelAt_changeAt_of_nodeAt? hne hn, levelAt_of_nodeAt? hne hn, habove]
    rfl
  · rw [evaluateTrees_alone, levelAt_changeAt_of_nodeAt? hne hn, hnone]
    rfl
  · rw [alikeAt_iff]
    by_cases hprefix : path <+: query
    · obtain ⟨query, rfl⟩ := hprefix
      have hbelow : query ≠ [] := fun hnil ↦ hquery (by rw [hnil, List.append_nil])
      obtain ⟨segment, query, rfl⟩ := List.exists_cons_of_ne_nil hbelow
      rw [levelAt_changeAt (by simp), levelAt_append (by simp), Branch.grantEntry_own]
      rfl
    · exact levelAt_changeAt_of_not_prefix hprefix

/-- A directory below a root with a `*`, whose `.` answers before the grant of its `*` and after it, and the
same directory below a root without one. -/
theorem alikeAt_grant_modifier_standing :
    let d : Node := .branch (some .write) (some .revoked) []
    let t : Tree := { root := { rest := some .read, children := [("d", d)] } }
    let u : Tree := { root := { children := [("d", d)] } }
    (["d"] ≠ [] ∧ (t.nodeAt? ["d"] = some d ∧ (t.standingAbove ["d"]).isSome) ∧
      u.nodeAt? ["d"] = some d ∧ u.standingAbove ["d"] = none) ∧
    (t.grant ["d", restKey] .grant).AlikeAt t ["d"] ∧
      (t.grant ["d", ownKey] .grant).AlikeAt t ["d", "x"] ∧
      evaluateTrees [⟨"a", u.grant ["d", restKey] .grant⟩] ["d"] = ⟨some .grant, some "a", ["d"]⟩ := by
  intro d t u
  have hne : ["d"] ≠ [] := List.cons_ne_nil _ _
  have hstands : (t.standingAbove ["d"]).isSome := by decide
  have hnone : u.standingAbove ["d"] = none := by decide
  have ht := alikeAt_grant_modifier t hne .grant
  have hu := alikeAt_grant_modifier u hne .grant
  refine ⟨⟨hne, ⟨rfl, hstands⟩, rfl, hnone⟩, ?_, ?_, ?_⟩
  · exact (ht.1 d rfl).2.1 hstands
  · exact ht.2 ["d", "x"] (by decide)
  · exact (hu.1 d rfl).2.2 hnone "a"

/-- **The `*` of a directory answers for the directory itself** where nothing stands above it: a grant of it
raises the level there, although the directory has a `.` and keeps it. -/
theorem directory_raised_by_grant_of_rest :
    let t : Tree := { root := { children := [("d", .branch (some .read) (some .revoked) [])] } }
    (t.WellFormed ∧ Ordinary ["d"] ∧
      t.nodeAt? ["d"] = some (.branch (some .read) (some .revoked) [])) ∧
    evaluateTrees [⟨"a", t⟩] ["d"] = ⟨some .revoked, some "a", ["d"]⟩ ∧
      evaluateTrees [⟨"a", t.grant ["d", restKey] .write⟩] ["d"] = ⟨some .write, some "a", ["d"]⟩ :=
  ⟨⟨by decide, by decide, rfl⟩, rfl, rfl⟩

/-- **A grant of `*` is nothing but a grant of `*`.** No evaluation of any path tells the tree from the one
in which the `*` is set and no leaf beside it is deleted. And the tree alone gives the grade for every path
through a child that the directory does not name, before the grant or after it. -/
theorem alikeAt_grant_rest (ht : t.Keyed) (path : List String) (g : Grade) :
    (∀ query, (t.grant (path ++ [restKey]) g).AlikeAt
      (t.changeAt path fun b ↦ { b with rest := some g }) query) ∧
    ∀ name, (t.nodeAt? (path ++ [name]) = none ∨
        (t.grant (path ++ [restKey]) g).nodeAt? (path ++ [name]) = none) →
      ∀ query owner, evaluateTrees [⟨owner, t.grant (path ++ [restKey]) g⟩] (path ++ name :: query) =
        ⟨some g, some owner, path ++ name :: query⟩ := by
  rw [grant_concat (by decide)]
  refine ⟨alikeAt_changeAt rfl rfl ?_, fun name hname query owner ↦ ?_⟩
  · exact Branch.levelFrom_grantEntry_rest (Branch.Keyed.branchAt ht path) g
  · have hunnamed : Entries.find?
        ((t.root.branchAt path).grantEntry restKey g).children name = none := by
      rcases hname with hbefore | hafter
      · -- The grant names nothing new.
        rw [nodeAt?, ← Branch.find?_branchAt, Entries.find?_eq_none_iff] at hbefore
        rw [Entries.find?_eq_none_iff]
        exact fun hmem ↦ hbefore ((List.filter_sublist.map _).subset hmem)
      · rw [← Branch.nodeAt?_singleton, ← Branch.nodeAt?_changeAt t.root path (·.grantEntry restKey g)]
        exact hafter
    rw [evaluateTrees_alone, levelAt_changeAt (by simp), levelFrom_toNode_cons, hunnamed,
      levelFrom_none]
    rfl

/-- The leaf that agrees with the new `*` is deleted, and its name and those below it still have the grade. -/
theorem alikeAt_grant_rest_sibling :
    let t : Tree := {
      root := { children := [("d", .branch none none [("a", .leaf .write), ("b", .leaf .read)])] } }
    let kept : Tree := {
      root := { children := [("d", .branch none (some .write) [("a", .leaf .write), ("b", .leaf .read)])] } }
    (t.Keyed ∧ (t.grant ["d", restKey] .write).nodeAt? ["d", "a"] = none) ∧
      (∀ query, (t.grant ["d", restKey] .write).AlikeAt kept query) ∧
      evaluateTrees [⟨"o", t.grant ["d", restKey] .write⟩] ["d", "a", "x"] =
        ⟨some .write, some "o", ["d", "a", "x"]⟩ := by
  intro t kept
  have ht : t.Keyed := (by decide : t.WellFormed).keyed
  have h := alikeAt_grant_rest ht ["d"] .write
  exact ⟨⟨ht, rfl⟩, h.1, h.2 "a" (Or.inr rfl) ["x"] "o"⟩

end Tree

end PathAccess
