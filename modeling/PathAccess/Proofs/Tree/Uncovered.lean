import PathAccess.Proofs.Tree.Alike
import PathAccess.Proofs.Tree.Frame
import PathAccess.Proofs.Tree.Keyed
import PathAccess.Proofs.Tree.Meaning
/-!
# What a removal uncovers

An entry of a tree covers what would hold at its place without it. This can be told from the tree before the
entry is removed (`Tree.beneath`): below a child it is what stands at its parent, below a `*` what stands
above the directory, and below a `.` the same or, if nothing stands there, the `*` of the directory.

A removal does more than to delete the entry. On the way back it folds branches and removes empty ones. But
at and below the directory of the entry the level is read as if only the entry were gone
(`Branch.exists_of_revoke?_eq_some`), since the shortest form of a branch says what the branch says.

## Main results

* `Tree.levelAt_revoke`: a removal of any entry uncovers what lies beneath it.
* `Tree.alikeAt_revoke`: a removal of a child is refused exactly if the path names none. Otherwise what stands
  at the parent is uncovered at and below the path, and no evaluation of any other path shows the removal.
-/

namespace PathAccess

/-- What stands above a path from a node on: the `*` of the deepest branch among the proper prefixes of the
path that sets one. -/
def Node.standingAbove (n : Node) (path : List String) : Level :=
  (path.inits.dropLast.filterMap n.restAt?).getLast?

/-- What stands above a path in a tree. -/
def Tree.standingAbove (t : Tree) (path : List String) : Level :=
  t.root.toNode.standingAbove path

/-- The `*` of the branch that a path names in a tree. -/
def Tree.restAt? (t : Tree) (path : List String) : Option Grade :=
  t.root.toNode.restAt? path

/-- What lies beneath the entry at a path, given as the path of its directory and its name there. -/
def Tree.beneath (t : Tree) (path : List String) (name : String) : Level :=
  if name = ownKey then t.standingAbove path <|> t.restAt? path
  else if name = restKey then t.standingAbove path
  else t.standingAt path

namespace Node

variable {n m : Node} {path : List String}

theorem dropLast_inits_cons (segment : String) (path : List String) :
    (segment :: path).inits.dropLast = [] :: path.inits.dropLast.map (segment :: ·) := by
  have hne : path.inits.map (segment :: ·) ≠ [] := by
    rw [Ne, List.map_eq_nil_iff]
    cases path <;> simp
  rw [List.inits_cons, List.dropLast_cons_of_ne_nil hne, List.map_dropLast]

/-- What stands at a path: the `*` of its branch, or else what stands above it. -/
theorem standingAt_eq (n : Node) (path : List String) :
    n.standingAt path = (n.restAt? path <|> n.standingAbove path) := by
  have hinits : path.inits = path.inits.dropLast ++ [path] := by
    induction path with
    | nil => rfl
    | cons segment path ih =>
      rw [dropLast_inits_cons, List.inits_cons, List.cons_append, ← List.map_singleton,
        ← List.map_append, ← ih]
  rw [standingAt, standingAbove, hinits, List.filterMap_append, List.getLast?_append, ← hinits]
  cases h : n.restAt? path <;> simp [h]

theorem standingAbove_branch_cons {own rest : Option Grade} {children : List (String × Node)}
    {segment : String} {c : Node} (h : Entries.find? children segment = some c)
    (path : List String) :
    (branch own rest children).standingAbove (segment :: path) =
      (c.standingAbove path <|> rest) := by
  rw [standingAbove, standingAbove, dropLast_inits_cons, getLast?_filterMap_restAt? h]

theorem WellFormed.of_nodeAt? (hn : n.WellFormed) (h : n.nodeAt? path = some m) : m.WellFormed := by
  induction path generalizing n with
  | nil =>
    obtain rfl : n = m := Option.some.inj h
    exact hn
  | cons segment path ih =>
    cases n with
    | leaf g => cases h
    | branch own rest children =>
      obtain ⟨c, hc, hcm⟩ := Option.bind_eq_some_iff.1 h
      exact ih ((wellFormed_branch_iff.1 hn).of_find? hc) hcm

end Node

namespace Branch

variable {b : Branch}

/-! ### A directory without one of its entries -/

/-- Without its `.`, a directory is what stands above it, or else its `*`. -/
theorem levelFrom_remove_own (b : Branch) (above : Level) :
    levelFrom (some (b.remove ownKey).toNode) above [] = (above <|> b.rest) := by
  rw [levelFrom_toNode_nil, answer]
  cases above <;> simp [Branch.remove]

/-- Without its `*`, it has what stands above it for those that it does not name. -/
theorem levelFrom_remove_rest (hb : b.WellFormed) (above : Level) :
    levelFrom (some (b.remove restKey).toNode) above [restKey] = above := by
  have hunnamed : Entries.find? (b.remove restKey).children restKey = none := by
    by_contra hsome
    obtain ⟨n, hn⟩ := Option.ne_none_iff_exists'.1 hsome
    exact absurd ((hb.remove restKey).isReserved_of_find? hn) (by decide)
  rw [levelFrom_toNode_cons, hunnamed, levelFrom_none]
  rfl

/-- Without a child, it has its `*` there and below, or else what stands above it. -/
theorem levelFrom_remove_child (hb : b.WellFormed) {name : String} (hname : isModifier name = false)
    (above : Level) (query : List String) :
    levelFrom (some (b.remove name).toNode) above (name :: query) = (b.rest <|> above) := by
  rw [remove_of_ne_modifier hname, levelFrom_putChild hb.distinct, if_pos rfl, levelFrom_none]

/-- **After a removal** the level at and below the directory of the entry is read from that directory
without the entry, with what stands above it. -/
theorem exists_of_revoke?_eq_some (hb : b.Keyed) {path : List String} {last : String} {c : Branch}
    (hc : b.revoke? (path ++ [last]) = some c) :
    ∃ d : Branch, b.toNode.nodeAt? path = some d.toNode ∧ ∀ above query,
      levelFrom (some c.toNode) above (path ++ query) =
        levelFrom (some (d.remove last).toNode) (b.toNode.standingAbove path <|> above) query := by
  induction path generalizing b c with
  | nil =>
    obtain ⟨-, rfl⟩ := revoke?_singleton_eq_some_iff.1 hc
    exact ⟨b, rfl, fun above query ↦ rfl⟩
  | cons name path ih =>
    obtain ⟨name', rest', hnext⟩ := List.exists_cons_of_ne_nil
      (List.append_ne_nil_of_right_ne_nil path (List.cons_ne_nil last []))
    rw [List.cons_append, hnext] at hc
    obtain ⟨own, rest, children, child, hf, hchild, rfl⟩ := revoke?_cons_cons_eq_some_iff.1 hc
    rw [← hnext] at hchild
    have hbelow : Branch.Keyed ⟨own, rest, children⟩ := by
      obtain _ | ⟨distinct, below⟩ := hb.below _ (Entries.mem_of_find? hf)
      exact ⟨distinct, below⟩
    obtain ⟨d, hd, hlevel⟩ := ih hbelow hchild
    refine ⟨d, ?_, fun above query ↦ ?_⟩
    · rw [toNode, Node.nodeAt?_branch_cons, hf]
      exact hd
    · -- The way back puts the child in its shortest form, which says the same.
      have habove : b.toNode.standingAbove (name :: path) =
          ((Branch.toNode ⟨own, rest, children⟩).standingAbove path <|> b.rest) :=
        Node.standingAbove_branch_cons hf path
      rw [List.cons_append, levelFrom_putChild hb.distinct, if_pos rfl, levelFrom_compact, hlevel,
        habove]
      congr 1
      cases (Branch.toNode ⟨own, rest, children⟩).standingAbove path <;> rfl

theorem nodeAt?_singleton (b : Branch) (name : String) :
    b.toNode.nodeAt? [name] = Entries.find? b.children name := by
  rw [toNode, Node.nodeAt?_branch_cons]
  exact Option.bind_fun_some _

/-- **A child can be removed exactly if the path names it.** -/
theorem isSome_revoke?_iff {path : List String} {last : String} (hlast : isModifier last = false) :
    (b.revoke? (path ++ [last])).isSome ↔ (b.toNode.nodeAt? (path ++ [last])).isSome := by
  simp only [Option.isSome_iff_exists]
  induction path generalizing b with
  | nil =>
    simp only [List.nil_append, revoke?_singleton_eq_some_iff, find?_of_ne_modifier hlast,
      nodeAt?_singleton,
      Option.isSome_iff_exists, exists_and_left, exists_eq, and_true]
  | cons name path ih =>
    obtain ⟨name', rest', hnext⟩ := List.exists_cons_of_ne_nil
      (List.append_ne_nil_of_right_ne_nil path (List.cons_ne_nil last []))
    rw [List.cons_append, toNode, Node.nodeAt?_branch_cons]
    simp only [Option.bind_eq_some_iff]
    rw [hnext] at ih ⊢
    constructor
    · rintro ⟨c, hc⟩
      obtain ⟨own, rest, children, child, hf, hchild, -⟩ := revoke?_cons_cons_eq_some_iff.1 hc
      obtain ⟨m, hm⟩ := ih.1 ⟨child, hchild⟩
      exact ⟨m, _, hf, hm⟩
    · rintro ⟨m, n, hf, hm⟩
      cases n with
      | leaf g => cases hm
      | branch own rest children =>
        obtain ⟨child, hchild⟩ := (ih (b := ⟨own, rest, children⟩)).2 ⟨m, hm⟩
        exact ⟨_, revoke?_cons_cons_eq_some_iff.2 ⟨_, _, _, child, hf, hchild, rfl⟩⟩

end Branch

namespace Tree

variable {t : Tree} {path : List String} {last : String}

/-- The level at a path is read from the root, which at the path root needs that the root has no `.`. -/
theorem levelAt_eq_levelFrom {query : List String} (h : query = [] → t.root.own = none) :
    t.levelAt query = levelFrom (some t.root.toNode) none query := by
  cases query with
  | nil => simp [levelAt, levelFrom_toNode_nil, Branch.answer, h rfl]
  | cons segment query => rfl

theorem revoke_eq_notFound_iff {query : List String} :
    (t.revoke query).1 = .notFound ↔ t.root.revoke? query = none := by
  rw [revoke]
  cases t.root.revoke? query with
  | none => simp
  | some c => by_cases h : Tree.isEmpty { t with root := c } <;> simp [h]

/-- After a removal the level of the tree at and below the directory of the entry is read from that directory
without the entry. At the path root this needs that the root has no `.`. -/
theorem exists_levelAt_revoke (ht : t.WellFormed) (h : (t.revoke (path ++ [last])).1 ≠ .notFound) :
    ∃ d : Branch, d.WellFormed ∧ t.nodeAt? path = some d.toNode ∧ ∀ query,
      (path ++ query = [] → (t.revoke (path ++ [last])).2.root.own = none) →
        (t.revoke (path ++ [last])).2.levelAt (path ++ query) =
          levelFrom (some (d.remove last).toNode) (t.standingAbove path) query := by
  obtain ⟨c, hc⟩ := Option.ne_none_iff_exists'.1 (mt revoke_eq_notFound_iff.2 h)
  have hroot : (t.revoke (path ++ [last])).2.root = c := by rw [revoke, hc]
  obtain ⟨d, hd, hlevel⟩ := Branch.exists_of_revoke?_eq_some ht.keyed hc
  have hwf : d.WellFormed := Branch.wellFormed_toNode_iff.1
    (Node.WellFormed.of_nodeAt? (Branch.wellFormed_toNode_iff.2 ht) hd)
  refine ⟨d, hwf, hd, fun query hquery ↦ ?_⟩
  rw [levelAt_eq_levelFrom hquery, hroot, hlevel, standingAbove]
  cases t.root.toNode.standingAbove path <;> rfl

/-- **A removal uncovers what lies beneath the entry.** A final dot stands for the directory, so the level
is read at the path without it. -/
theorem levelAt_revoke (ht : t.WellFormed) (hpath : Ordinary path)
    (h : (t.revoke (path ++ [last])).1 ≠ .notFound) :
    (t.revoke (path ++ [last])).2.levelAt ((path ++ [last]).filter (· != ownKey)) =
      t.beneath path last := by
  obtain ⟨d, hwf, hd, hread⟩ := exists_levelAt_revoke ht h
  have hrest : t.restAt? path = d.rest := by
    rw [restAt?, Node.restAt?, ← nodeAt?, hd]
    rfl
  rw [List.filter_append, hpath.filter_ne_ownKey, beneath]
  by_cases hown : last = ownKey
  · subst hown
    have hgone : path ++ [] = [] → (t.revoke (path ++ [ownKey])).2.root.own = none := by
      intro hnil
      obtain rfl : path = [] := by simpa using hnil
      obtain ⟨c, hc⟩ := Option.ne_none_iff_exists'.1 (mt revoke_eq_notFound_iff.2 h)
      obtain ⟨-, rfl⟩ := Branch.revoke?_singleton_eq_some_iff.1 hc
      rw [revoke, hc]
      rfl
    have hdir := hread [] hgone
    rwa [Branch.levelFrom_remove_own, ← hrest] at hdir
  · have hkeep : [last].filter (· != ownKey) = [last] := by simp [hown]
    have hentry := hread [last] fun hnil ↦ by simp at hnil
    rw [hkeep, hentry, if_neg hown]
    by_cases hstar : last = restKey
    · rw [if_pos hstar, hstar, Branch.levelFrom_remove_rest hwf]
    · have hmodifier : isModifier last = false := by simp [isModifier, hown, hstar]
      rw [if_neg hstar, Branch.levelFrom_remove_child hwf hmodifier, ← hrest]
      exact (Node.standingAt_eq _ _).symm

/-- A path names no node if it does not lead to a branch, or to one that does not name its last name. -/
theorem nodeAt?_concat_eq_none_iff :
    t.nodeAt? (path ++ [last]) = none ↔ (∀ b : Branch, t.nodeAt? path ≠ some b.toNode) ∨
      ∃ b : Branch, t.nodeAt? path = some b.toNode ∧ Entries.find? b.children last = none := by
  constructor
  · intro hnone
    by_cases hbranch : ∃ b : Branch, t.nodeAt? path = some b.toNode
    · obtain ⟨b, hb⟩ := hbranch
      refine Or.inr ⟨b, hb, Option.eq_none_iff_forall_ne_some.2 fun m hm ↦ ?_⟩
      have hnode : t.nodeAt? (path ++ [last]) = some m :=
        Node.nodeAt?_concat_eq_some_iff.2 ⟨_, _, _, hb, hm⟩
      cases hnone.symm.trans hnode
    · exact Or.inl (not_exists.1 hbranch)
  · intro hrefused
    refine Option.eq_none_iff_forall_ne_some.2 fun m hm ↦ ?_
    obtain ⟨b, hb, hchild⟩ := exists_of_nodeAt?_concat hm
    rcases hrefused with hbranch | ⟨b', hb', hnone⟩
    · exact hbranch b hb
    · obtain ⟨-, -, hsame⟩ := Node.branch.inj (Option.some.inj (hb.symm.trans hb'))
      cases hnone.symm.trans (hsame ▸ hchild)

/-- **The removal of a child.** It is refused exactly if the path does not lead over named branches to one
that names the child, and then the tree is as it was. Otherwise the tree alone gives what stood at the parent
for the path of the child and for everything below it, and no evaluation of any other path shows the
removal. -/
theorem alikeAt_revoke (ht : t.WellFormed) (hpath : Ordinary (path ++ [last])) :
    ((t.revoke (path ++ [last])).1 = .notFound ↔
      (∀ b : Branch, t.nodeAt? path ≠ some b.toNode) ∨
        ∃ b : Branch, t.nodeAt? path = some b.toNode ∧ Entries.find? b.children last = none) ∧
    ((t.revoke (path ++ [last])).1 = .notFound → (t.revoke (path ++ [last])).2 = t) ∧
    ((t.revoke (path ++ [last])).1 ≠ .notFound → ∀ query,
      (path ++ [last] <+: query → ∀ owner,
        evaluateTrees [⟨owner, (t.revoke (path ++ [last])).2⟩] query =
          ⟨t.standingAt path, (t.standingAt path).map fun _ ↦ owner, query⟩) ∧
      (¬path ++ [last] <+: query → (t.revoke (path ++ [last])).2.AlikeAt t query)) := by
  have hlast : isModifier last = false :=
    (isReserved_eq_false_iff.1 (hpath last (List.mem_append_right path List.mem_cons_self))).1
  refine ⟨?_, fun hrefused ↦ ?_, fun hremoved query ↦ ⟨fun hprefix owner ↦ ?_, fun hprefix ↦ ?_⟩⟩
  · rw [← nodeAt?_concat_eq_none_iff, revoke_eq_notFound_iff, ← Option.not_isSome_iff_eq_none,
      ← Option.not_isSome_iff_eq_none, Branch.isSome_revoke?_iff hlast]
    rfl
  · rw [revoke, revoke_eq_notFound_iff.1 hrefused]
  · obtain ⟨below, rfl⟩ := hprefix
    obtain ⟨d, hwf, hd, hread⟩ := exists_levelAt_revoke ht hremoved
    have hlevel : (t.revoke (path ++ [last])).2.levelAt (path ++ last :: below) = t.standingAt path := by
      rw [hread (last :: below) fun hnil ↦ by simp at hnil,
        Branch.levelFrom_remove_child hwf hlast, standingAt, Node.standingAt_eq, Node.restAt?,
        ← nodeAt?, hd]
      rfl
    rw [List.append_assoc, List.singleton_append, evaluateTrees_alone, hlevel]
  · rw [← hpath.editBase] at hprefix
    rw [alikeAt_iff]
    exact levelAt_revoke_of_not_prefix ht hprefix

/-- The child is the only one of its parent, which is the only one of its own: with it both branches go, and
the `*` of the root is what is left. -/
theorem alikeAt_revoke_emptied :
    let t : Tree := {
      root := { rest := some .read,
                children := [("a", .branch none none [("b", .branch none none [("c", .leaf .write)])]),
                  ("d", .branch none (some .revoked) [])] } }
    (t.WellFormed ∧ Ordinary ["a", "b", "c"] ∧ (t.revoke ["a", "b", "c"]).1 ≠ .notFound) ∧
      evaluateTrees [⟨"o", (t.revoke ["a", "b", "c"]).2⟩] ["a", "b", "c", "x"] =
        ⟨some .read, some "o", ["a", "b", "c", "x"]⟩ ∧
      (t.revoke ["a", "b", "c"]).2.AlikeAt t ["a", "b"] := by
  intro t
  have ht : t.WellFormed := by decide
  have hpath : Ordinary (["a", "b"] ++ ["c"]) := by decide
  have hremoved : (t.revoke ["a", "b", "c"]).1 ≠ .notFound := by decide
  have h := (alikeAt_revoke ht hpath).2.2 hremoved
  refine ⟨⟨ht, hpath, hremoved⟩, ?_, ?_⟩
  · exact (h ["a", "b", "c", "x"]).1 (by decide) "o"
  · exact (h ["a", "b"]).2 (by decide)

end Tree

end PathAccess
