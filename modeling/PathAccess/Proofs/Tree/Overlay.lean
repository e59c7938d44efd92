import PathAccess.Proofs.Tree.WellFormed
import PathAccess.Proofs.Tree.Reading
import PathAccess.Tree.Overlay
/-!
# Where an overlay answers right

Laying a lower tree under a higher one is meant to give, at every path, the level of the higher tree
or else that of the lower one. It does not always. Two things go wrong. A lower leaf or `.` is copied
to a place that the higher tree names, or leaves out, although a level **stands** there in the higher
tree. And a `*` that comes from the lower tree changes which of their own entries the directories of
the higher tree below it are asked for, their `*` as long as nothing stands above and their `.` once
something does.

`Blends` is the exact condition. It goes down both trees at once with the level that stands in each,
and says at every pair of nodes what must not differ. This module shows that it is enough
(`levelFrom_overlaid`).

The children of an overlay are read off by name: `overlaid` says what stands at a name, from what
stands there in each of the trees, and `find?_overlayChildren` that the entries are put together
accordingly. Distinct names are needed of the lower tree only.
-/

namespace PathAccess

/-! ### The parts of an overlay -/

/-- What stands at a name of an overlay, by what stands there in the higher and in the lower tree.
Nothing is copied past a `*` of the higher directory, which is what `barred` says. -/
def overlaid (barred : Bool) (inherited : Level) : Option Node → Option Node → Option Node
  | some (.leaf g), _ => some (.leaf g)
  | some (.branch own rest children), some n =>
    some (n.overlayUnder ⟨own, rest, children⟩ inherited).toNode
  | some (.branch own rest children), none => some (.branch own rest children)
  | none, none => none
  | none, some (.leaf g) => if barred then none else some (.leaf g)
  | none, some (.branch own rest children) =>
    if barred then none
    else some ((Node.branch own rest children).overlayUnder {} inherited).toNode

@[simp] theorem overlaid_leaf (barred : Bool) (inherited : Level) (g : Grade) (lower : Option Node) :
    overlaid barred inherited (some (.leaf g)) lower = some (.leaf g) := by
  cases lower <;> rfl

@[simp] theorem overlaid_absent (barred : Bool) (inherited : Level) (upper : Option Node) :
    overlaid barred inherited upper none = upper := by
  rcases upper with - | ⟨-, -, -⟩ <;> rfl

theorem overlaid_toNode (barred : Bool) (inherited : Level) (b : Branch) (n : Node) :
    overlaid barred inherited (some b.toNode) (some n) =
      some (n.overlayUnder b inherited).toNode := rfl

@[simp] theorem overlaid_barred (inherited : Level) (lower : Option Node) :
    overlaid true inherited none lower = none := by
  rcases lower with - | ⟨-, -, -⟩ <;> rfl

/-- A branch that is copied is laid under an empty one. -/
theorem overlaid_copied (inherited : Level) (b : Branch) :
    overlaid false inherited none (some b.toNode) =
      overlaid false inherited (some (Branch.toNode {})) (some b.toNode) := rfl

/-- The bar only matters for names that the higher tree does not have. -/
theorem overlaid_of_named {rest : Option Grade} {upper : Option Node}
    (h : rest = none ∨ upper.isSome) (inherited : Level) (lower : Option Node) :
    overlaid rest.isSome inherited upper lower = overlaid false inherited upper lower := by
  rcases h with rfl | h
  · rfl
  · obtain ⟨c, rfl⟩ := Option.isSome_iff_exists.1 h
    cases c <;> cases lower <;> rfl

theorem overlayChildren_cons (upper : Branch) (inherited : Level) (name : String) (theirs : Node)
    (cs : List (String × Node)) :
    upper.overlayChildren inherited ((name, theirs) :: cs) =
      Branch.overlayChildren
        (match Entries.find? upper.children name with
        | some (.leaf _) => upper
        | some (.branch own rest children) =>
          upper.setChild name (theirs.overlayUnder ⟨own, rest, children⟩ inherited).toNode
        | none =>
          if upper.rest.isSome then upper
          else match theirs with
            | .leaf g => upper.setChild name (.leaf g)
            | .branch own rest children =>
              upper.setChild name
                ((Node.branch own rest children).overlayUnder {} inherited).toNode)
        inherited cs := by
  cases theirs <;> rfl

/-- What an overlay does with one entry of the lower tree: it touches no name but the entry's. -/
theorem exists_overlayChildren_cons (upper : Branch) (inherited : Level) (name : String)
    (theirs : Node) (cs : List (String × Node)) :
    ∃ next : Branch, upper.overlayChildren inherited ((name, theirs) :: cs) =
        next.overlayChildren inherited cs ∧
      next.own = upper.own ∧ next.rest = upper.rest ∧
      ∀ s, Entries.find? next.children s =
        if s = name then
          overlaid upper.rest.isSome inherited (Entries.find? upper.children name) (some theirs)
        else Entries.find? upper.children s := by
  refine ⟨_, overlayChildren_cons upper inherited name theirs cs, ?_⟩
  rcases hf : Entries.find? upper.children name with - | ⟨g⟩ | ⟨own, rest, children⟩
  · rcases hrest : upper.rest with - | r
    · cases theirs <;>
        exact ⟨rfl, hrest, fun s ↦ Entries.find?_set _ _ _ _⟩
    · refine ⟨rfl, hrest, fun s ↦ ?_⟩
      by_cases hs : s = name
      · simp [hs, hf]
      · simp [hs]
  · refine ⟨rfl, rfl, fun s ↦ ?_⟩
    by_cases hs : s = name
    · simp [hs, hf]
    · simp [hs]
  · exact ⟨rfl, rfl, fun s ↦ Entries.find?_set _ _ _ _⟩

/-- The modifiers stay as they are while the children are laid under. -/
theorem overlayChildren_modifiers (upper : Branch) (inherited : Level) (cs : List (String × Node)) :
    (upper.overlayChildren inherited cs).own = upper.own ∧
      (upper.overlayChildren inherited cs).rest = upper.rest := by
  induction cs generalizing upper with
  | nil => exact ⟨rfl, rfl⟩
  | cons c cs ih =>
    obtain ⟨next, heq, hown, hrest, -⟩ :=
      exists_overlayChildren_cons upper inherited c.1 c.2 cs
    rw [heq, (ih next).1, (ih next).2]
    exact ⟨hown, hrest⟩

/-- **The children of an overlay, name by name.** -/
theorem find?_overlayChildren (upper : Branch) (inherited : Level) {cs : List (String × Node)}
    (hd : (Entries.keys cs).Nodup) (s : String) :
    Entries.find? (upper.overlayChildren inherited cs).children s =
      overlaid upper.rest.isSome inherited (Entries.find? upper.children s)
        (Entries.find? cs s) := by
  induction cs generalizing upper with
  | nil => exact (overlaid_absent _ _ _).symm
  | cons c cs ih =>
    obtain ⟨name, theirs⟩ := c
    simp only [Entries.keys, List.map_cons, List.nodup_cons] at hd
    obtain ⟨next, heq, -, hrest, hfind⟩ :=
      exists_overlayChildren_cons upper inherited name theirs cs
    rw [heq, ih next hd.2, hrest, hfind]
    by_cases hs : s = name
    · subst hs
      rw [if_pos rfl, Entries.find?_cons_self, Entries.find?_eq_none_iff.2 hd.1, overlaid_absent]
    · rw [if_neg hs, Entries.find?_cons_of_ne (Ne.symm hs)]

namespace Branch

variable (upper lower : Branch) (inherited : Level)

theorem overlay_own :
    (upper.overlay lower inherited).own =
      (upper.own <|> if upper.rest.isSome then none else lower.own) := by
  simp only [overlay, toNode, Node.overlayUnder, (overlayChildren_modifiers _ _ _).1]

theorem overlay_rest :
    (upper.overlay lower inherited).rest =
      (upper.rest <|> if inherited.isSome then none else lower.rest) := by
  simp only [overlay, toNode, Node.overlayUnder, (overlayChildren_modifiers _ _ _).2]

theorem find?_overlay (h : lower.WellFormed) (s : String) :
    Entries.find? (upper.overlay lower inherited).children s =
      overlaid upper.rest.isSome (upper.rest <|> inherited) (Entries.find? upper.children s)
        (Entries.find? lower.children s) :=
  find?_overlayChildren upper _ h.distinct s

end Branch

/-! ### The condition -/

/-- Whether it makes no difference to a node if `g` begins to stand above it, but that `g` is the
level where it says nothing itself. -/
inductive Node.Quiet (g : Grade) : Node → Prop
  | leaf (h : Grade) : Node.Quiet g (.leaf h)
  | branch {own rest : Option Grade} {children : List (String × Node)}
      (itself : (own <|> some g) = (rest <|> some g))
      (below : rest = none → ∀ s n, Entries.find? children s = some n → Node.Quiet g n) :
      Node.Quiet g (.branch own rest children)

/-- Whether a lower tree can be laid under a higher one from a pair of nodes on, `above` standing
above the first in the higher and `beneath` above the second in the lower tree. -/
inductive Blends : Option Node → Level → Level → Option Node → Prop
  /-- A leaf of the higher tree answers everything. -/
  | leaf (g : Grade) (above beneath : Level) (lower : Option Node) :
    Blends (some (.leaf g)) above beneath lower
  /-- A node that the lower tree does not name has the level that stands in the lower tree put
  above it. -/
  | kept (n : Node) {above beneath : Level}
      (quiet : above = none → ∀ g ∈ beneath, n.Quiet g) : Blends (some n) above beneath none
  /-- Neither tree names anything. -/
  | unnamed (above beneath : Level) : Blends none above beneath none
  /-- A copied leaf hides what stands in the higher tree. -/
  | copiedLeaf (g : Grade) {above beneath : Level} (agrees : above = none ∨ above = some g) :
    Blends none above beneath (some (.leaf g))
  /-- A copied branch is laid under an empty one. -/
  | copiedBranch (b : Branch) {above beneath : Level}
      (under : Blends (some (Branch.toNode {})) above beneath (some b.toNode)) :
      Blends none above beneath (some b.toNode)
  /-- A leaf under a branch becomes the branch's `*` if it has none, whatever stands above. -/
  | leafUnder (upper : Branch) (g : Grade) {above beneath : Level}
      (agrees : upper.rest = none → above = none ∨ above = some g)
      (itself : above = none → beneath.isSome →
        (upper.own <|> beneath) = (upper.rest <|> some g))
      (quiet : upper.rest = none → above = none →
        ∀ s n, Entries.find? upper.children s = some n → n.Quiet g) :
      Blends (some upper.toNode) above beneath (some (.leaf g))
  /-- A branch under a branch hands on its `.`, and then its children. -/
  | branchUnder (upper lower : Branch) {above beneath : Level}
      (standing : above.isSome → upper.own = none → upper.rest = none →
        lower.own = none ∨ lower.own = above)
      (itself : above = none → beneath.isSome →
        ((upper.own <|> if upper.rest.isSome then none else lower.own) <|> beneath) =
          (upper.rest <|> lower.own <|> beneath))
      (below : ∀ s, (upper.rest = none ∨ (Entries.find? upper.children s).isSome) →
        Blends (Entries.find? upper.children s) (upper.rest <|> above) (lower.rest <|> beneath)
          (Entries.find? lower.children s)) :
      Blends (some upper.toNode) above beneath (some lower.toNode)

/-! ### A tree that is copied -/

/-- Induction on nodes, with the children found by name. -/
theorem Node.induction_find? {P : Node → Prop} (leaf : ∀ g, P (.leaf g))
    (branch : ∀ own rest children,
      (∀ s n, Entries.find? children s = some n → P n) → P (.branch own rest children))
    (n : Node) : P n :=
  @Node.rec P (fun children ↦ ∀ c ∈ children, P c.2) (fun c ↦ P c.2) leaf
    (fun own rest children ih ↦ branch own rest children fun s n hf ↦
      ih (s, n) (Entries.mem_of_find? hf))
    (fun _ hc ↦ absurd hc List.not_mem_nil)
    (fun _ _ hhead htail c hc ↦ (List.mem_cons.1 hc).elim (fun heq ↦ heq ▸ hhead) (htail c))
    (fun _ _ h ↦ h) n

theorem blends_empty_of_children {b : Branch}
    (h : ∀ s n, Entries.find? b.children s = some n → ∀ beneath, Blends none none beneath (some n))
    (beneath : Level) : Blends (some (Branch.toNode {})) none beneath (some b.toNode) := by
  refine .branchUnder {} b (fun h ↦ nomatch h) (fun _ _ ↦ rfl) fun s _ ↦ ?_
  change Blends none none _ (Entries.find? b.children s)
  match hf : Entries.find? b.children s with
  | none => exact .unnamed _ _
  | some n => exact h s n hf _

/-- Where nothing stands, everything can be copied. -/
theorem blends_none (beneath : Level) (n : Node) : Blends none none beneath (some n) := by
  induction n using Node.induction_find? generalizing beneath with
  | leaf g => exact .copiedLeaf g (Or.inl rfl)
  | branch own rest children ih =>
    exact .copiedBranch ⟨own, rest, children⟩
      (blends_empty_of_children (fun s n hf beneath ↦ ih s n hf beneath) beneath)

/-- The tree of highest priority blends into the empty one. -/
theorem blends_empty (b : Branch) : Blends (some (Branch.toNode {})) none none (some b.toNode) :=
  blends_empty_of_children (fun _ n _ beneath ↦ blends_none beneath n) none

/-! ### The condition is enough -/

/-- Nothing is changed by what begins to stand above a quiet node, and all is answered. -/
theorem Node.Quiet.levelFrom_eq {g : Grade} {n : Node} (h : n.Quiet g) (path : List String) :
    levelFrom (some n) (some g) path = (levelFrom (some n) none path <|> some g) := by
  induction h generalizing path with
  | leaf h => simp
  | @branch own rest children itself below ih =>
    cases path with
    | nil => simpa [levelFrom, Branch.answer] using itself
    | cons s path =>
      rw [levelFrom_branch_cons, levelFrom_branch_cons]
      cases hrest : rest with
      | some r =>
        have habove : (some r : Level).isSome := rfl
        obtain ⟨l, hl⟩ := Option.isSome_iff_exists.1
          (levelFrom_isSome (Entries.find? children s) habove path)
        simp [hl]
      | none =>
        cases hf : Entries.find? children s with
        | none => simp
        | some n => simpa using ih hrest s n hf path

/-- With something standing above in the higher tree, a directory there always answers. -/
theorem orElse_levelFrom_of_isSome (n : Option Node) {above : Level} (h : above.isSome)
    (path : List String) (l : Level) : (levelFrom n above path <|> l) = levelFrom n above path := by
  obtain ⟨g, hg⟩ := Option.isSome_iff_exists.1 (levelFrom_isSome n h path)
  simp [hg]

/-- The level that stands in an overlay is that of the higher tree, or else of the lower. -/
theorem Branch.overlay_rest_orElse (upper lower : Branch) (above beneath : Level) :
    ((upper.overlay lower above).rest <|> above <|> beneath) =
      ((upper.rest <|> above) <|> lower.rest <|> beneath) := by
  rw [overlay_rest]
  rcases upper.rest with - | r <;> rcases above with - | a <;> simp

/-- A node above which something begins to stand that it is quiet for. -/
theorem levelFrom_orElse_of_quiet {n : Option Node} {above beneath : Level}
    (h : above = none → ∀ g ∈ beneath, ∀ c ∈ n, c.Quiet g) (path : List String) :
    levelFrom n (above <|> beneath) path = (levelFrom n above path <|> beneath) := by
  rcases above with - | a
  · rcases beneath with - | g
    · simp
    · rcases n with - | c
      · simp
      · simpa using (h rfl g rfl c rfl).levelFrom_eq path
  · exact (orElse_levelFrom_of_isSome n rfl path beneath).symm

section Answer

variable {upper : Branch} {above beneath : Level}

/-- The directory itself, with a leaf laid under it. -/
theorem Branch.answer_overlay_leaf {g : Grade}
    (h : above = none → beneath.isSome → (upper.own <|> beneath) = (upper.rest <|> some g)) :
    ((Node.leaf g).overlayUnder upper above).answer (above <|> beneath) =
      (upper.answer above <|> some g) := by
  rcases above with - | a
  · rcases beneath with - | b
    · simp [answer, Node.overlayUnder]
    · simpa [answer, Node.overlayUnder] using h rfl rfl
  · simp [answer, Node.overlayUnder]

/-- The directory itself, with another laid under it. -/
theorem Branch.answer_overlay {lower : Branch}
    (hstanding : above.isSome → upper.own = none → upper.rest = none →
      lower.own = none ∨ lower.own = above)
    (h : above = none → beneath.isSome →
      ((upper.own <|> if upper.rest.isSome then none else lower.own) <|> beneath) =
        (upper.rest <|> lower.own <|> beneath)) :
    (upper.overlay lower above).answer (above <|> beneath) =
      (upper.answer above <|> lower.answer beneath) := by
  rw [answer, overlay_own, overlay_rest]
  rcases above with - | a
  · rcases beneath with - | b
    · simp [answer]
    · simpa [answer] using h rfl rfl
  · cases hown : upper.own with
    | some o => simp [answer, hown]
    | none =>
      cases hrest : upper.rest with
      | some r => simp [answer, hown]
      | none =>
        rcases hstanding rfl hown hrest with hl | hl <;> simp [answer, hown, hl]

end Answer

/-- Every path at or below a branch that a leaf is laid under. -/
theorem levelFrom_overlayUnder_leaf {upper : Branch} {g : Grade} {above beneath : Level}
    (agrees : upper.rest = none → above = none ∨ above = some g)
    (itself : above = none → beneath.isSome → (upper.own <|> beneath) = (upper.rest <|> some g))
    (quiet : upper.rest = none → above = none →
      ∀ s n, Entries.find? upper.children s = some n → n.Quiet g) (path : List String) :
    levelFrom (some ((Node.leaf g).overlayUnder upper above).toNode) (above <|> beneath) path =
      (levelFrom (some upper.toNode) above path <|> some g) := by
  cases path with
  | nil => exact Branch.answer_overlay_leaf itself
  | cons s path =>
    rw [levelFrom_toNode_cons, levelFrom_toNode_cons]
    show levelFrom (Entries.find? upper.children s) ((upper.rest <|> some g) <|> _) path = _
    cases hrest : upper.rest with
    | some r => exact (orElse_levelFrom_of_isSome _ rfl path _).symm
    | none =>
      -- The leaf's grade is the level above the children now, as if it had begun to stand there.
      have habove : ((none <|> some g) <|> above <|> beneath) = ((none <|> above) <|> some g) := by
        rcases agrees hrest with rfl | rfl <;> simp
      rw [habove]
      refine levelFrom_orElse_of_quiet (fun ha g' hg' c hc ↦ ?_) path
      obtain rfl : g = g' := by simpa using hg'
      exact quiet hrest (by simpa using ha) s c hc

/-- Every path at or below a branch that another is laid under, if it is so for the children. -/
theorem Branch.levelFrom_overlay {upper lower : Branch} {above beneath : Level}
    (hlower : lower.WellFormed)
    (standing : above.isSome → upper.own = none → upper.rest = none →
      lower.own = none ∨ lower.own = above)
    (itself : above = none → beneath.isSome →
      ((upper.own <|> if upper.rest.isSome then none else lower.own) <|> beneath) =
        (upper.rest <|> lower.own <|> beneath))
    (children : ∀ s, (upper.rest = none ∨ (Entries.find? upper.children s).isSome) → ∀ path,
      levelFrom (overlaid false (upper.rest <|> above) (Entries.find? upper.children s)
          (Entries.find? lower.children s)) ((upper.rest <|> above) <|> lower.rest <|> beneath) path =
        (levelFrom (Entries.find? upper.children s) (upper.rest <|> above) path <|>
          levelFrom (Entries.find? lower.children s) (lower.rest <|> beneath) path))
    (path : List String) :
    levelFrom (some (upper.overlay lower above).toNode) (above <|> beneath) path =
      (levelFrom (some upper.toNode) above path <|> levelFrom (some lower.toNode) beneath path) := by
  cases path with
  | nil => exact answer_overlay standing itself
  | cons s path =>
    rw [levelFrom_toNode_cons, levelFrom_toNode_cons, levelFrom_toNode_cons,
      overlay_rest_orElse, find?_overlay _ _ _ hlower]
    by_cases hnamed : upper.rest = none ∨ (Entries.find? upper.children s).isSome
    · rw [overlaid_of_named hnamed]
      exact children s hnamed path
    · -- Past a `*` of the higher branch nothing is copied, and nothing is asked of the lower tree.
      obtain ⟨hrest, hunseen⟩ := not_or.1 hnamed
      obtain ⟨r, hr⟩ := Option.ne_none_iff_exists'.1 hrest
      simp [Option.not_isSome_iff_eq_none.1 hunseen, hr]

/-- **A tree that can be laid under another is, and nothing else is seen.** At every path the overlay
has the level of the higher tree, or else that of the lower one. -/
theorem levelFrom_overlaid {upper lower : Option Node} {above beneath : Level}
    (h : Blends upper above beneath lower) (hlower : ∀ n ∈ lower, n.WellFormed)
    (path : List String) :
    levelFrom (overlaid false above upper lower) (above <|> beneath) path =
      (levelFrom upper above path <|> levelFrom lower beneath path) := by
  induction h generalizing path with
  | leaf g above beneath lower => simp
  | @kept n above beneath quiet =>
    rw [overlaid_absent, levelFrom_none]
    refine levelFrom_orElse_of_quiet (fun ha g hg c hc ↦ ?_) path
    obtain rfl : n = c := by simpa using hc
    exact quiet ha g hg
  | unnamed above beneath => simp
  | @copiedLeaf g above beneath agrees =>
    rcases agrees with rfl | rfl <;> simp [overlaid]
  | @copiedBranch b above beneath under ih =>
    rw [overlaid_copied, ih hlower, levelFrom_empty, levelFrom_none]
  | @leafUnder upper g above beneath agrees itself quiet =>
    rw [overlaid_toNode, levelFrom_leaf]
    exact levelFrom_overlayUnder_leaf agrees itself quiet path
  | @branchUnder upper lower above beneath standing itself below ih =>
    have hwf : lower.WellFormed := Branch.wellFormed_toNode_iff.1 (hlower _ rfl)
    rw [overlaid_toNode]
    exact Branch.levelFrom_overlay hwf standing itself
      (fun s hnamed path ↦ ih s hnamed (fun n hn ↦ hwf.of_find? hn) path) path

end PathAccess
