import PathAccess.Proofs.Tree.Flatten
/-!
# Trees that add nothing to the flattened view

The flattened view of one tree is that tree, and a tree that was laid under others adds nothing when it is
laid under them again (`flatten_append_of_mem`). The second time it does not meet what it met the first time.
The trees between may have given a `*` to a directory, and with it something is inherited by all below.

`Absorbed` says what has to be there for nothing to be taken. It goes down both trees at once, with the level
inherited in the higher one. What is absorbed is left out (`Absorbed.overlaid_eq`), a tree is absorbed by the
overlay that it was laid under (`absorbed_overlaid`), and it stays so with anything laid under that
(`Absorbed.overlaid`). What carries the last two is that a modifier is never lost again and that a `*`, or an
inherited level, only makes less be taken: a name that it kept out once is kept out for good.
-/

namespace PathAccess

/-- Whether nothing is taken from a lower node that is laid under what the higher tree has in its place, with
a level inherited there. -/
inductive Absorbed : Option Node → Level → Node → Prop
  /-- Nothing is laid under a leaf. -/
  | leaf (g : Grade) (inherited : Level) (lower : Node) : Absorbed (some (.leaf g)) inherited lower
  /-- A leaf has nothing for a branch with a `*`. -/
  | leafUnder (upper : Branch) (inherited : Level) (g : Grade) (rest : upper.rest.isSome) :
    Absorbed (some upper.toNode) inherited (.leaf g)
  /-- A branch has nothing for one that has its modifiers, or is barred from them, and absorbs its children.
  A `*` bars the children that are not named beside it. -/
  | branchUnder (upper lower : Branch) {inherited : Level}
      (own : upper.own = none → upper.rest = none → lower.own = none)
      (rest : upper.rest = none → inherited = none → lower.rest = none)
      (below : ∀ s n, Entries.find? lower.children s = some n →
        (upper.rest = none ∨ (Entries.find? upper.children s).isSome) →
          Absorbed (Entries.find? upper.children s) (upper.rest <|> inherited) n) :
      Absorbed (some upper.toNode) inherited lower.toNode

/-! ### What an overlay keeps -/

theorem eq_none_of_imp {l l' : Level} (h : l.isSome → l'.isSome) (hnone : l' = none) : l = none := by
  cases l with
  | none => rfl
  | some g => exact absurd (h rfl) (by simp [hnone])

/-- What is inherited below a branch is not lost if neither its `*` is nor what it inherits itself. -/
theorem isSome_orElse_of_imp {l l' inherited inherited' : Level} (h : l.isSome → l'.isSome)
    (hmore : inherited.isSome → inherited'.isSome) (hsome : (l <|> inherited).isSome) :
    (l' <|> inherited').isSome := by
  rcases l with - | g
  · rcases l' with - | g'
    · simpa using hmore (by simpa using hsome)
    · rfl
  · obtain ⟨g', rfl⟩ := Option.isSome_iff_exists.1 (h rfl)
    rfl

namespace Branch

variable (upper lower : Branch) (inherited : Level)

theorem isSome_own_overlay (h : upper.own.isSome) : (upper.overlay lower inherited).own.isSome := by
  obtain ⟨o, ho⟩ := Option.isSome_iff_exists.1 h
  rw [overlay_own, ho]
  rfl

theorem isSome_rest_overlay (h : upper.rest.isSome) : (upper.overlay lower inherited).rest.isSome := by
  obtain ⟨r, hr⟩ := Option.isSome_iff_exists.1 h
  rw [overlay_rest, hr]
  rfl

/-- With a leaf laid under it a branch has a `*`. -/
theorem isSome_rest_overlayUnder_leaf (g : Grade) :
    ((Node.leaf g).overlayUnder upper inherited).rest.isSome := by
  rw [Node.overlayUnder]
  cases upper.rest <;> rfl

/-- **A name that is kept out is kept out for good.** Whatever is not barred from an overlay was not barred
from the higher tree. -/
theorem named_of_named_overlay {lower : Branch} (hlower : lower.WellFormed) {s : String}
    (h : (upper.overlay lower inherited).rest = none ∨
      (Entries.find? (upper.overlay lower inherited).children s).isSome) :
    upper.rest = none ∨ (Entries.find? upper.children s).isSome := by
  rcases hrest : upper.rest with - | r
  · exact Or.inl rfl
  have hsome : upper.rest.isSome := by rw [hrest]; rfl
  right
  rcases h with hnone | hnamed
  · exact absurd (upper.isSome_rest_overlay lower inherited hsome) (by simp [hnone])
  · rcases hf : Entries.find? upper.children s with - | n
    · rw [find?_overlay _ _ _ hlower, hf, hsome, overlaid_barred] at hnamed
      exact nomatch hnamed
    · rfl

end Branch

/-! ### What is absorbed is left out -/

/-- An entry that changes nothing at its name is passed over. -/
theorem overlayChildren_cons_of_overlaid_eq {upper : Branch} {inherited : Level} {name : String}
    {theirs : Node} (h : overlaid upper.rest.isSome inherited (Entries.find? upper.children name)
      (some theirs) = Entries.find? upper.children name) (cs : List (String × Node)) :
    upper.overlayChildren inherited ((name, theirs) :: cs) = upper.overlayChildren inherited cs := by
  rw [overlayChildren_cons]
  congr 1
  rcases hf : Entries.find? upper.children name with - | ⟨g⟩ | ⟨own, rest, children⟩
  · -- Only a `*` keeps a name out that is not there.
    rw [hf] at h
    rcases hrest : upper.rest with - | r
    · rw [hrest] at h
      cases theirs <;> exact nomatch h
    · rfl
  · rfl
  · rw [hf] at h
    dsimp only
    rw [Branch.setChild, Entries.set_of_find? (hf.trans h.symm)]

/-- Children that change nothing at their names are all passed over. -/
theorem overlayChildren_of_overlaid_eq {upper : Branch} {inherited : Level} {cs : List (String × Node)}
    (h : ∀ e ∈ cs, overlaid upper.rest.isSome inherited (Entries.find? upper.children e.1)
      (some e.2) = Entries.find? upper.children e.1) :
    upper.overlayChildren inherited cs = upper := by
  induction cs with
  | nil => rfl
  | cons e cs ih =>
    rw [overlayChildren_cons_of_overlaid_eq (h e List.mem_cons_self)]
    exact ih fun e' he' ↦ h e' (List.mem_cons_of_mem _ he')

/-- A branch that has nothing for another in its modifiers and its children leaves it as it is. -/
theorem Branch.overlay_eq_self {upper lower : Branch} {inherited : Level}
    (own : upper.own = none → upper.rest = none → lower.own = none)
    (rest : upper.rest = none → inherited = none → lower.rest = none)
    (children : upper.overlayChildren (upper.rest <|> inherited) lower.children = upper) :
    upper.overlay lower inherited = upper := by
  have hown : (upper.own <|> if upper.rest.isSome then none else lower.own) = upper.own := by
    rcases hupper : upper.own with - | o
    · rcases hrest : upper.rest with - | r
      · simpa using own hupper hrest
      · rfl
    · rfl
  have hrest : (upper.rest <|> if inherited.isSome then none else lower.rest) = upper.rest := by
    rcases hupper : upper.rest with - | r
    · rcases hinherited : inherited with - | i
      · simpa using rest hupper hinherited
      · rfl
    · rfl
  rw [overlay, toNode, Node.overlayUnder, children, hown, hrest]

/-- **What is absorbed is left out.** -/
theorem Absorbed.overlaid_eq {upper : Option Node} {inherited : Level} {lower : Node}
    (h : Absorbed upper inherited lower) (hlower : lower.WellFormed) :
    overlaid false inherited upper (some lower) = upper := by
  induction h with
  | leaf g inherited lower => exact overlaid_leaf _ _ _ _
  | leafUnder upper inherited g rest =>
    obtain ⟨r, hr⟩ := Option.isSome_iff_exists.1 rest
    rw [overlaid_toNode, Node.overlayUnder]
    simp [hr, Branch.toNode]
  | @branchUnder upper lower inherited own rest below ih =>
    have hwf : lower.WellFormed := Branch.wellFormed_toNode_iff.1 hlower
    have hchildren : upper.overlayChildren (upper.rest <|> inherited) lower.children = upper := by
      refine overlayChildren_of_overlaid_eq fun e he ↦ ?_
      by_cases hnamed : upper.rest = none ∨ (Entries.find? upper.children e.1).isSome
      · rw [overlaid_of_named hnamed]
        exact ih e.1 e.2 (Entries.find?_of_mem hwf.distinct he) hnamed (hwf.below e he)
      · obtain ⟨hrest, hunseen⟩ := not_or.1 hnamed
        rw [Option.not_isSome_iff_eq_none.1 hunseen, Option.isSome_iff_ne_none.2 hrest]
        exact overlaid_barred _ _
    have heq := Branch.overlay_eq_self own rest hchildren
    exact congrArg (some ·.toNode) heq

/-! ### What was laid under is absorbed -/

/-- **A node is absorbed by the overlay that it was laid under**, also where something is inherited only since
then. -/
theorem absorbed_overlaid {lower : Node} (hlower : lower.WellFormed) (upper : Option Node)
    {inherited inherited' : Level} (hmore : inherited.isSome → inherited'.isSome) :
    Absorbed (overlaid false inherited upper (some lower)) inherited' lower := by
  induction lower using Node.induction_find? generalizing upper inherited inherited' with
  | leaf g =>
    rcases upper with - | ⟨g'⟩ | ⟨own, rest, children⟩
    · exact .leaf g _ _
    · exact .leaf g' _ _
    · have hrest := Branch.isSome_rest_overlayUnder_leaf ⟨own, rest, children⟩ inherited g
      exact .leafUnder _ _ g hrest
  | branch own rest children ih =>
    have hwf : Branch.WellFormed ⟨own, rest, children⟩ := Node.wellFormed_branch_iff.1 hlower
    have hunder : ∀ b : Branch, Absorbed (some (b.overlay ⟨own, rest, children⟩ inherited).toNode)
        inherited' (.branch own rest children) := by
      intro b
      refine .branchUnder (b.overlay ⟨own, rest, children⟩ inherited) ⟨own, rest, children⟩
        (fun hown hrest ↦ ?_) (fun hrest hinherited ↦ ?_) fun s n hs hnamed ↦ ?_
      · have hb : b.rest = none := eq_none_of_imp (b.isSome_rest_overlay _ inherited) hrest
        rw [Branch.overlay_own, hb] at hown
        simp_all
      · rw [Branch.overlay_rest, eq_none_of_imp hmore hinherited] at hrest
        simp_all
      · rw [Branch.find?_overlay _ _ _ hwf, hs,
          overlaid_of_named (b.named_of_named_overlay inherited hwf hnamed)]
        exact ih s n hs (hwf.of_find? hs) _
          (isSome_orElse_of_imp (b.isSome_rest_overlay _ inherited) hmore)
    rcases upper with - | ⟨g'⟩ | ⟨own', rest', children'⟩
    · exact hunder {}
    · exact .leaf g' _ _
    · exact hunder ⟨own', rest', children'⟩

/-- **What is absorbed stays so** with anything laid under what absorbs it, and with more inherited. -/
theorem Absorbed.overlaid {upper : Option Node} {inherited : Level} {lower : Node}
    (h : Absorbed upper inherited lower) {other : Option Node} (hother : ∀ n ∈ other, n.WellFormed)
    (above : Level) {inherited' : Level} (hmore : inherited.isSome → inherited'.isSome) :
    Absorbed (PathAccess.overlaid false above upper other) inherited' lower := by
  induction h generalizing other above inherited' with
  | leaf g inherited lower =>
    rw [overlaid_leaf]
    exact .leaf g _ _
  | leafUnder upper inherited g rest =>
    rcases other with - | ⟨g'⟩ | ⟨own', rest', children'⟩
    · rw [overlaid_absent]
      exact .leafUnder upper _ g rest
    · exact .leafUnder _ _ g (upper.isSome_rest_overlayUnder_leaf above g')
    · exact .leafUnder _ _ g
        (upper.isSome_rest_overlay ⟨own', rest', children'⟩ above rest)
  | @branchUnder upper lower inherited own rest below ih =>
    have hnothing : ∀ n ∈ (none : Option Node), n.WellFormed := fun _ h ↦ nomatch h
    have hnext : ∀ next : Branch, (upper.own.isSome → next.own.isSome) →
        (upper.rest.isSome → next.rest.isSome) →
        (∀ s n, Entries.find? lower.children s = some n →
          (next.rest = none ∨ (Entries.find? next.children s).isSome) →
            Absorbed (Entries.find? next.children s) (next.rest <|> inherited') n) →
        Absorbed (some next.toNode) inherited' lower.toNode := by
      intro next hown hrest hbelow
      exact .branchUnder next lower
        (fun ho hr ↦ own (eq_none_of_imp hown ho) (eq_none_of_imp hrest hr))
        (fun hr hi ↦ rest (eq_none_of_imp hrest hr) (eq_none_of_imp hmore hi)) hbelow
    rcases other with - | ⟨g'⟩ | ⟨own', rest', children'⟩
    · rw [overlaid_absent]
      refine hnext upper id id fun s n hs hnamed ↦ ?_
      have hchild := ih s n hs hnamed hnothing none
        (isSome_orElse_of_imp id hmore)
      rwa [overlaid_absent] at hchild
    · -- A leaf leaves the children as they are, and more is inherited by them.
      have hrest := upper.isSome_rest_overlayUnder_leaf above g'
      refine hnext ((Node.leaf g').overlayUnder upper above) id (fun _ ↦ hrest)
        fun s n hs hnamed ↦ ?_
      have hsame : (Entries.find? upper.children s).isSome :=
        hnamed.resolve_left fun hnone ↦ absurd hrest (by simp [hnone])
      have hchild := ih s n hs (.inr hsame) hnothing none
        (isSome_orElse_of_imp (fun _ ↦ hrest) hmore)
      rwa [overlaid_absent] at hchild
    · have hwf : Branch.WellFormed ⟨own', rest', children'⟩ :=
        Node.wellFormed_branch_iff.1 (hother _ rfl)
      refine hnext (upper.overlay ⟨own', rest', children'⟩ above)
        (upper.isSome_own_overlay _ above) (upper.isSome_rest_overlay _ above) fun s n hs hnamed ↦ ?_
      have hnamed' := upper.named_of_named_overlay above hwf hnamed
      rw [Branch.find?_overlay _ _ _ hwf, overlaid_of_named hnamed']
      exact ih s n hs hnamed' (fun n' hn' ↦ hwf.of_find? hn') _
        (isSome_orElse_of_imp (upper.isSome_rest_overlay _ above) hmore)

/-! ### The flattened view -/

/-- What was laid under a branch is absorbed also when more is laid under it. -/
theorem Absorbed.overlayAll {root lower : Branch} (h : Absorbed (some root.toNode) none lower.toNode)
    {ts : List Tree} (hts : ∀ t ∈ ts, t.WellFormed) :
    Absorbed (some (root.overlayAll ts).toNode) none lower.toNode := by
  induction ts generalizing root with
  | nil => exact h
  | cons t ts ih =>
    have hnode : ∀ n ∈ some t.root.toNode, n.WellFormed := fun n hn ↦ by
      obtain rfl := Option.mem_some.1 hn
      exact Branch.wellFormed_toNode_iff.2 (hts t List.mem_cons_self)
    exact ih (h.overlaid hnode none id) fun t' ht' ↦ hts t' (List.mem_cons_of_mem _ ht')

/-- **Several trees laid under one another absorb each of them.** -/
theorem absorbed_overlayAll (root : Branch) {ts : List Tree} (hts : ∀ t ∈ ts, t.WellFormed) {t : Tree}
    (hmem : t ∈ ts) : Absorbed (some (root.overlayAll ts).toNode) none t.root.toNode := by
  induction ts generalizing root with
  | nil => exact nomatch hmem
  | cons t' ts ih =>
    have hts' : ∀ t ∈ ts, t.WellFormed := fun t ht ↦ hts t (List.mem_cons_of_mem _ ht)
    rcases List.mem_cons.1 hmem with rfl | hmem
    · have hwf := Branch.wellFormed_toNode_iff.2 (hts t List.mem_cons_self)
      have hfirst : Absorbed (some (root.overlay t.root none).toNode) none t.root.toNode :=
        absorbed_overlaid hwf (some root.toNode) id
      exact Absorbed.overlayAll hfirst hts'
    · exact ih _ hts' hmem

/-- A new entry that would be copied as it is goes to the end. -/
theorem overlayChildren_cons_of_overlaid_none {own : Option Grade} {children : Entries String Node}
    {name : String} {theirs : Node} (h : overlaid false none none (some theirs) = some theirs)
    (hname : name ∉ Entries.keys children) (cs : List (String × Node)) :
    Branch.overlayChildren ⟨own, none, children⟩ none ((name, theirs) :: cs) =
      Branch.overlayChildren ⟨own, none, children ++ [(name, theirs)]⟩ none cs := by
  rw [overlayChildren_cons, Entries.find?_eq_none_iff.2 hname, ← Entries.set_of_notMem hname]
  cases theirs with
  | leaf g => rfl
  | branch own' rest' children' =>
    have hcopy := Option.some.inj h
    dsimp only [Option.isSome_none, Bool.false_eq_true, if_false]
    rw [hcopy]
    rfl

/-- So all of them follow those that are there. -/
theorem overlayChildren_of_overlaid_none {cs : List (String × Node)}
    (h : ∀ e ∈ cs, overlaid false none none (some e.2) = some e.2) {own : Option Grade}
    {children : Entries String Node} (hd : (Entries.keys (children ++ cs)).Nodup) :
    Branch.overlayChildren ⟨own, none, children⟩ none cs = ⟨own, none, children ++ cs⟩ := by
  induction cs generalizing children with
  | nil =>
    rw [List.append_nil]
    rfl
  | cons e cs ih =>
    obtain ⟨name, n⟩ := e
    have hname : name ∉ Entries.keys children := by
      intro hmem
      simp only [Entries.keys, List.map_append, List.map_cons] at hd
      exact (List.nodup_append.1 hd).2.2 name hmem name List.mem_cons_self rfl
    rw [List.append_cons] at hd
    rw [overlayChildren_cons_of_overlaid_none (h _ List.mem_cons_self) hname,
      ih (fun e he ↦ h e (List.mem_cons_of_mem _ he)) hd, ← List.append_cons]

/-- **Where nothing stands, a branch is copied as it is**, if its children are. -/
theorem Branch.overlay_empty {b : Branch} (hwf : b.WellFormed)
    (h : ∀ e ∈ b.children, overlaid false none none (some e.2) = some e.2) :
    Branch.overlay {} b none = b := by
  have hchildren : Branch.overlayChildren {} none b.children = { children := b.children } :=
    overlayChildren_of_overlaid_none h hwf.distinct
  have hrest : (({} : Branch).rest <|> (none : Level)) = none := rfl
  rw [overlay, toNode, Node.overlayUnder, hrest, hchildren]
  simp

/-- **Where nothing stands, a node is copied as it is**, empty branches included. -/
theorem overlaid_none_eq {n : Node} (h : n.WellFormed) : overlaid false none none (some n) = some n := by
  induction h with
  | leaf g => rfl
  | @branch own rest children distinct ordinary below ih =>
    have hcopy := Branch.overlay_empty (b := ⟨own, rest, children⟩) ⟨distinct, ordinary, below⟩ ih
    exact congrArg (some ·.toNode) hcopy

theorem Branch.toNode_injective : Function.Injective Branch.toNode := by
  rintro ⟨own, rest, children⟩ ⟨own', rest', children'⟩ h
  cases h
  rfl

/-- **The flattened view of one tree is that tree**, but for its memberships. And whatever was laid under
others adds nothing when it is laid under them again. -/
theorem flatten_absorbs {ts : List Tree} (hts : ∀ t ∈ ts, t.WellFormed) {t : Tree} (hmem : t ∈ ts) :
    Tree.flatten [t] = { root := t.root } ∧ Tree.flatten (ts ++ [t]) = Tree.flatten ts := by
  have hwf := hts t hmem
  have halone : Branch.overlay {} t.root none = t.root :=
    Branch.overlay_empty hwf fun e he ↦ overlaid_none_eq (hwf.below e he)
  have habsorbed : overlaid false none (some (Branch.overlayAll {} ts).toNode) (some t.root.toNode) =
      some (Branch.overlayAll {} ts).toNode :=
    (absorbed_overlayAll {} hts hmem).overlaid_eq (Branch.wellFormed_toNode_iff.2 hwf)
  have hagain : (Branch.overlayAll {} ts).overlay t.root none = Branch.overlayAll {} ts :=
    Branch.toNode_injective (Option.some.inj habsorbed)
  refine ⟨?_, ?_⟩
  · rw [Tree.flatten]
    exact congrArg (Tree.mk · []) halone
  · rw [Tree.flatten, List.foldl_append]
    exact congrArg (Tree.mk · []) hagain

/-- The second tree gives its `*` to `/a` below the first, with an empty directory and without its `.`. The third
has a `*` for everything, so that much is inherited in `/a` when the second comes again. -/
theorem flatten_absorbs_between :
    let low : Tree := {
      root := { children := [("a", .branch (some .grant) (some .write) [("b", .branch none none [])])] }
      groups := ["Arch_law"] }
    let ts : List Tree := [
      { root := { children := [("a", .branch (some .read) none [])] } }, low,
      { root := { rest := some .revoked, children := [("a", .leaf .revoked), ("c", .leaf .read)] } }]
    (∀ t ∈ ts, t.WellFormed) ∧ low ∈ ts ∧ Tree.flatten [low] = { root := low.root } ∧
      Tree.flatten (ts ++ [low]) = Tree.flatten ts ∧
      Tree.flatten ts = {
        root := {
          rest := some .revoked
          children := [("a", .branch (some .read) (some .write) [("b", .branch none none [])]),
            ("c", .leaf .read)] } } := by
  intro low ts
  have hts : ∀ t ∈ ts, t.WellFormed := by decide
  have hmem : low ∈ ts := List.mem_cons_of_mem _ List.mem_cons_self
  obtain ⟨halone, hagain⟩ := flatten_absorbs hts hmem
  exact ⟨hts, hmem, halone, hagain, rfl⟩

end PathAccess
