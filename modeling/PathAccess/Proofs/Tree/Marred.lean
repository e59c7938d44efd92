import PathAccess.Proofs.Tree.Overlay
/-!
# Where an overlay answers wrongly for good

If a lower tree does not blend into a higher one, their overlay answers wrongly at some path. Several
trees are laid under one another in turn, though, and a later one could make up for what an earlier
one did. It cannot, and the reason is not that the wrong level stays: what a `*` from further down
wakes may well change it. What stays is that **some** level is wrong.

`Spoiled` collects the forms that such a lasting error takes, for the levels `f` that are **meant** at
the paths below a node. A leaf, a `*` that is asked for an unnamed child and a `.` below something
that stands are never changed by what is laid under them. The fourth form is a directory that is
**overruled**: something stands above it that it was not meant to see. Nothing can be laid under it
that helps, although a leaf can turn the form of the error into another.

## Main results

* `Spoiled.exists_ne`: a spoiled node has a wrong level.
* `Spoiled.overlaid`: it is spoiled still with anything laid under it.
* `blends_or_marred`: trees blend, or else their overlay is spoiled.
-/

namespace PathAccess

/-- Some name is not in a list. -/
theorem exists_name_notMem (names : List String) : ∃ name, name ∉ names := by
  have hbound : ∃ m, ∀ name ∈ names, name.length ≤ m := by
    induction names with
    | nil => exact ⟨0, fun _ h ↦ nomatch h⟩
    | cons name names ih =>
      obtain ⟨m, hm⟩ := ih
      refine ⟨max name.length m, fun name' h ↦ ?_⟩
      rcases List.mem_cons.1 h with rfl | h
      · exact Nat.le_max_left _ _
      · exact Nat.le_trans (hm name' h) (Nat.le_max_right _ _)
  obtain ⟨m, hm⟩ := hbound
  refine ⟨String.ofList (List.replicate (m + 1) 'x'), fun h ↦ ?_⟩
  have hlength : (String.ofList (List.replicate (m + 1) 'x')).length = m + 1 := by simp
  have hle := hm _ h
  omega

/-! ### Lasting errors -/

/-- A directory that was not meant to have `d` standing above it, and shows it. -/
inductive Overruled (d : Grade) : (List String → Level) → Node → Prop
  /-- Its `*` was meant for itself, and it has no `.` to say so. -/
  | here {f : List String → Level} {r : Grade} {children : List (String × Node)}
      (meant : f [] = some r) (ne : r ≠ d) : Overruled d f (.branch none (some r) children)
  /-- A child was not meant to, while the unnamed children were. -/
  | child {f : List String → Level} {own : Option Grade} {children : List (String × Node)}
      {s : String} {c : Node} (seen : Entries.find? children s = some c)
      (lower : Overruled d (fun path ↦ f (s :: path)) c)
      (others : ∃ names : List String, ∀ name, name ∉ names → f [name] = some d) :
      Overruled d f (.branch own none children)

/-- A node at or below which a level is wrong and will be, whatever is laid under it. The flag tells
whether something stands above. -/
inductive Spoiled : (List String → Level) → Bool → Node → Prop
  /-- A leaf answers with its own grade. -/
  | leaf {f : List String → Level} {standing : Bool} {g l : Grade} {path : List String}
      (meant : f path = some l) (ne : l ≠ g) : Spoiled f standing (.leaf g)
  /-- A directory below something that stands answers with its `.`. -/
  | own {f : List String → Level} {o l : Grade} {rest : Option Grade}
      {children : List (String × Node)} (meant : f [] = some l) (ne : l ≠ o) :
      Spoiled f true (.branch (some o) rest children)
  /-- A directory with a `*` answers with it for its unnamed children. -/
  | unnamed {f : List String → Level} {standing : Bool} {own : Option Grade} {r l : Grade}
      {children : List (String × Node)} {s : String} {path : List String}
      (unseen : Entries.find? children s = none) (meant : f (s :: path) = some l) (ne : l ≠ r) :
      Spoiled f standing (.branch own (some r) children)
  /-- A directory with a `*` overrules a child. -/
  | overruled {f : List String → Level} {standing : Bool} {own : Option Grade} {d : Grade}
      {children : List (String × Node)} {s : String} {c : Node}
      (seen : Entries.find? children s = some c)
      (lower : Overruled d (fun path ↦ f (s :: path)) c) :
      Spoiled f standing (.branch own (some d) children)
  /-- A child is spoiled. -/
  | child {f : List String → Level} {standing : Bool} {own rest : Option Grade}
      {children : List (String × Node)} {s : String} {c : Node}
      (seen : Entries.find? children s = some c)
      (lower : Spoiled (fun path ↦ f (s :: path)) (rest.isSome || standing) c) :
      Spoiled f standing (.branch own rest children)

theorem Overruled.exists_ne {d : Grade} {f : List String → Level} {c : Node}
    (h : Overruled d f c) :
    ∃ path l, f path = some l ∧ levelFrom (some c) (some d) path ≠ some l := by
  induction h with
  | @here f r children meant ne =>
    exact ⟨[], r, meant, by simpa [levelFrom, Branch.answer] using Ne.symm ne⟩
  | @child f own children s c seen _ _ ih =>
    obtain ⟨path, l, hl, hne⟩ := ih
    exact ⟨s :: path, l, hl, by simpa [levelFrom_branch_cons, seen] using hne⟩

/-- **A spoiled node has a wrong level.** -/
theorem Spoiled.exists_ne {f : List String → Level} {standing : Bool} {c : Node}
    (h : Spoiled f standing c) {above : Level} (habove : standing = true → above.isSome) :
    ∃ path l, f path = some l ∧ levelFrom (some c) above path ≠ some l := by
  induction h generalizing above with
  | @leaf f standing g l path meant ne =>
    exact ⟨path, l, meant, by simpa using Ne.symm ne⟩
  | @own f o l rest children meant ne =>
    obtain ⟨a, rfl⟩ := Option.isSome_iff_exists.1 (habove rfl)
    exact ⟨[], l, meant, by simpa [levelFrom, Branch.answer] using Ne.symm ne⟩
  | @unnamed f standing own r l children s path unseen meant ne =>
    exact ⟨s :: path, l, meant, by simpa [levelFrom_branch_cons, unseen] using Ne.symm ne⟩
  | @overruled f standing own d children s c seen lower =>
    obtain ⟨path, l, hl, hne⟩ := lower.exists_ne
    exact ⟨s :: path, l, hl, by simpa [levelFrom_branch_cons, seen] using hne⟩
  | @child f standing own rest children s c seen _ ih =>
    have hstanding : (rest.isSome || standing) = true → (rest <|> above).isSome := by
      intro h
      cases rest with
      | some r => rfl
      | none => simpa using habove (by simpa using h)
    obtain ⟨path, l, hl, hne⟩ := ih hstanding
    exact ⟨s :: path, l, hl, by simpa [levelFrom_branch_cons, seen] using hne⟩

/-- Whether a lasting error counts as one depends on the levels that are meant, of which there can be
more, and on whether something stands, which it can in more places. -/
theorem Overruled.mono {d : Grade} {f f' : List String → Level} {c : Node} (h : Overruled d f c)
    (hf : ∀ path l, f path = some l → f' path = some l) : Overruled d f' c := by
  induction h generalizing f' with
  | here meant ne => exact .here (hf _ _ meant) ne
  | child seen _ others ih =>
    obtain ⟨names, hnames⟩ := others
    exact .child seen (ih fun path l ↦ hf _ l) ⟨names, fun name hn ↦ hf _ _ (hnames name hn)⟩

theorem Spoiled.mono {f f' : List String → Level} {standing standing' : Bool} {c : Node}
    (h : Spoiled f standing c) (hf : ∀ path l, f path = some l → f' path = some l)
    (hs : standing = true → standing' = true) : Spoiled f' standing' c := by
  induction h generalizing f' standing' with
  | leaf meant ne => exact .leaf (hf _ _ meant) ne
  | own meant ne =>
    rw [hs rfl]
    exact .own (hf _ _ meant) ne
  | unnamed unseen meant ne => exact .unnamed unseen (hf _ _ meant) ne
  | overruled seen lower => exact .overruled seen (lower.mono fun path l ↦ hf _ l)
  | child seen _ ih =>
    refine .child seen (ih (fun path l ↦ hf _ l) fun h ↦ ?_)
    rcases Bool.or_eq_true_iff.1 h with h | h
    · simp [h]
    · simp [hs h]

/-! ### Nothing that is laid under helps -/

/-- An overlaid branch, by its parts. -/
theorem Branch.toNode_overlay (upper lower : Branch) (inherited : Level) :
    (upper.overlay lower inherited).toNode =
      .branch (upper.own <|> if upper.rest.isSome then none else lower.own)
        (upper.rest <|> if inherited.isSome then none else lower.rest)
        (upper.overlay lower inherited).children := by
  rw [← overlay_own, ← overlay_rest]
  rfl

/-- What can be laid under a branch: nothing, a leaf or a branch. -/
theorem exists_overlaid_branch (barred : Bool) (inherited : Level) (own rest : Option Grade)
    (children : List (String × Node)) {lower : Option Node} (h : ∀ n ∈ lower, n.WellFormed) :
    overlaid barred inherited (some (.branch own rest children)) lower =
        some (.branch own rest children) ∨
      (∃ g, overlaid barred inherited (some (.branch own rest children)) lower =
        some (.branch own (rest <|> some g) children)) ∨
      ∃ (own' rest' : Option Grade) (children' : List (String × Node))
        (theirs : String → Option Node),
        overlaid barred inherited (some (.branch own rest children)) lower =
          some (.branch (own <|> if rest.isSome then none else own')
            (rest <|> if inherited.isSome then none else rest') children') ∧
        (∀ s, Entries.find? children' s =
          overlaid rest.isSome (rest <|> inherited) (Entries.find? children s) (theirs s)) ∧
        ∀ s, ∀ n ∈ theirs s, n.WellFormed := by
  match lower with
  | none => exact Or.inl rfl
  | some (.leaf g) => exact Or.inr (Or.inl ⟨g, rfl⟩)
  | some (.branch own' rest' children') =>
    have hwf : Branch.WellFormed ⟨own', rest', children'⟩ :=
      Node.wellFormed_branch_iff.1 (h _ rfl)
    exact Or.inr (Or.inr ⟨own', rest', _, Entries.find? children',
      congrArg some (Branch.toNode_overlay ⟨own, rest, children⟩ ⟨own', rest', children'⟩ inherited),
      Branch.find?_overlay ⟨own, rest, children⟩ _ inherited hwf, fun s n hn ↦ hwf.of_find? hn⟩)

/-- **An overruled directory stays so**, or is spoiled by a leaf that becomes its `*`: either the leaf
goes on overruling, or it is wrong for some unnamed child. -/
theorem Overruled.overlaid {d : Grade} {f : List String → Level} {c : Node} (h : Overruled d f c)
    (barred : Bool) {lower : Option Node} (hlower : ∀ n ∈ lower, n.WellFormed) :
    ∃ c', overlaid barred (some d) (some c) lower = some c' ∧
      (Overruled d f c' ∨ Spoiled f true c') := by
  induction h generalizing barred lower with
  | @here f r children meant ne =>
    rcases exists_overlaid_branch barred (some d) none (some r) children hlower with
      heq | ⟨g, heq⟩ | ⟨own', rest', children', -, heq, -, -⟩
    all_goals exact ⟨_, heq, Or.inl (.here meant ne)⟩
  | @child f own children s c seen lower' others ih =>
    rcases exists_overlaid_branch barred (some d) own none children hlower with
      heq | ⟨g, heq⟩ | ⟨own', rest', children', theirs, heq, hfind, hwf⟩
    · exact ⟨_, heq, Or.inl (.child seen lower' others)⟩
    · refine ⟨_, heq, Or.inr ?_⟩
      by_cases hg : g = d
      · subst hg
        exact .overruled seen lower'
      · obtain ⟨names, hnames⟩ := others
        obtain ⟨name, hname⟩ := exists_name_notMem (names ++ Entries.keys children)
        rw [List.mem_append, not_or] at hname
        exact .unnamed (Entries.find?_eq_none_iff.2 hname.2) (hnames name hname.1) (Ne.symm hg)
    · obtain ⟨c', hc', hor⟩ := ih false (hwf s)
      have hseen : Entries.find? children' s = some c' := by rw [hfind, seen]; exact hc'
      refine ⟨_, heq, ?_⟩
      rcases hor with h | h
      · exact Or.inl (.child hseen h others)
      · exact Or.inr (.child hseen (h.mono (fun _ _ ↦ id) (by simp)))

/-- **A spoiled node stays so**, whatever is laid under it. -/
theorem Spoiled.overlaid {f : List String → Level} {standing : Bool} {c : Node}
    (h : Spoiled f standing c) (barred : Bool) (inherited : Level) {lower : Option Node}
    (hlower : ∀ n ∈ lower, n.WellFormed) :
    ∃ c', overlaid barred inherited (some c) lower = some c' ∧ Spoiled f standing c' := by
  induction h generalizing barred inherited lower with
  | leaf meant ne => exact ⟨_, overlaid_leaf _ _ _ _, .leaf meant ne⟩
  | @own f o l rest children meant ne =>
    rcases exists_overlaid_branch barred inherited (some o) rest children hlower with
      heq | ⟨g, heq⟩ | ⟨own', rest', children', -, heq, -, -⟩
    all_goals exact ⟨_, heq, .own meant ne⟩
  | @unnamed f standing own r l children s path unseen meant ne =>
    rcases exists_overlaid_branch barred inherited own (some r) children hlower with
      heq | ⟨g, heq⟩ | ⟨own', rest', children', theirs, heq, hfind, -⟩
    · exact ⟨_, heq, .unnamed unseen meant ne⟩
    · exact ⟨_, heq, .unnamed unseen meant ne⟩
    · have hunseen : Entries.find? children' s = none := by
        rw [hfind, unseen]
        exact overlaid_barred _ _
      exact ⟨_, heq, .unnamed hunseen meant ne⟩
  | @overruled f standing own d children s c seen lower' =>
    rcases exists_overlaid_branch barred inherited own (some d) children hlower with
      heq | ⟨g, heq⟩ | ⟨own', rest', children', theirs, heq, hfind, hwf⟩
    · exact ⟨_, heq, .overruled seen lower'⟩
    · exact ⟨_, heq, .overruled seen lower'⟩
    · obtain ⟨c', hc', hor⟩ := lower'.overlaid true (hwf s)
      have hseen : Entries.find? children' s = some c' := by rw [hfind, seen]; exact hc'
      refine ⟨_, heq, ?_⟩
      rcases hor with h | h
      · exact .overruled hseen h
      · exact .child hseen (h.mono (fun _ _ ↦ id) fun _ ↦ rfl)
  | @child f standing own rest children s c seen lower' ih =>
    rcases exists_overlaid_branch barred inherited own rest children hlower with
      heq | ⟨g, heq⟩ | ⟨own', rest', children', theirs, heq, hfind, hwf⟩
    · exact ⟨_, heq, .child seen lower'⟩
    · refine ⟨_, heq, .child seen (lower'.mono (fun _ _ ↦ id) ?_)⟩
      cases rest <;> simp
    · obtain ⟨c', hc', h⟩ := ih rest.isSome (rest <|> inherited) (hwf s)
      have hseen : Entries.find? children' s = some c' := by rw [hfind, seen]; exact hc'
      refine ⟨_, heq, .child hseen (h.mono (fun _ _ ↦ id) ?_)⟩
      cases rest <;> simp +contextual

/-! ### Trees that do not blend -/

/-- A node whose errors last when it stands below levels of which only the lower tree's may be one
that it was not meant to see. -/
def Marred (f : List String → Level) (above beneath : Level) (c : Node) : Prop :=
  Spoiled f (above <|> beneath).isSome c ∨
    ∃ d, above = none ∧ beneath = some d ∧ Overruled d f c

/-- A child that is marred mars its directory, of whose overlay the parts are known. -/
theorem Marred.of_child {f : List String → Level} {above beneath own upperRest lowerRest : Level}
    {children : List (String × Node)} {s : String} {c : Node}
    (seen : Entries.find? children s = some c)
    (h : Marred (fun path ↦ f (s :: path)) (upperRest <|> above) (lowerRest <|> beneath) c)
    (others : above = none → upperRest = none → lowerRest = none →
      ∃ names : List String, ∀ name, name ∉ names → f [name] = beneath) :
    Marred f above beneath
      (.branch own (upperRest <|> if above.isSome then none else lowerRest) children) := by
  rcases h with h | ⟨d, habove, hbeneath, h⟩
  · refine Or.inl (.child seen (h.mono (fun _ _ ↦ id) ?_))
    rcases upperRest with - | u <;> rcases above with - | a <;> rcases lowerRest with - | l <;> simp
  · rcases upperRest with - | u
    · obtain rfl : above = none := by simpa using habove
      rcases lowerRest with - | l
      · obtain rfl : beneath = some d := by simpa using hbeneath
        exact Or.inr ⟨d, rfl, rfl, .child seen h (others rfl rfl rfl)⟩
      · obtain rfl : l = d := by simpa using hbeneath
        exact Or.inl (.overruled seen h)
    · simp at habove

/-- A directory is marred that answers wrongly for itself below a level it was not meant to see. -/
theorem Marred.of_itself {f : List String → Level} {d l : Grade} {own rest : Option Grade}
    {children : List (String × Node)} (meant : f [] = some l) (ne : (own <|> some d) ≠ some l)
    (h : own = none → rest = some l) : Marred f none (some d) (.branch own rest children) := by
  rcases own with - | o
  · rw [h rfl]
    exact Or.inr ⟨d, rfl, rfl, .here meant fun heq ↦ ne (by simp [heq])⟩
  · exact Or.inl (.own meant fun heq ↦ ne (by simp [heq]))

/-- **What begins to stand above a node leaves it alone or mars it.** -/
theorem quiet_or_marred (d : Grade) (c : Node) {f : List String → Level}
    (hf : ∀ path, f path = (levelFrom (some c) none path <|> some d)) :
    c.Quiet d ∨ Marred f none (some d) c := by
  induction c using Node.induction_find? generalizing f with
  | leaf g => exact Or.inl (.leaf g)
  | branch own rest children ih =>
    by_cases hitself : (own <|> some d) = (rest <|> some d)
    · by_cases hbad : rest = none ∧ ∃ s c, Entries.find? children s = some c ∧
          Marred (fun path ↦ f (s :: path)) none (some d) c
      · obtain ⟨rfl, s, c, seen, hm⟩ := hbad
        show _ ∨ Marred f none (some d)
          (.branch own (none <|> if (none : Level).isSome then none else none) children)
        refine Or.inr (.of_child seen hm fun _ _ _ ↦ ?_)
        refine ⟨Entries.keys children, fun name hname ↦ ?_⟩
        simp [hf, levelFrom_branch_cons, Entries.find?_eq_none_iff.2 hname]
      · refine Or.inl (.branch hitself fun hrest s c seen ↦ ?_)
        refine (ih s c seen fun path ↦ ?_).resolve_right fun h ↦ hbad ⟨hrest, s, c, seen, h⟩
        simp [hf, levelFrom_branch_cons, seen, hrest]
    · obtain ⟨l, hl⟩ : ∃ l, (rest <|> some d) = some l := by cases rest <;> simp
      have hmeant : f [] = some l := by simpa [hf, levelFrom, Branch.answer] using hl
      refine Or.inr (.of_itself hmeant (hl ▸ hitself) fun hown ↦ ?_)
      cases rest with
      | none => exact absurd (by rw [hown]) hitself
      | some r => exact hl

/-! ### Laying a node under a branch -/

/-- The levels that are meant where a lower node is laid under a higher one. For the place itself
nothing is meant if nothing stands above it. -/
def Meant (f : List String → Level) (above beneath : Level) (upper lower : Node) : Prop :=
  ∀ path, path ≠ [] ∨ (above <|> beneath).isSome →
    f path = (levelFrom (some upper) above path <|> levelFrom (some lower) beneath path)

section Meant

variable {f : List String → Level} {above beneath : Level} {upper lower : Branch} {g : Grade}

/-- What is meant below a name. -/
theorem Meant.below (hf : Meant f above beneath upper.toNode lower.toNode) (s : String)
    (path : List String) :
    f (s :: path) =
      (levelFrom (Entries.find? upper.children s) (upper.rest <|> above) path <|>
        levelFrom (Entries.find? lower.children s) (lower.rest <|> beneath) path) :=
  hf _ (Or.inl (List.cons_ne_nil _ _))

theorem Meant.below_leaf (hf : Meant f above beneath upper.toNode (.leaf g)) (s : String)
    (path : List String) :
    f (s :: path) =
      (levelFrom (Entries.find? upper.children s) (upper.rest <|> above) path <|> some g) := by
  rw [hf _ (Or.inl (List.cons_ne_nil _ _)), levelFrom_toNode_cons, levelFrom_leaf]

/-- A leaf becomes the `*` of a branch although another level stands there. -/
theorem Meant.marred_of_standing_leaf (hf : Meant f above beneath upper.toNode (.leaf g))
    (hrest : upper.rest = none) (habove : above ≠ none) (hne : above ≠ some g) :
    Marred f above beneath ((Node.leaf g).overlayUnder upper above).toNode := by
  obtain ⟨own, rest, children⟩ := upper
  obtain rfl : rest = none := hrest
  obtain ⟨a, rfl⟩ := Option.ne_none_iff_exists'.1 habove
  obtain ⟨name, hname⟩ := exists_name_notMem (Entries.keys children)
  have unseen := Entries.find?_eq_none_iff.2 hname
  have hmeant : f [name] = some a := by
    rw [hf.below_leaf, unseen]
    simp
  exact Or.inl (.unnamed unseen hmeant fun heq ↦ hne (congrArg some heq))

/-- A level that begins to stand above a branch makes it answer with its `.` and not with its `*`,
which may be a leaf's. -/
theorem Meant.marred_of_waking_leaf {d : Grade} (hf : Meant f none (some d) upper.toNode (.leaf g))
    (hne : (upper.own <|> some d) ≠ (upper.rest <|> some g)) :
    Marred f none (some d) ((Node.leaf g).overlayUnder upper none).toNode := by
  obtain ⟨l, hl⟩ : ∃ l, (upper.rest <|> some g) = some l := by cases upper.rest <;> simp
  have hmeant : f [] = some l := by
    rw [hf [] (Or.inr rfl), ← hl, levelFrom_toNode_nil, levelFrom_leaf]
    simp [Branch.answer]
  exact .of_itself hmeant (hl ▸ hne) fun _ ↦ hl

/-- A `.` is copied to a branch below a different level that stands there. -/
theorem Meant.marred_of_standing_own (hf : Meant f above beneath upper.toNode lower.toNode)
    (habove : above.isSome) (hown : upper.own = none) (hrest : upper.rest = none)
    (hlower : lower.own ≠ none) (hne : lower.own ≠ above) :
    Marred f above beneath (upper.overlay lower above).toNode := by
  obtain ⟨a, rfl⟩ := Option.isSome_iff_exists.1 habove
  obtain ⟨o, ho⟩ := Option.ne_none_iff_exists'.1 hlower
  have hmeant : f [] = some a := by
    rw [hf [] (Or.inr rfl), levelFrom_toNode_nil]
    simp [Branch.answer, hown]
  rw [Branch.toNode_overlay, hown, hrest, ho]
  exact Or.inl (.own hmeant fun heq ↦ hne (by rw [ho, heq]))

/-- A level that begins to stand above a branch makes it answer with its `.`, which it may have from
below, and not with its `*`. -/
theorem Meant.marred_of_waking_own {d : Grade}
    (hf : Meant f none (some d) upper.toNode lower.toNode)
    (hne : ((upper.own <|> if upper.rest.isSome then none else lower.own) <|> some d) ≠
      (upper.rest <|> lower.own <|> some d)) :
    Marred f none (some d) (upper.overlay lower none).toNode := by
  obtain ⟨l, hl⟩ : ∃ l, (upper.rest <|> lower.own <|> some d) = some l := by
    cases upper.rest <;> cases lower.own <;> simp
  have hmeant : f [] = some l := by
    rw [hf [] (Or.inr rfl), ← hl, levelFrom_toNode_nil, levelFrom_toNode_nil]
    simp [Branch.answer]
  rw [Branch.toNode_overlay]
  refine .of_itself hmeant (hl ▸ hne) fun hown ↦ ?_
  -- Without a `*` of the higher tree neither has a `.`, and what is meant is what stands.
  cases hrest : upper.rest with
  | none =>
    obtain ⟨-, hlower⟩ : upper.own = none ∧ lower.own = none := by simpa [hrest] using hown
    refine absurd ?_ hne
    rw [hown, hrest, hlower]
    rfl
  | some r => simpa [hrest] using hl

end Meant

/-- What `blends_or_marred` says of the node `n`, laid under any branch. -/
def BlendsOrMars (n : Node) : Prop :=
  ∀ (upper : Branch) (above beneath : Level) (f : List String → Level),
    Meant f above beneath upper.toNode n →
    Blends (some upper.toNode) above beneath (some n) ∨
      Marred f above beneath (n.overlayUnder upper above).toNode

/-- The same for what stands at a name in both trees. -/
theorem blends_or_marred_child {upper lower : Option Node} (h : ∀ n ∈ lower, BlendsOrMars n)
    (above beneath : Level) {f : List String → Level}
    (hf : ∀ path, f path = (levelFrom upper above path <|> levelFrom lower beneath path)) :
    Blends upper above beneath lower ∨
      ∃ c, overlaid false above upper lower = some c ∧ Marred f above beneath c := by
  match upper, lower with
  | some (.leaf g), lower => exact Or.inl (.leaf g above beneath lower)
  | none, none => exact Or.inl (.unnamed above beneath)
  | some (.branch own rest children), some n =>
    refine (h n rfl ⟨own, rest, children⟩ above beneath f fun path _ ↦ hf path).imp_right ?_
    exact fun hm ↦ ⟨_, rfl, hm⟩
  | some (.branch own rest children), none =>
    rcases above with - | a
    · rcases beneath with - | d
      · exact Or.inl (.kept _ fun _ _ hd ↦ nomatch hd)
      · rcases quiet_or_marred d (.branch own rest children) (f := f) (by simpa using hf) with hq | hm
        · refine Or.inl (.kept _ fun _ g hg ↦ ?_)
          obtain rfl : d = g := by simpa using hg
          exact hq
        · exact Or.inr ⟨_, rfl, hm⟩
    · exact Or.inl (.kept _ fun h ↦ nomatch h)
  | none, some (.leaf g) =>
    by_cases hagrees : above = none ∨ above = some g
    · exact Or.inl (.copiedLeaf g hagrees)
    · rw [not_or] at hagrees
      obtain ⟨a, rfl⟩ := Option.ne_none_iff_exists'.1 hagrees.1
      have hmeant : f [] = some a := by simp [hf]
      exact Or.inr ⟨_, rfl, Or.inl (.leaf hmeant fun heq ↦ hagrees.2 (congrArg some heq))⟩
  | none, some (.branch own rest children) =>
    have hempty := h _ rfl {} above beneath f fun path _ ↦ by
      rw [hf, levelFrom_none, levelFrom_empty]
    refine hempty.imp (.copiedBranch ⟨own, rest, children⟩) ?_
    exact fun hm ↦ ⟨_, rfl, hm⟩

/-- A leaf blends, or mars what it is laid under. -/
theorem blendsOrMars_leaf (g : Grade) : BlendsOrMars (.leaf g) := by
  intro upper above beneath f hf
  by_cases hagrees : upper.rest = none → above = none ∨ above = some g
  · by_cases hitself : above = none → beneath.isSome →
        (upper.own <|> beneath) = (upper.rest <|> some g)
    · by_cases hbad : upper.rest = none ∧ above = none ∧ ∃ s c,
          Entries.find? upper.children s = some c ∧
            Marred (fun path ↦ f (s :: path)) none (some g) c
      · obtain ⟨hrest, rfl, s, c, seen, hm⟩ := hbad
        refine Or.inr ?_
        show Marred f none beneath (.branch upper.own (upper.rest <|> some g) upper.children)
        rw [hrest]
        exact .of_child seen hm fun _ _ h ↦ nomatch h
      · refine Or.inl (.leafUnder upper g hagrees hitself fun hrest habove s c seen ↦ ?_)
        refine (quiet_or_marred g c fun path ↦ ?_).resolve_right
          fun hm ↦ hbad ⟨hrest, habove, s, c, seen, hm⟩
        rw [hf.below_leaf, seen, hrest, habove]
        rfl
    · simp only [Classical.not_imp] at hitself
      obtain ⟨rfl, hsome, hne⟩ := hitself
      obtain ⟨d, rfl⟩ := Option.isSome_iff_exists.1 hsome
      exact Or.inr (hf.marred_of_waking_leaf hne)
  · simp only [Classical.not_imp, not_or] at hagrees
    obtain ⟨hrest, habove, hne⟩ := hagrees
    exact Or.inr (hf.marred_of_standing_leaf hrest habove hne)

/-- A branch blends, or mars what it is laid under, if its children do. -/
theorem blendsOrMars_branch {lower : Branch} (hwf : lower.WellFormed)
    (hchildren : ∀ s, ∀ n ∈ Entries.find? lower.children s, BlendsOrMars n) :
    BlendsOrMars lower.toNode := by
  intro upper above beneath f hf
  show _ ∨ Marred f above beneath (upper.overlay lower above).toNode
  by_cases hstanding : above.isSome → upper.own = none → upper.rest = none →
      lower.own = none ∨ lower.own = above
  · by_cases hitself : above = none → beneath.isSome →
        ((upper.own <|> if upper.rest.isSome then none else lower.own) <|> beneath) =
          (upper.rest <|> lower.own <|> beneath)
    · by_cases hbad : ∃ s c, Entries.find? (upper.overlay lower above).children s = some c ∧
          Marred (fun path ↦ f (s :: path)) (upper.rest <|> above) (lower.rest <|> beneath) c
      · obtain ⟨s, c, seen, hm⟩ := hbad
        rw [Branch.toNode_overlay]
        refine Or.inr (.of_child seen hm fun habove hrest hlower ↦ ?_)
        refine ⟨Entries.keys upper.children ++ Entries.keys lower.children, fun name hname ↦ ?_⟩
        rw [List.mem_append, not_or] at hname
        simp [hf.below, Entries.find?_eq_none_iff.2 hname.1, Entries.find?_eq_none_iff.2 hname.2,
          habove, hrest, hlower]
      · refine Or.inl (.branchUnder upper lower hstanding hitself fun s hnamed ↦ ?_)
        refine (blends_or_marred_child (hchildren s) _ _ (hf.below s)).resolve_right ?_
        rintro ⟨c, hc, hm⟩
        rw [← overlaid_of_named hnamed, ← Branch.find?_overlay _ _ _ hwf] at hc
        exact hbad ⟨s, c, hc, hm⟩
    · simp only [Classical.not_imp] at hitself
      obtain ⟨rfl, hsome, hne⟩ := hitself
      obtain ⟨d, rfl⟩ := Option.isSome_iff_exists.1 hsome
      exact Or.inr (hf.marred_of_waking_own hne)
  · simp only [Classical.not_imp, not_or] at hstanding
    obtain ⟨habove, hown, hrest, hlower, hne⟩ := hstanding
    exact Or.inr (hf.marred_of_standing_own habove hown hrest hlower hne)

/-- **A lower tree blends into a higher one, or their overlay is marred.** -/
theorem blends_or_marred {n : Node} (h : n.WellFormed) : BlendsOrMars n := by
  induction h with
  | leaf g => exact blendsOrMars_leaf g
  | @branch own rest children distinct ordinary below ih =>
    show BlendsOrMars (Branch.toNode ⟨own, rest, children⟩)
    exact blendsOrMars_branch ⟨distinct, ordinary, below⟩ fun s n hn ↦
      ih _ (Entries.mem_of_find? hn)

end PathAccess
