import PathAccess.Proofs.Tree.Edits
import PathAccess.Proofs.Tree.Same
import PathAccess.Proofs.Tree.Uncovered
/-!
# Independent edits

Two edits are independent if neither path is a prefix of the other. They can be made in either order: the tree
is the same afterwards, and a removal finds its entry in the one order exactly if it does in the other
(`Tree.edit_comm`). Above the point where their paths part they share branches, which either may split, make,
fold or take away.

Below their common part the two edits are edits of one branch, whatever form each leaves it in, since the
shortest form of a branch leads back to the branch (`Branch.below_edited`). Where the paths part, the edits
put two different children, and neither looks at the other's (`Branch.exists_slot`). The order may be seen in
the order of the children, when both make a child of the same branch.
-/

namespace PathAccess

/-- Paths that part: after a common beginning they go on with different names. -/
inductive Parted : List String → List String → Prop
  | fork {x y : String} (h : x ≠ y) (p q : List String) : Parted (x :: p) (y :: q)
  | under (x : String) {p q : List String} (h : Parted p q) : Parted (x :: p) (x :: q)

theorem parted_of_not_prefix {p q : List String} (hpq : ¬p <+: q) (hqp : ¬q <+: p) : Parted p q := by
  induction p generalizing q with
  | nil => exact absurd List.nil_prefix hpq
  | cons x p ih =>
    cases q with
    | nil => exact absurd List.nil_prefix hqp
    | cons y q =>
      by_cases hxy : x = y
      · subst hxy
        rw [List.cons_prefix_cons, not_and] at hpq hqp
        exact .under x (ih (hpq rfl) (hqp rfl))
      · exact .fork hxy p q

namespace Parted

variable {p q : List String}

theorem symm (h : Parted p q) : Parted q p := by
  induction h with
  | fork h p q => exact .fork h.symm q p
  | under x _ ih => exact .under x ih

theorem ne_nil (h : Parted p q) : p ≠ [] := by
  cases h <;> exact List.cons_ne_nil _ _

end Parted

namespace Branch

variable {b : Branch} {p q : List String}

/-- **An independent edit finds the same**, before the other and after it. -/
theorem isSome_edit?_edited (hb : b.WellFormed) (hp : Ordinary p) (hq : Ordinary q) (h : Parted p q)
    (l m : Level) : ((b.edited p l).edit? q m).isSome = (b.edit? q m).isSome := by
  induction h generalizing b with
  | @fork x y h p q =>
    obtain ⟨slot, hslot⟩ := exists_slot hq b m
    rw [hslot b rfl rfl, hslot _ (modifiers_edited hp b l).2 (find?_edited_of_ne hp h.symm b l),
      Option.isSome_map, Option.isSome_map]
  | @under x p q h ih =>
    rw [edit?_cons h.symm.ne_nil hq.tail, edit?_cons h.symm.ne_nil hq.tail, Option.isSome_map,
      Option.isSome_map, below_edited hb.distinct h.ne_nil hp.tail]
    exact ih (hb.below_branch x) hp.tail hq.tail

/-- One of the edits comes to nothing, in the one order as in the other. -/
theorem edited_comm_of_edit?_eq_none (hb : b.WellFormed) (hp : Ordinary p) (hq : Ordinary q)
    (h : Parted p q) {l : Level} (hnone : b.edit? p l = none) (m : Level) :
    (b.edited q m).edited p l = (b.edited p l).edited q m := by
  have hstill : (b.edited q m).edit? p l = none := by
    rw [← Option.not_isSome_iff_eq_none, isSome_edit?_edited hb hq hp h.symm, hnone]
    exact Bool.false_ne_true
  rw [edited_of_edit?_eq_none hstill, edited_of_edit?_eq_none hnone]

/-! ### Two edits in either order -/

variable {x y : String} {l m : Level}

/-- Edits of children leave the modifiers, so two of them compare by what they make of the children. -/
theorem same_edited_iff (hb : b.WellFormed) (hp : Ordinary (x :: p)) (hq : Ordinary (y :: q)) :
    ((b.edited (x :: p) l).edited (y :: q) m).same ((b.edited (y :: q) m).edited (x :: p) l) ↔
      ∀ name, Node.SameOption
        (Entries.find? ((b.edited (x :: p) l).edited (y :: q) m).children name)
        (Entries.find? ((b.edited (y :: q) m).edited (x :: p) l).children name) := by
  have hpq := ((hb.edited hp l).edited hq m).keyed
  have hqp := ((hb.edited hq m).edited hp l).keyed
  obtain ⟨hownp, hrestp⟩ := modifiers_edited hp b l
  obtain ⟨hownq, hrestq⟩ := modifiers_edited hq b m
  obtain ⟨hownpq, hrestpq⟩ := modifiers_edited hq (b.edited (x :: p) l) m
  obtain ⟨hownqp, hrestqp⟩ := modifiers_edited hp (b.edited (y :: q) m) l
  rw [same_iff hpq hqp, hownpq, hownqp, hownp, hownq, hrestpq, hrestqp, hrestp, hrestq]
  simp

/-- **Where the paths part**, each edit alone decides what stands at its own name. -/
theorem find?_edited_comm (hb : b.WellFormed) (hxy : x ≠ y) (hp : Ordinary (x :: p))
    (hq : Ordinary (y :: q)) (name : String) :
    Entries.find? ((b.edited (x :: p) l).edited (y :: q) m).children name =
      Entries.find? ((b.edited (y :: q) m).edited (x :: p) l).children name := by
  by_cases hx : name = x
  · subst hx
    rw [find?_edited_of_ne hq hxy]
    exact (find?_edited_congr hp hb.distinct (hb.edited hq m).distinct (modifiers_edited hq b m).2
      (find?_edited_of_ne hq hxy b m) l).symm
  · rw [find?_edited_of_ne hp hx]
    by_cases hy : name = y
    · subst hy
      exact find?_edited_congr hq hb.distinct (hb.edited hp l).distinct (modifiers_edited hp b l).2
        (find?_edited_of_ne hp hx b l) m
    · rw [find?_edited_of_ne hq hy, find?_edited_of_ne hq hy, find?_edited_of_ne hp hx]

/-- **Below a common name**, the edits make the same of the child as of the branch below, if both find their
entry there. -/
theorem sameOption_find?_edited (hb : b.WellFormed) (hp : Ordinary (x :: p)) (hq : Ordinary (x :: q))
    (h : Parted p q) (hl : (b.edit? (x :: p) l).isSome) (hm : (b.edit? (x :: q) m).isSome)
    (hbelow : (((b.below x).edited p l).edited q m).same (((b.below x).edited q m).edited p l))
    (name : String) :
    Node.SameOption (Entries.find? ((b.edited (x :: p) l).edited (x :: q) m).children name)
      (Entries.find? ((b.edited (x :: q) m).edited (x :: p) l).children name) := by
  by_cases hx : name = x
  · subst hx
    have hl' := isSome_edit?_edited hb hq hp (.under name h.symm) m l
    have hm' := isSome_edit?_edited hb hp hq (.under name h) l m
    rw [hl] at hl'
    rw [hm] at hm'
    rw [find?_edited_self (hb.edited hp l).distinct h.symm.ne_nil hq.tail hm',
      find?_edited_self (hb.edited hq m).distinct h.ne_nil hp.tail hl',
      below_edited hb.distinct h.ne_nil hp.tail, below_edited hb.distinct h.symm.ne_nil hq.tail]
    exact sameOption_compact hbelow
  · rw [find?_edited_of_ne hq hx, find?_edited_of_ne hp hx, find?_edited_of_ne hp hx,
      find?_edited_of_ne hq hx]
    exact hb.keyed.sameOption_find? name

/-- **Independent edits of a branch** lead to the same branch in either order. -/
theorem same_edited_comm (hb : b.WellFormed) (hp : Ordinary p) (hq : Ordinary q) (h : Parted p q)
    (l m : Level) : ((b.edited p l).edited q m).same ((b.edited q m).edited p l) := by
  induction h generalizing b with
  | @fork x y hxy p q =>
    refine (same_edited_iff hb hp hq).2 fun name ↦ ?_
    rw [find?_edited_comm hb hxy hp hq]
    exact ((hb.edited hq m).edited hp l).keyed.sameOption_find? name
  | @under x p q h ih =>
    cases hl : b.edit? (x :: p) l with
    | none =>
      rw [edited_comm_of_edit?_eq_none hb hp hq (.under x h) hl]
      exact ((hb.edited hp l).edited hq m).keyed.same_self
    | some c =>
      cases hm : b.edit? (x :: q) m with
      | none =>
        rw [edited_comm_of_edit?_eq_none hb hq hp (.under x h.symm) hm]
        exact ((hb.edited hq m).edited hp l).keyed.same_self
      | some d =>
        have hbelow := ih (hb.below_branch x) hp.tail hq.tail
        exact (same_edited_iff hb hp hq).2 (sameOption_find?_edited hb hp hq h (Option.isSome_of_eq_some hl)
          (Option.isSome_of_eq_some hm) hbelow)

end Branch

namespace Tree

variable {t : Tree} {p q : List String}

/-- A removal is refused exactly if the root does not find the entry. -/
theorem revoke_eq_notFound_iff_isSome {path : List String} :
    (t.revoke path).1 = .notFound ↔ (t.root.edit? path none).isSome = false := by
  rw [revoke_eq_notFound_iff, Option.isSome_eq_false_iff, Option.isNone_iff_eq_none]
  rfl

/-- **Independent edits commute.** At paths of which neither is a prefix of the other, grants and removals lead
to the same tree in either order, and whether a removal finds its entry does not depend on the other edit. -/
theorem edit_comm (ht : t.WellFormed) (hp : Ordinary p) (hq : Ordinary q) (hpq : ¬p <+: q)
    (hqp : ¬q <+: p) (l m : Level) :
    ((t.edit p l).edit q m).same ((t.edit q m).edit p l) ∧
      (((t.edit q m).revoke p).1 = .notFound ↔ (t.revoke p).1 = .notFound) ∧
      (((t.edit p l).revoke q).1 = .notFound ↔ (t.revoke q).1 = .notFound) := by
  have h : Parted p q := parted_of_not_prefix hpq hqp
  refine ⟨?_, ?_, ?_⟩
  · have hroot := Branch.same_edited_comm ht hp hq h l m
    simp only [same, root_edit, groups_edit, hroot]
    simp
  · rw [revoke_eq_notFound_iff_isSome, revoke_eq_notFound_iff_isSome, root_edit,
      Branch.isSome_edit?_edited ht hq hp h.symm]
  · rw [revoke_eq_notFound_iff_isSome, revoke_eq_notFound_iff_isSome, root_edit,
      Branch.isSome_edit?_edited ht hp hq h]

/-- A directory with one child and equal modifiers. A removal of the child folds it to a leaf, which the grant
then splits; after the grant there is nothing to fold. -/
theorem edit_comm_folding :
    let t : Tree := {
      root := { children := [("a", .branch (some .write) (some .write) [("x", .leaf .read)])] } }
    (t.WellFormed ∧ Ordinary ["a", "x"] ∧ Ordinary ["a", "y", "z"] ∧ ¬["a", "x"] <+: ["a", "y", "z"] ∧
      ¬["a", "y", "z"] <+: ["a", "x"]) ∧
      ((t.revoke ["a", "x"]).2.grant ["a", "y", "z"] .grant).same
        ((t.grant ["a", "y", "z"] .grant).revoke ["a", "x"]).2 ∧
      ((t.grant ["a", "y", "z"] .grant).revoke ["a", "x"]).1 ≠ .notFound := by
  intro t
  have ht : t.WellFormed := by decide
  have hp : Ordinary ["a", "x"] := by decide
  have hq : Ordinary ["a", "y", "z"] := by decide
  have hpq : ¬["a", "x"] <+: ["a", "y", "z"] := by decide
  have hqp : ¬["a", "y", "z"] <+: ["a", "x"] := by decide
  obtain ⟨hsame, hfound, -⟩ := edit_comm ht hp hq hpq hqp none (some .grant)
  have hthere : (t.revoke ["a", "x"]).1 ≠ .notFound := by decide
  exact ⟨⟨ht, hp, hq, hpq, hqp⟩, hsame, fun h ↦ hthere (hfound.1 h)⟩

end Tree

end PathAccess
