import PathAccess.Proofs.Path.Append
/-!
# Names of a home

A home can be written with a tilde before the name of its owner, with a bare tilde by the owner itself, or as
the path that `homeOf` gives. Each of the three asks something else of the name before it chooses between
the parent of the homes of groups and that of the homes of players: whether it begins with a letter from `A`
to `Z`, nothing at all, and whether it begins with an upper-case character.

So they give the same segments for every name that begins with no upper-case character, and for the others
only where both parents are the same directory (`Resolver.home_names_agree_iff`). With the default parents
a group that acts is sent to the home of a player (`Resolver.bare_tilde_of_group`).
-/

namespace PathAccess

/-- A letter from `A` to `Z` is an upper-case character. -/
theorem Text.isUpper_of_letter {c : Char} (h : 'A' ≤ c && c ≤ 'Z') : Text.isUpper c := by
  obtain ⟨hfirst, hlast⟩ : 'A' ≤ c ∧ c ≤ 'Z' := by simpa using h
  have hascii : c.toNat < 0x80 := Nat.lt_of_le_of_lt (Char.le_def.1 hlast) (by decide)
  rw [Text.isUpper, if_pos hascii]
  exact decide_eq_true ⟨hfirst, hlast⟩

namespace Path

variable {name : String}

/-- A name below a root is the last segment, behind those of the root. -/
theorem segmentsOf_home (h : IsSegment name) (hdot : name ≠ ".") (root : String) :
    segmentsOf ("/" ++ root ++ "/" ++ name) false = segmentsOf root false ++ [name] := by
  have hsplit : Text.splitAt '/' name = [name] := by
    rw [Text.splitAt, Text.splitAt_go_of_notMem h.slash_notMem]
    simp
  have hname : segmentsOf name false = [name] := by
    rw [segmentsOf, hsplit]
    exact collapse_singleton (by simp [h.ne_empty, h.ne_up, hdot]) false
  have hsteps : stepsUp false (Text.splitAt '/' name) = 0 := by
    rw [hsplit]
    exact stepsUp_eq_zero (by simpa using h.ne_up.symm)
  rw [segmentsOf_append, segmentsOf_slash, follow, hsteps, List.rdrop_zero, hname]

namespace Resolver

variable (r : Resolver)

/-- The parent of a home: that of the homes of groups or that of the homes of players. -/
def homeRoot (ofGroup : Bool) : String :=
  if ofGroup then r.domainRoot else r.playerRoot

theorem homeOfTilde_eq {c : Char} {cs : List Char} (h : name.toList = c :: cs) :
    r.homeOfTilde name = "/" ++ r.homeRoot ('A' ≤ c && c ≤ 'Z') ++ "/" ++ name := by
  rw [homeOfTilde, h, homeRoot]
  dsimp only
  split <;> rfl

theorem homeOf_eq {c : Char} {cs : List Char} (h : name.toList = c :: cs) :
    r.homeOf name = "/" ++ r.homeRoot (Text.isUpper c) ++ "/" ++ name := by
  rw [homeOf, h, homeRoot]
  dsimp only
  split <;> rfl

theorem segmentsOf_homeRoot_eq_iff (ofGroup : Bool) :
    segmentsOf (r.homeRoot ofGroup) false = segmentsOf r.playerRoot false ↔
      (ofGroup → segmentsOf r.domainRoot false = segmentsOf r.playerRoot false) := by
  cases ofGroup <;> simp [homeRoot]

/-- **The three names of a home agree** exactly if the name of its owner begins with no upper-case character,
or the homes of groups and those of players have the same parent. The bare tilde is that of the owner, and
nothing else depends on who asks and from where. -/
theorem home_names_agree_iff (h : IsSegment name) (hdot : name ≠ ".")
    (hhome : isHomeless name = false) (acting acting' cwd cwd' cwd'' : Option String) :
    ∃ byTilde byActing byHome,
      r.resolve (.text ("~" ++ name)) acting cwd false = .ok byTilde ∧
      r.resolve (.text "~") (some name) cwd' false = .ok byActing ∧
      r.resolve (.text (r.homeOf name)) acting' cwd'' false = .ok byHome ∧
      (byTilde = byActing ∧ byActing = byHome ↔
        (name.toList.head?.any Text.isUpper →
          segmentsOf r.domainRoot false = segmentsOf r.playerRoot false)) := by
  obtain ⟨c, cs, hcs⟩ : ∃ c cs, name.toList = c :: cs :=
    List.exists_cons_of_ne_nil fun hnil ↦ h.ne_empty (String.toList_inj.1 hnil)
  have htilde : r.resolve (.text ("~" ++ name)) acting cwd false =
      .ok (segmentsOf (r.homeRoot ('A' ≤ c && c ≤ 'Z')) false ++ [name]) := by
    have hne : "~" ++ name ≠ "" := by simp
    have hlist : ("~" ++ name).toList = '~' :: c :: cs := by simp [hcs]
    have hslash : c ≠ '/' := fun heq ↦ h.slash_notMem (by simp [hcs, heq])
    rw [resolve_text _ hne, hlist, join_home _ _ _ hslash, ← hcs, String.ofList_toList,
      r.homeOfTilde_eq hcs, segmentsOf_home h hdot]
  have hacting : r.resolve (.text "~") (some name) cwd' false =
      .ok (segmentsOf r.playerRoot false ++ [name]) := by
    have hactor : r.actor (some name) = some name := by simp [actor, h.ne_empty]
    have hjoin : r.join "~".toList (some name) cwd' = "/" ++ r.playerRoot ++ "/" ++ name := by
      change join.bareHome r (some name) [] = _
      simp [join.bareHome, hhome]
    rw [resolve_text _ (by decide), hactor, hjoin, segmentsOf_home h hdot]
  have hhomeOf : r.resolve (.text (r.homeOf name)) acting' cwd'' false =
      .ok (segmentsOf (r.homeRoot (Text.isUpper c)) false ++ [name]) := by
    have hhead : (r.homeOf name).toList.head? = some '/' := by simp [r.homeOf_eq hcs]
    have hne : r.homeOf name ≠ "" := by simp [r.homeOf_eq hcs]
    rw [resolve_text _ hne, segmentsOf_join_absolute _ _ _ hhead, String.ofList_toList,
      r.homeOf_eq hcs, segmentsOf_home h hdot]
  refine ⟨_, _, _, htilde, hacting, hhomeOf, ?_⟩
  -- A letter from A to Z is an upper-case character, so the tilde never tells apart more than the path.
  have hlatin : ('A' ≤ c && c ≤ 'Z') → Text.isUpper c := Text.isUpper_of_letter
  rw [List.append_left_inj, List.append_left_inj, segmentsOf_homeRoot_eq_iff,
    eq_comm (a := segmentsOf r.playerRoot false), segmentsOf_homeRoot_eq_iff, hcs]
  exact ⟨fun hagree ↦ hagree.2, fun hroots ↦ ⟨fun hletter ↦ hroots (hlatin hletter), hroots⟩⟩

/-- The home of a player whose name begins with a lower-case letter, in any script. -/
theorem home_names_agree_iff_lower :
    let r : Resolver := {}
    ∃ home, r.resolve (.text ("~" ++ "élan")) none none false = .ok home ∧
      r.resolve (.text "~") (some "élan") none false = .ok home ∧
      r.resolve (.text (r.homeOf "élan")) none none false = .ok home := by
  have hname : IsSegment "élan" := by decide
  obtain ⟨byTilde, byActing, byHome, htilde, hacting, hhome, hagree⟩ :=
    home_names_agree_iff {} hname (by decide) (by decide) none none none none none
  have hlower : "élan".toList.head?.any Text.isUpper = false := by decide +kernel
  obtain ⟨rfl, rfl⟩ := hagree.2 fun hupper ↦ absurd (hlower.symm.trans hupper) Bool.false_ne_true
  exact ⟨_, htilde, hacting, hhome⟩

/-- **A group that acts is not at home where a tilde is.** A bare tilde stands for the home of a player, whoever
acts, while the home of a group is elsewhere. -/
theorem bare_tilde_of_group :
    let r : Resolver := {}
    (IsSegment "Elandar" ∧ "Elandar" ≠ "." ∧ isHomeless "Elandar" = false) ∧
      ∃ byTilde byActing byHome,
        r.resolve (.text ("~" ++ "Elandar")) none none false = .ok byTilde ∧
        r.resolve (.text "~") (some "Elandar") none false = .ok byActing ∧
        r.resolve (.text (r.homeOf "Elandar")) none none false = .ok byHome ∧
        byTilde = byHome ∧ byActing ≠ byHome :=
  ⟨by decide, ["d", "Elandar"], ["players", "Elandar"], ["d", "Elandar"], rfl, rfl, rfl, rfl, by decide⟩

end Resolver

end Path

end PathAccess
