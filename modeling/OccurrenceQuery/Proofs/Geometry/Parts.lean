/-
The parts of a polygon and of several polygons. A polygon has no problem when its shell passes the rules for shells,
each hole fits into it, and each two holes keep clear of each other; so the order of the holes does not matter, and
no hole needs another to be there. Nothing of this uses a law of arithmetic. The order of several polygons does not
matter either, but this is geometry: a stretch that two segments share is seen from both of them.
-/
import OccurrenceQuery.Proofs.Geometry.Acceptance

namespace OccurrenceQuery.Geometry

/-! ## Pairs of entries -/

section Pairs

variable {β γ : Type} {R : β → β → Prop} {bs : List β}

theorem forall_lt_iff_pairwise : (∀ (i j : ℕ) (x y : β), i < j → bs[i]? = some x → bs[j]? = some y → R x y) ↔
    bs.Pairwise R := by
  rw [List.pairwise_iff_getElem]
  constructor
  · exact fun h i j hi hj hij => h i j _ _ hij (List.getElem?_eq_getElem hi) (List.getElem?_eq_getElem hj)
  · intro h i j x y hij hx hy
    obtain ⟨hi, rfl⟩ := List.getElem?_eq_some_iff.1 hx
    obtain ⟨hj, rfl⟩ := List.getElem?_eq_some_iff.1 hy
    exact h i j hi hj hij

theorem forall_ne_iff_pairwise : (∀ (i j : ℕ) (x y : β), i ≠ j → bs[i]? = some x → bs[j]? = some y → R x y) ↔
    bs.Pairwise fun x y => R x y ∧ R y x := by
  rw [← forall_lt_iff_pairwise]
  constructor
  · exact fun h i j x y hij hx hy => ⟨h i j x y hij.ne hx hy, h j i y x hij.ne' hy hx⟩
  · intro h i j x y hij hx hy
    rcases Nat.lt_or_gt_of_ne hij with hlt | hgt
    · exact (h i j x y hlt hx hy).1
    · exact (h j i y x hgt hy hx).2

/-- Whether some entry of one list is related to some entry of another can be asked from either side. -/
theorem any_any_comm {f : β → γ → Bool} {g : γ → β → Bool} (h : ∀ b c, f b c = g c b) (bs : List β)
    (cs : List γ) : (bs.any fun b => cs.any (f b)) = cs.any fun c => bs.any (g c) := by
  rw [Bool.eq_iff_iff]
  simp only [List.any_eq_true]
  constructor
  · rintro ⟨b, hb, c, hc, hbc⟩
    exact ⟨c, hc, b, hb, by rw [← h, hbc]⟩
  · rintro ⟨c, hc, b, hb, hcb⟩
    exact ⟨b, hb, c, hc, by rw [h, hcb]⟩

end Pairs

section Holes

variable {α : Type} [Scalar α]

theorem ringsCross_comm (r s : Ring α) : ringsCross r s = ringsCross s r :=
  any_any_comm (fun _ _ => Bool.and_comm _ _) (segments r) (segments s)

namespace Polygon

/-! ## Shell and holes -/

/-- Whether a ring passes the rules for shells. -/
structure IsShell (ring : Ring α) : Prop where
  faultless : ringFault? ring = none
  winding : ¬ signedArea ring < 0

/-- Whether a ring passes the rules for holes of the given shell. -/
structure Fits (shell hole : Ring α) : Prop where
  faultless : ringFault? hole = none
  winding : ¬ 0 < signedArea hole
  crossing : ringsCross shell hole = false
  held : holdsHole shell hole = true

/-- Whether two rings pass the rules for two holes of one polygon. -/
structure KeepsClear (r s : Ring α) : Prop where
  crossing : ringsCross r s = false
  nesting : reachesInto r s = false ∧ reachesInto s r = false

theorem KeepsClear.symm {r s : Ring α} (h : KeepsClear r s) : KeepsClear s r :=
  ⟨by rw [ringsCross_comm, h.crossing], h.nesting.symm⟩

theorem problem?_eq_none_iff_parts (p : Polygon α) : p.problem? = none ↔
    IsShell p.shell ∧ (∀ hole ∈ p.holes, Fits p.shell hole) ∧ p.holes.Pairwise KeepsClear := by
  rw [problem?_eq_none_iff, ringProblem?_eq_none_iff, orientationProblem?_eq_none_iff, crossingProblem?_eq_none_iff,
    outsideProblem?_eq_none_iff, nestingProblem?_eq_none_iff, forall_lt_iff_pairwise, forall_ne_iff_pairwise, rings,
    List.forall_mem_cons, List.pairwise_cons]
  constructor
  · rintro ⟨⟨hshell, hholes⟩, ⟨hleft, hright⟩, ⟨hcross, hcross'⟩, hheld, hnest⟩
    exact ⟨⟨hshell, hleft⟩, fun hole h => ⟨hholes hole h, hright hole h, hcross hole h, hheld hole h⟩,
      hcross'.imp₂ (fun _ _ => KeepsClear.mk) hnest⟩
  · rintro ⟨hshell, hfits, hclear⟩
    exact ⟨⟨hshell.faultless, fun hole h => (hfits hole h).faultless⟩,
      ⟨hshell.winding, fun hole h => (hfits hole h).winding⟩,
      ⟨fun hole h => (hfits hole h).crossing, hclear.imp KeepsClear.crossing⟩,
      fun hole h => (hfits hole h).held, hclear.imp KeepsClear.nesting⟩

/-- With only some of its holes, in any order, a polygon without a problem has none either. -/
theorem problem?_of_subperm {shell : Ring α} {holes kept : List (Ring α)} (hkept : kept.Subperm holes)
    (h : (⟨shell, holes⟩ : Polygon α).problem? = none) : (⟨shell, kept⟩ : Polygon α).problem? = none := by
  obtain ⟨hshell, hfits, hclear⟩ := (problem?_eq_none_iff_parts _).1 h
  obtain ⟨sub, hperm, hsub⟩ := hkept
  refine (problem?_eq_none_iff_parts _).2 ⟨hshell, fun hole hhole => hfits hole ?_, ?_⟩
  · exact hsub.mem (hperm.mem_iff.2 hhole)
  · exact hperm.pairwise (hclear.sublist hsub) KeepsClear.symm

/-! ## Members -/

theorem problemOfAll?_eq_none_iff_pairwise (members : List (Polygon α)) : problemOfAll? members = none ↔
    (∀ p ∈ members, p.problem? = none) ∧ members.Pairwise fun p q => p.overlaps q = false := by
  rw [problemOfAll?_eq_none_iff, forall_lt_iff_pairwise]

/-- The order of the holes does not matter to whether a polygon has a problem. A polygon without a problem keeps none
when holes are taken out, and so do several polygons when members are; a single member counts as a polygon alone. -/
theorem problem?_of_parts (α : Type) [Scalar α] :
    (∀ (shell : Ring α) (holes reordered : List (Ring α)), reordered.Perm holes →
      ((⟨shell, reordered⟩ : Polygon α).problem? = none ↔ (⟨shell, holes⟩ : Polygon α).problem? = none)) ∧
    (∀ (shell : Ring α) (holes kept : List (Ring α)), kept.Sublist holes →
      (⟨shell, holes⟩ : Polygon α).problem? = none → (⟨shell, kept⟩ : Polygon α).problem? = none) ∧
    (∀ members kept : List (Polygon α), kept.Sublist members →
      problemOfAll? members = none → problemOfAll? kept = none) ∧
    ∀ p : Polygon α, problemOfAll? [p] = p.problem? := by
  refine ⟨fun shell holes reordered hperm => ?_, fun shell holes kept hsub => ?_, fun members kept hsub h => ?_,
    fun p => ?_⟩
  · exact ⟨problem?_of_subperm hperm.symm.subperm, problem?_of_subperm hperm.subperm⟩
  · exact problem?_of_subperm hsub.subperm
  · rw [problemOfAll?_eq_none_iff_pairwise] at h ⊢
    exact ⟨fun p hp => h.1 p (hsub.mem hp), h.2.sublist hsub⟩
  · simp [problemOfAll?, orderedPairs]

/-- A triangle that is closed through a negative zero. -/
def gable : Ring Float := [⟨0, 0⟩, ⟨8, 0⟩, ⟨0, 8⟩, ⟨-0, 0⟩]

/-- A clockwise triangle inside the gable. -/
def leftWindow : Ring Float := [⟨1, 1⟩, ⟨1, 2⟩, ⟨2, 1⟩, ⟨1, 1⟩]

/-- A clockwise triangle inside the gable, at the right of the other window. -/
def rightWindow : Ring Float := [⟨4, 1⟩, ⟨4, 2⟩, ⟨5, 1⟩, ⟨4, 1⟩]

/-- A triangle at the right of the gable, with no position in common. -/
def leaning : Polygon Float := ⟨[⟨9, 0⟩, ⟨9, 1⟩, ⟨8, 1⟩, ⟨9, 0⟩], []⟩

/-- A triangle with two holes in either order and with one of them, and the triangle beside another and alone. -/
theorem problem?_of_parts_gable :
    (⟨gable, [leftWindow, rightWindow]⟩ : Polygon Float).problem? = none ∧
    (⟨gable, [rightWindow, leftWindow]⟩ : Polygon Float).problem? = none ∧
    (⟨gable, [rightWindow]⟩ : Polygon Float).problem? = none ∧
    problemOfAll? [leaning, ⟨gable, []⟩] = none ∧ problemOfAll? [(⟨gable, []⟩ : Polygon Float)] = none := by
  obtain ⟨hreorder, hremove, hmembers, -⟩ := problem?_of_parts Float
  have hholes : (⟨gable, [leftWindow, rightWindow]⟩ : Polygon Float).problem? = none := by decide +kernel
  have hbeside : problemOfAll? [leaning, ⟨gable, []⟩] = none := by decide +kernel
  refine ⟨hholes, ?_, ?_, hbeside, ?_⟩
  · exact (hreorder gable _ _ (List.Perm.swap leftWindow rightWindow [])).2 hholes
  · exact hremove gable _ _ (List.sublist_cons_self leftWindow [rightWindow]) hholes
  · exact hmembers _ _ (List.sublist_cons_self leaning _) hbeside

end Polygon

end Holes

/-! ## Several polygons in another order -/

theorem ringsShareEdge_comm (r s : Ring ℚ) : ringsShareEdge r s = ringsShareEdge s r :=
  any_any_comm Segment.overlaps_comm (segments r) (segments s)

namespace Polygon

theorem boundariesMeet_comm (a b : Polygon ℚ) : boundariesMeet a b = boundariesMeet b a :=
  any_any_comm (fun r s => by rw [ringsCross_comm, ringsShareEdge_comm]) a.rings b.rings

theorem overlaps_comm (a b : Polygon ℚ) : a.overlaps b = b.overlaps a := by
  rw [overlaps, overlaps, boundariesMeet_comm, Bool.or_assoc, Bool.or_assoc, Bool.or_comm (List.any _ _)]

/-- Overlap is mutual, whatever the rings, and the order of several polygons does not matter to whether they have a
problem. -/
theorem problemOfAll?_reordered : (∀ a b : Polygon ℚ, a.overlaps b = b.overlaps a) ∧
    ∀ members reordered : List (Polygon ℚ), reordered.Perm members →
      (problemOfAll? reordered = none ↔ problemOfAll? members = none) := by
  refine ⟨overlaps_comm, fun members reordered hperm => ?_⟩
  rw [problemOfAll?_eq_none_iff_pairwise, problemOfAll?_eq_none_iff_pairwise]
  refine and_congr ?_ (hperm.pairwise_iff fun h => by rw [overlaps_comm, h])
  exact forall_congr' fun p => imp_congr_left hperm.mem_iff

/-- A square with a repeated position, and a triangle that touches it in a corner. -/
def doubled : Polygon ℚ := ⟨[⟨0, 0⟩, ⟨1, 0⟩, ⟨1, 0⟩, ⟨1, 1⟩, ⟨0, 1⟩, ⟨0, 0⟩], []⟩

/-- The triangle that touches the square in its corner. -/
def cornered : Polygon ℚ := ⟨[⟨1, 1⟩, ⟨2, 1⟩, ⟨2, 2⟩, ⟨1, 1⟩], []⟩

theorem problemOfAll?_reordered_corner :
    problemOfAll? [doubled, cornered] = none ∧ problemOfAll? [cornered, doubled] = none := by
  have h : problemOfAll? [doubled, cornered] = none := by decide +kernel
  exact ⟨h, (problemOfAll?_reordered.2 _ _ (List.Perm.swap doubled cornered [])).2 h⟩

end Polygon

end OccurrenceQuery.Geometry
