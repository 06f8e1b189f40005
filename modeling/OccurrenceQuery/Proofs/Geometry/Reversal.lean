/-
Rings read backwards. The segments of a ring in reverse order are its segments turned round, so a ring has a fault
exactly when its reverse has one, while its signed area changes the sign. Of the two ways round, a polygon with an
area is accepted with one only.
-/
import Mathlib.Data.List.Rotate
import OccurrenceQuery.Proofs.Geometry.Sides
import OccurrenceQuery.Proofs.Geometry.SignedArea

namespace OccurrenceQuery.Geometry

/-! ## Segments turned round -/

section Segments

variable {α : Type}

/-- The segment from the stop to the start. -/
def Segment.turned (s : Segment α) : Segment α := ⟨s.stop, s.start⟩

theorem segments_append_cons : ∀ (ps : List (Position α)) (q : Position α) (qs : List (Position α)),
    segments (ps ++ q :: qs) = segments (ps ++ [q]) ++ segments (q :: qs)
  | [], _, _ => rfl
  | [_], _, _ => rfl
  | p :: r :: ps, q, qs => by
    have ih := segments_append_cons (r :: ps) q qs
    simp only [List.cons_append, segments] at ih ⊢
    rw [ih]

theorem segments_concat_concat (ps : List (Position α)) (p q : Position α) :
    segments (ps ++ [p] ++ [q]) = segments (ps ++ [p]) ++ [⟨p, q⟩] := by
  rw [List.append_assoc, List.singleton_append, segments_append_cons]
  rfl

theorem segments_reverse : ∀ ps : List (Position α),
    segments ps.reverse = ((segments ps).map Segment.turned).reverse
  | [] => rfl
  | [_] => rfl
  | p :: q :: ps => by
    have ih := segments_reverse (q :: ps)
    rw [List.reverse_cons] at ih
    rw [List.reverse_cons, List.reverse_cons, List.append_assoc, List.singleton_append, segments_append_cons, ih]
    simp [segments, Segment.turned]

end Segments

variable {points : List (Position ℚ)} {s : Segment ℚ}

theorem Segment.positions_turned (s : Segment ℚ) : s.turned.positions = s.positions := by
  ext z
  rw [mem_positions, mem_positions, turned, covers_swap]

theorem segments_reverse_getElem? {i : ℕ} (h : (segments points.reverse)[i]? = some s) :
    i < (segments points).length ∧ (segments points)[(segments points).length - 1 - i]? = some s.turned := by
  rw [segments_reverse] at h
  have hi : i < (segments points).length := by
    simpa using (List.getElem?_eq_some_iff.1 h).1
  rw [List.getElem?_reverse (by simpa using hi), List.length_map, List.getElem?_map, Option.map_eq_some_iff] at h
  obtain ⟨t, ht, rfl⟩ := h
  exact ⟨hi, ht⟩

/-! ## Faults of a reversed ring -/

/-- Counted from the other end, what followed comes before. -/
theorem follows_mirrored_iff {n i j : ℕ} (hi : i < n) (hj : j < n) :
    Follows n (n - 1 - j) (n - 1 - i) ↔ Follows n i j := by
  have mirror : ∀ {i j : ℕ}, i < n → j < n → Follows n i j → Follows n (n - 1 - j) (n - 1 - i) := by
    intro i j hi hj h
    unfold Follows at h ⊢
    rcases Nat.lt_or_ge (i + 1) n with hlt | hge
    · rw [Nat.mod_eq_of_lt hlt] at h
      rw [Nat.mod_eq_of_lt (by omega)]
      omega
    · have hlast : i + 1 = n := by omega
      rw [hlast, Nat.mod_self] at h
      have hlast' : n - 1 - j + 1 = n := by omega
      rw [hlast', Nat.mod_self]
      omega
  refine ⟨fun h => ?_, mirror hi hj⟩
  have htwice := mirror (by omega) (by omega) h
  rwa [Nat.sub_sub_self (by omega), Nat.sub_sub_self (by omega)] at htwice

theorem IsSimple.reverse (h : IsSimple points) : IsSimple points.reverse := by
  have hlength : (segments points.reverse).length = (segments points).length := by
    rw [segments_reverse, List.length_reverse, List.length_map]
  refine ⟨fun i j s t hne hs ht hfollows => ?_, fun i j s t hne hs ht hij hji => ?_⟩
  all_goals
    obtain ⟨hi, hs⟩ := segments_reverse_getElem? hs
    obtain ⟨hj, ht⟩ := segments_reverse_getElem? ht
  · rw [hlength, ← follows_mirrored_iff hi hj] at hfollows
    obtain ⟨hstart, hinter⟩ := h.neighbours _ _ _ _ (by omega) ht hs hfollows
    rw [Segment.positions_turned, Segment.positions_turned, Set.inter_comm] at hinter
    have hstop : s.stop = t.start := hstart.symm
    exact ⟨hstop, hstop ▸ hinter⟩
  · rw [hlength, ← follows_mirrored_iff hi hj] at hij
    rw [hlength, ← follows_mirrored_iff hj hi] at hji
    have hinter := h.others _ _ _ _ (by omega) hs ht hji hij
    rwa [Segment.positions_turned, Segment.positions_turned] at hinter

theorem isClosed_reverse {ring : Ring ℚ} (h : IsClosed ring) : IsClosed ring.reverse := by
  rw [IsClosed, List.head?_reverse, List.getLast?_reverse, h]

/-- A list of positions is known from its first position and its segments. -/
theorem eq_of_segments_eq : ∀ {ps qs : List (Position ℚ)}, ps.head? = qs.head? → segments ps = segments qs → ps = qs
  | [], [], _, _ => rfl
  | [p], [q], h, _ => by rw [Option.some.inj h]
  | p :: p' :: ps, q :: q' :: qs, h, hsegments => by
    obtain ⟨hfirst, hrest⟩ := List.cons_eq_cons.1 hsegments
    injection hfirst with hstart hstop
    have ih : p' :: ps = q' :: qs := eq_of_segments_eq (congrArg some hstop) hrest
    rw [Option.some.inj h, ih]

theorem segments_dropRepeats (ps : List (Position ℚ)) :
    segments (dropRepeats ps) = (segments ps).filter fun s => s.start != s.stop := by
  cases ps with
  | nil => rfl
  | cons p ps => exact segments_cons_dropRepeatsAfter p ps

theorem head?_dropRepeats : ∀ ps : List (Position ℚ), (dropRepeats ps).head? = ps.head?
  | [] => rfl
  | _ :: _ => rfl

theorem getLast?_dropRepeats : ∀ ps : List (Position ℚ), (dropRepeats ps).getLast? = ps.getLast?
  | [] => rfl
  | p :: ps => getLast?_dropRepeatsAfter p ps

/-- Repeats are dropped alike from either end. -/
theorem dropRepeats_reverse (ps : List (Position ℚ)) : dropRepeats ps.reverse = (dropRepeats ps).reverse := by
  have hdiffer : ((fun s : Segment ℚ => s.start != s.stop) ∘ Segment.turned) = fun s => s.start != s.stop := by
    funext s
    show (!(s.stop == s.start)) = !(s.start == s.stop)
    congr 1
    rw [Bool.eq_iff_iff, Position.beq_iff, Position.beq_iff, eq_comm]
  apply eq_of_segments_eq
  · rw [head?_dropRepeats, List.head?_reverse, List.head?_reverse, getLast?_dropRepeats]
  · rw [segments_dropRepeats, segments_reverse, segments_reverse, segments_dropRepeats, List.filter_reverse,
      List.filter_map, hdiffer]

/-- A ring has a fault exactly when it has one read backwards. -/
theorem ringFault?_reverse_eq_none_iff (ring : Ring ℚ) : ringFault? ring.reverse = none ↔ ringFault? ring = none := by
  have back : ∀ {ring : Ring ℚ}, ringFault? ring = none → ringFault? ring.reverse = none := by
    intro ring h
    rw [ringFault?_eq_none_iff, ← dropRepeats_eq_destutter] at h ⊢
    obtain ⟨hne, hclosed, hlength, hsimple⟩ := h
    rw [dropRepeats_reverse]
    exact ⟨by simpa using hne, isClosed_reverse hclosed, by simpa using hlength, hsimple.reverse⟩
  refine ⟨fun h => ?_, back⟩
  rw [← List.reverse_reverse ring]
  exact back h

/-! ## The area of a reversed ring -/

theorem sides_rotate_one {α : Type} : ∀ vs : List (Position α), sides (vs.rotate 1) = (sides vs).rotate 1
  | [] => rfl
  | [p] => by simp [sides, segments]
  | p :: q :: ps => by
    have hfirst : sides (p :: q :: ps) = ⟨p, q⟩ :: segments (q :: ps ++ [p]) := rfl
    rw [hfirst, List.rotate_cons_succ, List.rotate_zero, List.rotate_cons_succ, List.rotate_zero]
    exact segments_concat_concat (q :: ps) p q

/-- The sides through the vertices from another one on are the sides from another one on. -/
theorem sides_rotate {α : Type} (vs : List (Position α)) (n : ℕ) : sides (vs.rotate n) = (sides vs).rotate n := by
  induction n with
  | zero => rw [List.rotate_zero, List.rotate_zero]
  | succ n ih => rw [← List.rotate_rotate, sides_rotate_one, ih, List.rotate_rotate]

/-- The sides of a ring read backwards are its sides turned round, from another one on. -/
theorem sides_reverse_perm (ring : Ring ℚ) : (sides ring.reverse).Perm ((sides ring).map Segment.turned) := by
  cases ring with
  | nil => exact List.Perm.refl _
  | cons p ps =>
    have hrotate : (p :: ps.reverse).rotate 1 = (p :: ps).reverse := by
      rw [List.rotate_cons_succ, List.rotate_zero, List.reverse_cons]
    rw [← hrotate, sides_rotate]
    refine (List.rotate_perm _ 1).trans ?_
    have hback : sides (p :: ps.reverse) = ((sides (p :: ps)).map Segment.turned).reverse := by
      simp only [sides]
      rw [← segments_reverse]
      simp
    rw [hback]
    exact List.reverse_perm _

/-- Read backwards, a ring has its area with the other sign. -/
theorem signedArea_reverse (ring : Ring ℚ) : signedArea ring.reverse = -signedArea ring := by
  rw [signedArea_eq, signedArea_eq, List.length_reverse]
  split
  · rw [neg_zero]
  · have hsum := ((sides_reverse_perm ring).map Segment.wedge).sum_eq
    have hturned : Segment.wedge ∘ Segment.turned = Neg.neg ∘ Segment.wedge := by
      funext s
      simp only [Function.comp, Segment.wedge, Segment.turned]
      ring
    rw [hsum, List.map_map, hturned, ← List.map_map, ← List.sum_neg, neg_div]

/-! ## The winding of an accepted polygon -/

theorem ringArea_eq_abs (ring : Ring ℚ) : ringArea ring = |signedArea ring| := by
  show (if signedArea ring ≤ 0 then 0 - signedArea ring else signedArea ring) = _
  split
  · rename_i h
    rw [abs_of_nonpos h, zero_sub]
  · rename_i h
    rw [abs_of_pos (not_le.1 h)]

namespace Polygon

variable {p : Polygon ℚ}

/-- A polygon with an area has a shell with an area. -/
theorem signedArea_shell_ne_zero (h : p.area ≠ 0) : signedArea p.shell ≠ 0 := by
  intro hzero
  have hholes : 0 ≤ total (p.holes.map ringArea) := by
    show 0 ≤ (p.holes.map ringArea).foldl (fun sum a => sum + id a) (-0 : ℚ)
    rw [foldl_add_eq, List.map_id, neg_zero, zero_add]
    refine List.sum_nonneg fun a ha => ?_
    obtain ⟨hole, -, rfl⟩ := List.mem_map.1 ha
    rw [ringArea_eq_abs]
    exact abs_nonneg _
  refine h ?_
  show greater (ringArea p.shell - total (p.holes.map ringArea)) (0 : ℚ) = 0
  rw [greater_eq_max, ringArea_eq_abs, hzero, abs_zero]
  exact max_eq_right (by linarith)

theorem problem?_of_orientation {found : Problem ℚ} (hrings : ∀ ring ∈ p.rings, ringFault? ring = none)
    (h : p.orientationProblem? = some found) : p.problem? = some found := by
  rw [problem?, (ringProblem?_eq_none_iff p).2 hrings, h]
  rfl

theorem orientationProblem?_of_hole {k : ℕ} {hole : Ring ℚ} (hshell : ¬ signedArea p.shell < 0)
    (hhole : p.holes[k]? = some hole) (hpos : 0 < signedArea hole)
    (hbefore : ∀ (j : ℕ) (other : Ring ℚ), j < k → p.holes[j]? = some other → ¬ 0 < signedArea other) :
    p.orientationProblem? = some (.wrongOrientation (k + 1)) := by
  obtain ⟨hk, rfl⟩ := List.getElem?_eq_some_iff.1 hhole
  have hfirst : p.holes.findIdx? (fun hole => decide (0 < signedArea hole)) = some k := by
    rw [List.findIdx?_eq_some_iff_getElem]
    refine ⟨hk, by simpa using hpos, fun j hj => ?_⟩
    simpa using hbefore j _ hj (List.getElem?_eq_getElem (hj.trans hk))
  rw [orientationProblem?, if_neg hshell, hfirst]
  rfl

/-- A ring has a fault exactly when it has one read backwards. The shell of an accepted polygon with an area winds
counter-clockwise, the polygon with the shell read backwards is rejected for its winding, and so it is with a hole
that has an area read backwards. -/
theorem problem?_of_reversed : (∀ ring : Ring ℚ, ringFault? ring.reverse = none ↔ ringFault? ring = none) ∧
    ∀ p : Polygon ℚ, p.problem? = none → p.area ≠ 0 →
      0 < signedArea p.shell ∧
      { p with shell := p.shell.reverse }.problem? = some (.wrongOrientation 0) ∧
      ∀ (k : ℕ) (hole : Ring ℚ), p.holes[k]? = some hole → signedArea hole ≠ 0 →
        { p with holes := p.holes.set k hole.reverse }.problem? = some (.wrongOrientation (k + 1)) := by
  refine ⟨ringFault?_reverse_eq_none_iff, fun p h harea => ?_⟩
  obtain ⟨hrings, horientation, -⟩ := (problem?_eq_none_iff p).1 h
  obtain ⟨hshell, hholes⟩ := (orientationProblem?_eq_none_iff p).1 horientation
  rw [ringProblem?_eq_none_iff, rings, List.forall_mem_cons] at hrings
  have hpos : 0 < signedArea p.shell := lt_of_le_of_ne (not_lt.1 hshell) (signedArea_shell_ne_zero harea).symm
  refine ⟨hpos, problem?_of_orientation ?_ ?_, fun k hole hhole hne => problem?_of_orientation ?_ ?_⟩
  · exact List.forall_mem_cons.2 ⟨(ringFault?_reverse_eq_none_iff _).2 hrings.1, hrings.2⟩
  · have hneg : signedArea p.shell.reverse < 0 := by
      rw [signedArea_reverse]
      exact neg_lt_zero.2 hpos
    exact if_pos hneg
  · refine List.forall_mem_cons.2 ⟨hrings.1, fun ring hring => ?_⟩
    rcases List.mem_or_eq_of_mem_set hring with hring | rfl
    · exact hrings.2 ring hring
    · exact (ringFault?_reverse_eq_none_iff _).2 (hrings.2 hole (List.mem_of_getElem? hhole))
  · have hk := (List.getElem?_eq_some_iff.1 hhole).1
    have hturned : 0 < signedArea hole.reverse := by
      rw [signedArea_reverse]
      exact neg_pos.2 (lt_of_le_of_ne (not_lt.1 (hholes hole (List.mem_of_getElem? hhole))) hne)
    -- the holes before are those of the accepted polygon
    refine orientationProblem?_of_hole hshell (List.getElem?_set_self hk) hturned fun j other hj hother => ?_
    rw [List.getElem?_set_ne hj.ne'] at hother
    exact hholes other (List.mem_of_getElem? hother)

/-- A square with a triangle cut out. -/
def cutOut : Polygon ℚ :=
  ⟨[⟨0, 0⟩, ⟨4, 0⟩, ⟨4, 4⟩, ⟨0, 4⟩, ⟨0, 0⟩], [[⟨1, 1⟩, ⟨1, 2⟩, ⟨2, 1⟩, ⟨1, 1⟩]]⟩

/-- Read backwards, the shell of the square is refused, and so is its hole. -/
theorem problem?_of_reversed_cutOut : cutOut.problem? = none ∧ cutOut.area ≠ 0 ∧ 0 < signedArea cutOut.shell ∧
    { cutOut with shell := cutOut.shell.reverse }.problem? = some (.wrongOrientation 0) ∧
    { cutOut with holes := [[⟨1, 1⟩, ⟨2, 1⟩, ⟨1, 2⟩, ⟨1, 1⟩]] }.problem? = some (.wrongOrientation 1) := by
  have haccepted : cutOut.problem? = none := by decide +kernel
  have harea : cutOut.area ≠ 0 := by decide +kernel
  obtain ⟨hpos, hshell, hhole⟩ := problem?_of_reversed.2 cutOut haccepted harea
  exact ⟨haccepted, harea, hpos, hshell, hhole 0 _ rfl (by decide +kernel)⟩

end Polygon

end OccurrenceQuery.Geometry
