/-
When a ring has no fault. The arithmetic tests for two segments find every position that they have in
common, and the numbers of the segments tell which of them are neighbours on the ring. So a ring has no
fault exactly when it is closed, keeps four positions after repeats are dropped, and is simple.
-/
import Mathlib.Data.List.Destutter
import OccurrenceQuery.Proofs.Geometry.Acceptance

namespace OccurrenceQuery.Geometry

namespace Segment

variable {s t : Segment ℚ} {p q v z : Position ℚ}

/-! ## Positions of a segment -/

/-- The positions from the start of a segment to its stop. -/
def positions (s : Segment ℚ) : Set (Position ℚ) := {z | ∃ part, 0 ≤ part ∧ part ≤ 1 ∧ z = s.along part}

theorem mem_positions : z ∈ s.positions ↔ s.covers z = true := (covers_iff s z).symm

theorem positions_inter_eq_empty_iff :
    s.positions ∩ t.positions = ∅ ↔ ¬ ∃ z, s.covers z = true ∧ t.covers z = true := by
  rw [Set.eq_empty_iff_forall_notMem, not_exists]
  exact forall_congr' fun z => not_congr (and_congr mem_positions mem_positions)

/-! ## Segments that meet -/

/-- Two numbers of different signs mix to zero at some part of the way from one to the other. -/
theorem exists_part_of_mul_neg {a b : ℚ} (h : a * b < 0) :
    ∃ part, 0 ≤ part ∧ part ≤ 1 ∧ (1 - part) * a + part * b = 0 := by
  have hne : a - b ≠ 0 := fun hab => by
    rw [sub_eq_zero.1 hab] at h
    exact absurd (mul_self_nonneg b) (not_le.2 h)
  have hcancel : a / (a - b) * (a - b) = a := div_mul_cancel₀ a hne
  refine ⟨a / (a - b), ?_, ?_, by linear_combination -hcancel⟩
  · rcases mul_neg_iff.1 h with ⟨ha, hb⟩ | ⟨ha, hb⟩
    · exact div_nonneg ha.le (by linarith)
    · exact div_nonneg_of_nonpos ha.le (by linarith)
  · rcases mul_neg_iff.1 h with ⟨ha, hb⟩ | ⟨ha, hb⟩
    · exact (div_le_one (by linarith)).2 (by linarith)
    · exact (div_le_one_of_neg (by linarith)).2 (by linarith)

theorem part_of_mul_neg {a b part : ℚ} (h : a * b < 0) (hzero : (1 - part) * a + part * b = 0) :
    0 ≤ part ∧ part ≤ 1 := by
  have ha : 0 < a * a := mul_self_pos.2 fun ha => by simp [ha] at h
  have hb : 0 < b * b := mul_self_pos.2 fun hb => by simp [hb] at h
  constructor
  · by_contra hneg
    have hprod : (1 - part) * (a * a) = -part * (a * b) := by linear_combination a * hzero
    nlinarith
  · by_contra hbig
    have hprod : (part - 1) * (a * b) = part * (b * b) := by linear_combination -b * hzero
    nlinarith

theorem crosses_iff (s t : Segment ℚ) : s.crosses t = true ↔
    turn s.start s.stop t.start * turn s.start s.stop t.stop < 0 ∧
      turn t.start t.stop s.start * turn t.start t.stop s.stop < 0 := by
  unfold crosses
  rw [Bool.and_eq_true, decide_eq_true_eq, decide_eq_true_eq]

/-- Two segments that cross have a position in common. -/
theorem exists_common_of_crosses (h : s.crosses t = true) : ∃ z, s.covers z = true ∧ t.covers z = true := by
  obtain ⟨hst, hts⟩ := (crosses_iff s t).1 h
  obtain ⟨share, h0, h1, hzero⟩ := exists_part_of_mul_neg hst
  rw [← turn_along] at hzero
  have hne : s.start ≠ s.stop := fun heq => by
    simp only [turn_eq, heq, sub_self, zero_mul, mul_zero, lt_irrefl] at hst
  -- the position of the second segment on the line of the first is also between the ends of the first
  obtain ⟨part, hpart⟩ := exists_along hne hzero
  have hback : (1 - part) * turn t.start t.stop s.start + part * turn t.start t.stop s.stop = 0 := by
    rw [← turn_along, ← hpart, turn_self_along]
  obtain ⟨h0', h1'⟩ := part_of_mul_neg hts hback
  exact ⟨t.along share, hpart ▸ covers_along h0' h1', covers_along h0 h1⟩

theorem meets_iff (s t : Segment ℚ) : s.meets t = true ↔ ∃ z, s.covers z = true ∧ t.covers z = true := by
  unfold meets
  simp only [Bool.or_eq_true]
  constructor
  · rintro ((((h | h) | h) | h) | h)
    · exact exists_common_of_crosses h
    · exact ⟨t.start, h, covers_start t⟩
    · exact ⟨t.stop, h, covers_stop t⟩
    · exact ⟨s.start, covers_start s, h⟩
    · exact ⟨s.stop, covers_stop s, h⟩
  · rintro ⟨z, hs, ht⟩
    by_contra hnone
    simp only [not_or] at hnone
    obtain ⟨⟨⟨⟨hcross, h0⟩, h1⟩, h2⟩, h3⟩ := hnone
    exact hcross (crosses_of_common hs ht h0 h1 h2 h3)

/-! ## Segments with an end in common -/

theorem foldsBack_eq_true_iff (v p q : Position ℚ) : foldsBack v p q = true ↔
    turn p v q = 0 ∧ 0 < (p.x - v.x) * (q.x - v.x) + (p.y - v.y) * (q.y - v.y) := by
  have hzero : (turn p v q == (0 : ℚ)) = true ↔ turn p v q = 0 := beq_iff_eq
  unfold foldsBack sameDirection
  rw [Bool.and_eq_true, hzero, decide_eq_true_eq]

theorem exists_common_of_foldsBack (h : foldsBack v p q = true) :
    ∃ w, w ≠ v ∧ Segment.covers ⟨v, p⟩ w = true ∧ Segment.covers ⟨v, q⟩ w = true := by
  obtain ⟨hturn, hdot⟩ := (foldsBack_eq_true_iff v p q).1 h
  have hp : v ≠ p := by
    rintro rfl
    simp at hdot
  have hq : v ≠ q := by
    rintro rfl
    simp at hdot
  have hline : turn v p q = 0 := by
    rw [turn_eq] at hturn ⊢
    linear_combination -hturn
  obtain ⟨part, hpart⟩ := exists_along (s := ⟨v, p⟩) hp hline
  have hpos : 0 < part := by
    have hlength := squaredLength_pos (s := ⟨v, p⟩) hp
    have hprod : (p.x - v.x) * (q.x - v.x) + (p.y - v.y) * (q.y - v.y) =
        part * squaredLength (⟨v, p⟩ : Segment ℚ) := by
      rw [hpart]
      show _ = part * ((p.x - v.x) * (p.x - v.x) + (p.y - v.y) * (p.y - v.y))
      simp only [along]
      ring
    rw [hprod] at hdot
    exact (mul_pos_iff_of_pos_right hlength).1 hdot
  -- the nearer of the two other ends lies on both
  rcases le_total part 1 with hle | hle
  · exact ⟨q, hq.symm, hpart ▸ covers_along hpos.le hle, covers_stop ⟨v, q⟩⟩
  · have hcovers := (covers_along_iff (s := ⟨v, p⟩) (t := ⟨v, q⟩) hp (along_zero ⟨v, p⟩).symm hpart 1).2
      ⟨min_le_of_left_le zero_le_one, le_max_of_le_right hle⟩
    rw [along_one] at hcovers
    exact ⟨p, hp.symm, covers_stop ⟨v, p⟩, hcovers⟩

theorem foldsBack_of_common {w : Position ℚ} (hw : w ≠ v) (hp : Segment.covers ⟨v, p⟩ w = true)
    (hq : Segment.covers ⟨v, q⟩ w = true) : foldsBack v p q = true := by
  obtain ⟨a, ha0, -, ha⟩ := (covers_iff _ w).1 hp
  obtain ⟨b, hb0, -, hb⟩ := (covers_iff _ w).1 hq
  have hapos : 0 < a := lt_of_le_of_ne ha0 fun h => hw (by rw [ha, ← h, along_zero])
  have hbpos : 0 < b := lt_of_le_of_ne hb0 fun h => hw (by rw [hb, ← h, along_zero])
  obtain ⟨hx, hy⟩ := Position.ext_iff.1 (ha.symm.trans hb)
  simp only [along, add_right_inj] at hx hy
  have hlength : 0 < (q.x - v.x) * (q.x - v.x) + (q.y - v.y) * (q.y - v.y) :=
    squaredLength_pos (s := ⟨v, q⟩) fun h : v = q => hw (by rw [hb, ← h, along]; simp)
  refine (foldsBack_eq_true_iff v p q).2 ⟨?_, ?_⟩
  · refine (mul_eq_zero.1 (?_ : a * turn p v q = 0)).resolve_left hapos.ne'
    rw [turn_eq]
    linear_combination (q.x - v.x) * hy - (q.y - v.y) * hx
  · have hprod : a * ((p.x - v.x) * (q.x - v.x) + (p.y - v.y) * (q.y - v.y)) =
        b * ((q.x - v.x) * (q.x - v.x) + (q.y - v.y) * (q.y - v.y)) := by
      linear_combination (q.x - v.x) * hx + (q.y - v.y) * hy
    exact (mul_pos_iff_of_pos_left hapos).1 (hprod ▸ mul_pos hbpos hlength)

/-- Two segments with an end in common have only that position in common when the one does not fold back
along the other. -/
theorem positions_inter_eq_singleton_iff (p v q : Position ℚ) :
    (⟨p, v⟩ : Segment ℚ).positions ∩ (⟨v, q⟩ : Segment ℚ).positions = {v} ↔ foldsBack v p q = false := by
  rw [Set.eq_singleton_iff_unique_mem, ← Bool.not_eq_true]
  have hend : v ∈ (⟨p, v⟩ : Segment ℚ).positions ∩ (⟨v, q⟩ : Segment ℚ).positions :=
    ⟨mem_positions.2 (covers_stop ⟨p, v⟩), mem_positions.2 (covers_start ⟨v, q⟩)⟩
  constructor
  · rintro ⟨-, hunique⟩ hfold
    obtain ⟨w, hw, hp, hq⟩ := exists_common_of_foldsBack hfold
    rw [covers_swap] at hp
    exact hw (hunique w ⟨mem_positions.2 hp, mem_positions.2 hq⟩)
  · refine fun hfold => ⟨hend, fun w hw => ?_⟩
    by_contra hne
    have hp := mem_positions.1 hw.1
    rw [covers_swap] at hp
    exact hfold (foldsBack_of_common hne hp (mem_positions.1 hw.2))

theorem foldsBack_comm (v p q : Position ℚ) : foldsBack v p q = foldsBack v q p := by
  rw [Bool.eq_iff_iff, foldsBack_eq_true_iff, foldsBack_eq_true_iff]
  refine and_congr ?_ ?_
  · rw [turn_eq, turn_eq]
    constructor <;> intro h <;> linear_combination -h
  · rw [mul_comm (p.x - v.x), mul_comm (p.y - v.y)]

end Segment

/-! ## Dropping repeats -/

theorem cons_dropRepeatsAfter (p : Position ℚ) (ps : List (Position ℚ)) :
    p :: dropRepeatsAfter p ps = ps.destutter' (· ≠ ·) p := by
  induction ps generalizing p with
  | nil => rfl
  | cons q ps ih =>
    by_cases hpq : p = q
    · rw [dropRepeatsAfter, if_pos ((Position.beq_iff p q).2 hpq), List.destutter'_cons_neg _ (not_not.2 hpq), ih]
    · rw [dropRepeatsAfter, if_neg (mt (Position.beq_iff p q).1 hpq), List.destutter'_cons_pos _ hpq, ih]

theorem dropRepeats_eq_destutter (ring : Ring ℚ) : dropRepeats ring = ring.destutter (· ≠ ·) := by
  cases ring with
  | nil => rfl
  | cons p ps => exact cons_dropRepeatsAfter p ps

theorem getLast?_dropRepeatsAfter (p : Position ℚ) (ps : List (Position ℚ)) :
    (p :: dropRepeatsAfter p ps).getLast? = (p :: ps).getLast? := by
  induction ps generalizing p with
  | nil => rfl
  | cons q ps ih =>
    rw [dropRepeatsAfter, List.getLast?_cons_cons]
    split
    · rename_i hpq
      rw [ih, (Position.beq_iff p q).1 hpq]
    · rw [List.getLast?_cons_cons, ih]

theorem isClosed_dropRepeats {ring : Ring ℚ} (h : IsClosed ring) : IsClosed (dropRepeats ring) := by
  cases ring with
  | nil => rfl
  | cons p ps => exact h.trans (getLast?_dropRepeatsAfter p ps).symm

/-! ## Segments by their numbers -/

theorem length_segments : ∀ ps : List (Position ℚ), (segments ps).length = ps.length - 1
  | [] => rfl
  | [_] => rfl
  | p :: q :: ps => by
    have ih := length_segments (q :: ps)
    simp only [segments, List.length_cons, Nat.add_sub_cancel] at ih ⊢
    rw [ih]

/-- A segment joins the position with its number and the next one. -/
theorem segments_getElem?_eq_some_iff {s : Segment ℚ} : ∀ {ps : List (Position ℚ)} {i : ℕ},
    (segments ps)[i]? = some s ↔ ps[i]? = some s.start ∧ ps[i + 1]? = some s.stop
  | [], i => by simp [segments]
  | [_], i => by simp [segments]
  | p :: q :: ps, 0 => by
    obtain ⟨a, b⟩ := s
    simp [segments]
  | p :: q :: ps, i + 1 => @segments_getElem?_eq_some_iff s (q :: ps) i

/-- Whether, of the `n` segments of a closed line, the one with the number `j` begins where the one with
the number `i` ends; the first one follows the last. -/
def Follows (n i j : ℕ) : Prop := j = (i + 1) % n

theorem follows_iff_of_lt {n i j : ℕ} (hij : i < j) (hj : j < n) : Follows n i j ↔ j = i + 1 := by
  rw [Follows, Nat.mod_eq_of_lt (by omega)]

theorem follows_iff_of_gt {n i j : ℕ} (hij : i < j) (hj : j < n) : Follows n j i ↔ i = 0 ∧ j + 1 = n := by
  unfold Follows
  rcases Nat.lt_or_ge (j + 1) n with hlt | hge
  · rw [Nat.mod_eq_of_lt hlt]
    omega
  · have hjn : j + 1 = n := by omega
    rw [hjn, Nat.mod_self]
    omega

theorem stop_eq_start_of_follows {points : List (Position ℚ)} (hclosed : IsClosed points) {i j : ℕ}
    {s t : Segment ℚ} (hs : (segments points)[i]? = some s) (ht : (segments points)[j]? = some t)
    (h : Follows (segments points).length i j) : s.stop = t.start := by
  have hstop := (segments_getElem?_eq_some_iff.1 hs).2
  have hstart := (segments_getElem?_eq_some_iff.1 ht).1
  have hi : i < (segments points).length := (List.getElem?_eq_some_iff.1 hs).1
  rw [Follows] at h
  rcases Nat.lt_or_ge (i + 1) (segments points).length with hlt | hge
  · rw [Nat.mod_eq_of_lt hlt] at h
    rw [h, hstop] at hstart
    exact Option.some.inj hstart
  · -- the last segment ends at the last position, which is the first one
    have hlast : i + 1 = (segments points).length := by omega
    rw [hlast, Nat.mod_self] at h
    rw [hlast, length_segments, ← List.getLast?_eq_getElem?, ← hclosed, List.head?_eq_getElem?] at hstop
    rw [h, hstop] at hstart
    exact Option.some.inj hstart

/-! ## Simple closed lines -/

/-- A closed line is simple when a segment and the one that follows it have just the vertex between them in
common, and two segments of which none follows the other have no position in common. -/
structure IsSimple (points : List (Position ℚ)) : Prop where
  neighbours : ∀ (i j : ℕ) (s t : Segment ℚ), i ≠ j → (segments points)[i]? = some s →
    (segments points)[j]? = some t → Follows (segments points).length i j →
      s.stop = t.start ∧ s.positions ∩ t.positions = {s.stop}
  others : ∀ (i j : ℕ) (s t : Segment ℚ), i ≠ j → (segments points)[i]? = some s →
    (segments points)[j]? = some t → ¬ Follows (segments points).length i j →
      ¬ Follows (segments points).length j i → s.positions ∩ t.positions = ∅

theorem selfMeeting?_eq_none_iff (points : List (Position ℚ)) : selfMeeting? points = none ↔
    ∀ (i j : ℕ) (s t : Segment ℚ), i < j → (segments points)[i]? = some s → (segments points)[j]? = some t →
      touchingAt? (segments points).length ((s, i), (t, j)) = none := by
  simp only [selfMeeting?, List.findSome?_eq_none_iff]
  constructor
  · exact fun h i j s t hij hs ht => h _ (mem_orderedPairs_zipIdx_iff.2 ⟨hij, hs, ht⟩)
  · rintro h ⟨⟨s, i⟩, t, j⟩ hpair
    obtain ⟨hij, hs, ht⟩ := mem_orderedPairs_zipIdx_iff.1 hpair
    exact h i j s t hij hs ht

section Pairs

variable {points : List (Position ℚ)} {i j : ℕ} {s t : Segment ℚ}

theorem touchingAt?_eq_none_of_next {n : ℕ} (h : j = i + 1) :
    touchingAt? n ((s, i), (t, j)) = none ↔ foldsBack s.stop s.start t.stop = false := by
  simp [touchingAt?, h]

theorem touchingAt?_eq_none_of_seam {n : ℕ} (hnext : j ≠ i + 1) (h : i = 0 ∧ j + 1 = n) :
    touchingAt? n ((s, i), (t, j)) = none ↔ foldsBack s.start s.stop t.start = false := by
  rw [touchingAt?, if_neg hnext, if_pos h]
  simp

theorem touchingAt?_eq_none_of_apart {n : ℕ} (hnext : j ≠ i + 1) (hseam : ¬ (i = 0 ∧ j + 1 = n)) :
    touchingAt? n ((s, i), (t, j)) = none ↔ s.meets t = false := by
  rw [touchingAt?, if_neg hnext, if_neg hseam]
  simp

theorem inter_eq_singleton_iff_of_stop_eq (h : s.stop = t.start) :
    s.positions ∩ t.positions = {s.stop} ↔ foldsBack s.stop s.start t.stop = false := by
  obtain ⟨p, v⟩ := s
  obtain ⟨v', q⟩ := t
  obtain rfl : v = v' := h
  exact Segment.positions_inter_eq_singleton_iff p v q

theorem inter_eq_empty_iff_not_meets : s.positions ∩ t.positions = ∅ ↔ s.meets t = false := by
  rw [Segment.positions_inter_eq_empty_iff, ← Segment.meets_iff, Bool.not_eq_true]

end Pairs

/-- The test of all pairs of segments finds nothing exactly when the line is simple. -/
theorem selfMeeting?_eq_none_iff_isSimple {points : List (Position ℚ)} (hclosed : IsClosed points)
    (hlength : 4 ≤ points.length) : selfMeeting? points = none ↔ IsSimple points := by
  have hthree : 3 ≤ (segments points).length := by
    rw [length_segments]
    omega
  have hlt : ∀ {k : ℕ} {u : Segment ℚ}, (segments points)[k]? = some u → k < (segments points).length :=
    fun h => (List.getElem?_eq_some_iff.1 h).1
  rw [selfMeeting?_eq_none_iff]
  constructor
  · intro h
    refine ⟨fun i j s t hne hs ht hfollows => ?_, fun i j s t hne hs ht hij hji => ?_⟩
    · have hstop := stop_eq_start_of_follows hclosed hs ht hfollows
      refine ⟨hstop, (inter_eq_singleton_iff_of_stop_eq hstop).2 ?_⟩
      rcases Nat.lt_or_gt_of_ne hne with hlt' | hgt
      · have hnext := (follows_iff_of_lt hlt' (hlt ht)).1 hfollows
        exact (touchingAt?_eq_none_of_next hnext).1 (h i j s t hlt' hs ht)
      · -- the later one is the last segment, the earlier one the first
        have hseam := (follows_iff_of_gt hgt (hlt hs)).1 hfollows
        have hfold := (touchingAt?_eq_none_of_seam (by omega) hseam).1 (h j i t s hgt ht hs)
        rwa [hstop, Segment.foldsBack_comm]
    · rcases Nat.lt_or_gt_of_ne hne with hlt' | hgt
      · rw [follows_iff_of_lt hlt' (hlt ht)] at hij
        rw [follows_iff_of_gt hlt' (hlt ht)] at hji
        exact inter_eq_empty_iff_not_meets.2 ((touchingAt?_eq_none_of_apart hij hji).1 (h i j s t hlt' hs ht))
      · rw [follows_iff_of_gt hgt (hlt hs)] at hij
        rw [follows_iff_of_lt hgt (hlt hs)] at hji
        rw [Set.inter_comm]
        exact inter_eq_empty_iff_not_meets.2 ((touchingAt?_eq_none_of_apart hji hij).1 (h j i t s hgt ht hs))
  · intro h i j s t hij hs ht
    by_cases hnext : j = i + 1
    · have hfollows := (follows_iff_of_lt hij (hlt ht)).2 hnext
      obtain ⟨hstop, hinter⟩ := h.neighbours i j s t hij.ne hs ht hfollows
      exact (touchingAt?_eq_none_of_next hnext).2 ((inter_eq_singleton_iff_of_stop_eq hstop).1 hinter)
    by_cases hseam : i = 0 ∧ j + 1 = (segments points).length
    · have hfollows := (follows_iff_of_gt hij (hlt ht)).2 hseam
      obtain ⟨hstop, hinter⟩ := h.neighbours j i t s hij.ne' ht hs hfollows
      have hfold := (inter_eq_singleton_iff_of_stop_eq hstop).1 hinter
      rw [hstop, Segment.foldsBack_comm] at hfold
      exact (touchingAt?_eq_none_of_seam hnext hseam).2 hfold
    · have hapart := h.others i j s t hij.ne hs ht (mt (follows_iff_of_lt hij (hlt ht)).1 hnext)
        (mt (follows_iff_of_gt hij (hlt ht)).1 hseam)
      exact (touchingAt?_eq_none_of_apart hnext hseam).2 (inter_eq_empty_iff_not_meets.1 hapart)

theorem ringFault?_of_isClosed {ring : Ring ℚ} (hne : ring ≠ []) (hclosed : IsClosed ring) :
    ringFault? ring = if (dropRepeats ring).length < 4 then some .tooFewPoints
      else (selfMeeting? (dropRepeats ring)).map .selfIntersection := by
  obtain ⟨p, ps, rfl⟩ := List.exists_cons_of_ne_nil hne
  have hlast : (p :: ps).getLast? = some p := hclosed.symm
  have hsame : (p != p) = false := by
    rw [bne, (Position.beq_iff p p).2 rfl]
    rfl
  simp only [ringFault?, List.head?_cons, hlast, hsame, Bool.false_eq_true, if_false]

/-- A ring has no fault exactly when it is not empty, ends where it begins, keeps at least four positions
without consecutive repeats, and these make a simple closed line. -/
theorem ringFault?_eq_none_iff (ring : Ring ℚ) : ringFault? ring = none ↔
    ring ≠ [] ∧ ring.head? = ring.getLast? ∧ 4 ≤ (ring.destutter (· ≠ ·)).length ∧
      IsSimple (ring.destutter (· ≠ ·)) := by
  rw [← dropRepeats_eq_destutter]
  constructor
  · intro h
    have hclosed := isClosed_of_ringFault?_eq_none h
    have hne : ring ≠ [] := by
      rintro rfl
      cases h
    rw [ringFault?_of_isClosed hne hclosed] at h
    split at h
    · cases h
    · rename_i hfour
      have hlength := not_lt.1 hfour
      exact ⟨hne, hclosed, hlength, (selfMeeting?_eq_none_iff_isSimple (isClosed_dropRepeats hclosed) hlength).1
        (Option.map_eq_none_iff.1 h)⟩
  · rintro ⟨hne, hclosed, hlength, hsimple⟩
    rw [ringFault?_of_isClosed hne hclosed, if_neg (not_lt.2 hlength)]
    exact Option.map_eq_none_iff.2
      ((selfMeeting?_eq_none_iff_isSimple (isClosed_dropRepeats hclosed) hlength).2 hsimple)

end OccurrenceQuery.Geometry
