/-
Segments over the rationals. The arithmetic tests of the planar rules say what they should: a segment covers
the positions between its ends, two segments that meet in no end cross, and two segments that share more
than one position overlap.
-/
import Mathlib.Tactic
import OccurrenceQuery.Geometry.Segment

namespace OccurrenceQuery.Geometry

/-! ## Rational arithmetic -/

theorem lesser_eq_min (a b : ℚ) : lesser a b = min a b := by
  show (if a ≤ b then a else if (b == b) = true then b else a) = min a b
  rw [beq_self_eq_true, if_pos rfl, min_def]

theorem greater_eq_max (a b : ℚ) : greater a b = max a b := by
  show (if b ≤ a then a else if (b == b) = true then b else a) = max a b
  rw [beq_self_eq_true, if_pos rfl, max_comm, max_def]

theorem Position.ext_iff {p q : Position ℚ} : p = q ↔ p.x = q.x ∧ p.y = q.y := by
  obtain ⟨px, py⟩ := p
  obtain ⟨qx, qy⟩ := q
  simp

theorem Position.eq_of_xy {p q : Position ℚ} (hx : p.x = q.x) (hy : p.y = q.y) : p = q :=
  Position.ext_iff.2 ⟨hx, hy⟩

theorem Position.beq_iff (p q : Position ℚ) : (p == q) = true ↔ p = q := by
  show (p.x == q.x && p.y == q.y) = true ↔ p = q
  rw [Bool.and_eq_true, beq_iff_eq, beq_iff_eq, Position.ext_iff]

instance : DecidableEq (Position ℚ) := fun p q => decidable_of_iff _ (Position.beq_iff p q)

/-! ## Turns -/

theorem turn_eq (a b c : Position ℚ) :
    turn a b c = (b.x - a.x) * (c.y - a.y) - (b.y - a.y) * (c.x - a.x) := rfl

theorem turn_start (a b : Position ℚ) : turn a b a = 0 := by rw [turn_eq]; ring

theorem turn_stop (a b : Position ℚ) : turn a b b = 0 := by rw [turn_eq]; ring

namespace Segment

variable {s t : Segment ℚ} {p q z : Position ℚ}

/-! ## Positions along a segment -/

/-- The position on the line of a segment that is the given part of the way from its start to its stop. -/
def along (s : Segment ℚ) (part : ℚ) : Position ℚ :=
  ⟨s.start.x + part * (s.stop.x - s.start.x), s.start.y + part * (s.stop.y - s.start.y)⟩

theorem along_zero (s : Segment ℚ) : s.along 0 = s.start := Position.eq_of_xy (by simp [along]) (by simp [along])

theorem along_one (s : Segment ℚ) : s.along 1 = s.stop := Position.eq_of_xy (by simp [along]) (by simp [along])

theorem turn_along (a b : Position ℚ) (s : Segment ℚ) (part : ℚ) :
    turn a b (s.along part) = (1 - part) * turn a b s.start + part * turn a b s.stop := by
  simp only [turn_eq, along]
  ring

theorem turn_self_along (s : Segment ℚ) (part : ℚ) : turn s.start s.stop (s.along part) = 0 := by
  rw [turn_along, turn_start, turn_stop]
  ring

theorem exists_along (hne : s.start ≠ s.stop) (h : turn s.start s.stop p = 0) : ∃ part, p = s.along part := by
  rw [turn_eq] at h
  by_cases hx : s.stop.x - s.start.x = 0
  · have hy : s.stop.y - s.start.y ≠ 0 := fun hy =>
      hne (Position.eq_of_xy (by linarith) (by linarith))
    refine ⟨(p.y - s.start.y) / (s.stop.y - s.start.y), Position.eq_of_xy ?_ ?_⟩
    · have hzero : (s.stop.y - s.start.y) * (p.x - s.start.x) = 0 := by rw [hx] at h; linarith
      have := (mul_eq_zero.1 hzero).resolve_left hy
      simp only [along, hx, mul_zero]
      linarith
    · simp only [along, div_mul_cancel₀ _ hy]
      ring
  · refine ⟨(p.x - s.start.x) / (s.stop.x - s.start.x), Position.eq_of_xy ?_ ?_⟩
    · simp only [along, div_mul_cancel₀ _ hx]
      ring
    · have hy : (p.x - s.start.x) / (s.stop.x - s.start.x) * (s.stop.y - s.start.y) = p.y - s.start.y := by
        field_simp
        linarith
      simp only [along, hy]
      ring

/-! ## Covering -/

theorem covers_iff_box (s : Segment ℚ) (p : Position ℚ) : s.covers p = true ↔
    turn s.start s.stop p = 0 ∧ (min s.start.x s.stop.x ≤ p.x ∧ p.x ≤ max s.start.x s.stop.x) ∧
      min s.start.y s.stop.y ≤ p.y ∧ p.y ≤ max s.start.y s.stop.y := by
  have hzero : ∀ a : ℚ, (a == (0 : ℚ)) = true ↔ a = 0 := fun a => beq_iff_eq
  rw [← lesser_eq_min, ← lesser_eq_min, ← greater_eq_max, ← greater_eq_max, ← hzero]
  unfold covers
  simp only [Bool.and_eq_true, decide_eq_true_eq, and_assoc]

theorem between_along {a b part : ℚ} (h0 : 0 ≤ part) (h1 : part ≤ 1) :
    min a b ≤ a + part * (b - a) ∧ a + part * (b - a) ≤ max a b := by
  rcases le_total a b with hab | hab
  · rw [min_eq_left hab, max_eq_right hab]
    constructor <;> nlinarith
  · rw [min_eq_right hab, max_eq_left hab]
    constructor <;> nlinarith

theorem part_of_between {a b part : ℚ} (hne : a ≠ b)
    (h : min a b ≤ a + part * (b - a) ∧ a + part * (b - a) ≤ max a b) : 0 ≤ part ∧ part ≤ 1 := by
  rcases lt_or_gt_of_ne hne with hab | hab
  · rw [min_eq_left hab.le, max_eq_right hab.le] at h
    constructor <;> nlinarith
  · rw [min_eq_right hab.le, max_eq_left hab.le] at h
    constructor <;> nlinarith

/-- A segment covers the positions along it from its start to its stop. -/
theorem covers_iff (s : Segment ℚ) (p : Position ℚ) :
    s.covers p = true ↔ ∃ part, 0 ≤ part ∧ part ≤ 1 ∧ p = s.along part := by
  rw [covers_iff_box]
  constructor
  · rintro ⟨hturn, hx, hy⟩
    by_cases hne : s.start = s.stop
    · refine ⟨0, le_rfl, zero_le_one, ?_⟩
      rw [← hne] at hx hy
      rw [along_zero]
      refine Position.eq_of_xy ?_ ?_
      · exact le_antisymm (by simpa using hx.2) (by simpa using hx.1)
      · exact le_antisymm (by simpa using hy.2) (by simpa using hy.1)
    · obtain ⟨part, rfl⟩ := exists_along hne hturn
      by_cases hxx : s.start.x = s.stop.x
      · have hyy : s.start.y ≠ s.stop.y := fun hyy => hne (Position.eq_of_xy hxx hyy)
        obtain ⟨h0, h1⟩ := part_of_between hyy hy
        exact ⟨part, h0, h1, rfl⟩
      · obtain ⟨h0, h1⟩ := part_of_between hxx hx
        exact ⟨part, h0, h1, rfl⟩
  · rintro ⟨part, h0, h1, rfl⟩
    exact ⟨turn_self_along s part, between_along h0 h1, between_along h0 h1⟩

theorem covers_along {part : ℚ} (h0 : 0 ≤ part) (h1 : part ≤ 1) : s.covers (s.along part) = true :=
  (covers_iff s _).2 ⟨part, h0, h1, rfl⟩

theorem covers_start (s : Segment ℚ) : s.covers s.start = true := by
  have h := @covers_along s 0 le_rfl zero_le_one
  rwa [along_zero] at h

theorem covers_stop (s : Segment ℚ) : s.covers s.stop = true := by
  have h := @covers_along s 1 zero_le_one le_rfl
  rwa [along_one] at h

/-- A segment covers what lies between two positions that it covers. -/
theorem covers_of_between (hp : s.covers p = true) (hq : s.covers q = true)
    (hz : Segment.covers ⟨p, q⟩ z = true) : s.covers z = true := by
  obtain ⟨a, ha0, ha1, rfl⟩ := (covers_iff s p).1 hp
  obtain ⟨b, hb0, hb1, rfl⟩ := (covers_iff s q).1 hq
  obtain ⟨c, hc0, hc1, rfl⟩ := (covers_iff _ z).1 hz
  refine (covers_iff s _).2 ⟨a + c * (b - a), ?_, ?_, ?_⟩
  · nlinarith
  · nlinarith
  · refine Position.eq_of_xy ?_ ?_ <;> simp only [along] <;> ring

theorem covers_swap (p q z : Position ℚ) : Segment.covers ⟨p, q⟩ z = Segment.covers ⟨q, p⟩ z := by
  have back : ∀ p q, Segment.covers ⟨p, q⟩ z = true → Segment.covers ⟨q, p⟩ z = true := fun p q h =>
    covers_of_between (covers_stop ⟨q, p⟩) (covers_start ⟨q, p⟩) h
  exact Bool.eq_iff_iff.2 ⟨back p q, back q p⟩

theorem along_injective (hne : s.start ≠ s.stop) {a b : ℚ} (h : s.along a = s.along b) : a = b := by
  obtain ⟨hx, hy⟩ := Position.ext_iff.1 h
  simp only [along, add_right_inj] at hx hy
  by_cases hxx : s.stop.x - s.start.x = 0
  · have hyy : s.stop.y - s.start.y ≠ 0 := fun hyy => hne (Position.eq_of_xy (by linarith) (by linarith))
    exact mul_right_cancel₀ hyy hy
  · exact mul_right_cancel₀ hxx hx

theorem along_along (s : Segment ℚ) (a b part : ℚ) :
    along ⟨s.along a, s.along b⟩ part = s.along (a + part * (b - a)) := by
  refine Position.eq_of_xy ?_ ?_ <;> simp only [along] <;> ring

/-- Of the positions on the line of a segment, another segment with its ends there covers those between. -/
theorem covers_along_iff (hne : s.start ≠ s.stop) {a b : ℚ} (ha : t.start = s.along a) (hb : t.stop = s.along b)
    (part : ℚ) : t.covers (s.along part) = true ↔ min a b ≤ part ∧ part ≤ max a b := by
  have hends : t = ⟨s.along a, s.along b⟩ := by rw [← ha, ← hb]
  rw [covers_iff, hends]
  constructor
  · rintro ⟨share, h0, h1, heq⟩
    rw [along_along] at heq
    rw [along_injective hne heq]
    exact between_along h0 h1
  · rintro ⟨hlow, hhigh⟩
    by_cases hab : a = b
    · rw [hab, min_self] at hlow
      rw [hab, max_self] at hhigh
      exact ⟨0, le_rfl, zero_le_one, by rw [along_zero, hab, le_antisymm hhigh hlow]⟩
    · have hstep : a + (part - a) / (b - a) * (b - a) = part := by
        rw [div_mul_cancel₀ _ (sub_ne_zero.2 (Ne.symm hab))]
        ring
      obtain ⟨h0, h1⟩ : 0 ≤ (part - a) / (b - a) ∧ (part - a) / (b - a) ≤ 1 := by
        refine part_of_between hab ?_
        rw [hstep]
        exact ⟨hlow, hhigh⟩
      exact ⟨(part - a) / (b - a), h0, h1, by rw [along_along, hstep]⟩

/-! ## Segments that meet -/

/-- Two segments on one line with a position in common cover an end of each other. -/
theorem covers_end_of_common (hs : s.covers z = true) (ht : t.covers z = true)
    (h0 : turn s.start s.stop t.start = 0) (h1 : turn s.start s.stop t.stop = 0) :
    s.covers t.start = true ∨ s.covers t.stop = true ∨ t.covers s.start = true := by
  obtain ⟨c, hc0, hc1, rfl⟩ := (covers_iff s z).1 hs
  by_cases hne : s.start = s.stop
  · right; right
    have hz : s.along c = s.start := by
      refine Position.eq_of_xy ?_ ?_ <;> simp only [along, hne] <;> ring
    rwa [hz] at ht
  obtain ⟨a, ha⟩ := exists_along hne h0
  obtain ⟨b, hb⟩ := exists_along hne h1
  obtain ⟨hlow, hhigh⟩ := (covers_along_iff hne ha hb c).1 ht
  by_cases hin : 0 ≤ a ∧ a ≤ 1
  · exact .inl (ha ▸ covers_along hin.1 hin.2)
  by_cases hin' : 0 ≤ b ∧ b ≤ 1
  · exact .inr (.inl (hb ▸ covers_along hin'.1 hin'.2))
  -- the ends of the second segment lie on either side of the first one
  right; right
  rw [← along_zero s, covers_along_iff hne ha hb]
  refine ⟨?_, hc0.trans hhigh⟩
  by_contra hpos
  obtain ⟨ha0, hb0⟩ := lt_min_iff.1 (not_le.1 hpos)
  have ha1 : 1 < a := not_le.1 fun h => hin ⟨ha0.le, h⟩
  have hb1 : 1 < b := not_le.1 fun h => hin' ⟨hb0.le, h⟩
  exact absurd (hlow.trans hc1) (not_le.2 (lt_min ha1 hb1))

/-- Two numbers, not both zero, that mix to zero with positive parts have different signs. -/
theorem mul_neg_of_mix {a b part : ℚ} (h0 : 0 < part) (h1 : part < 1) (hzero : (1 - part) * a + part * b = 0)
    (hne : ¬ (a = 0 ∧ b = 0)) : a * b < 0 := by
  have hb : b ≠ 0 := by
    rintro rfl
    have : (1 - part) * a = 0 := by linarith
    exact hne ⟨(mul_eq_zero.1 this).resolve_left (by linarith), rfl⟩
  have hsq : 0 < b * b := mul_self_pos.2 hb
  have hprod : (1 - part) * (a * b) = -(part * (b * b)) := by linear_combination b * hzero
  have hneg : (1 - part) * (a * b) < 0 := by
    rw [hprod]
    exact neg_lt_zero.2 (mul_pos h0 hsq)
  exact neg_of_mul_neg_right hneg (by linarith)

/-- When two segments meet in no end, the ends of the one lie on different sides of the other's line. -/
theorem turn_mul_neg_of_common (hs : s.covers z = true) (ht : t.covers z = true)
    (h0 : ¬ s.covers t.start = true) (h1 : ¬ s.covers t.stop = true) (h2 : ¬ t.covers s.start = true) :
    turn s.start s.stop t.start * turn s.start s.stop t.stop < 0 := by
  obtain ⟨c, hc0, hc1, rfl⟩ := (covers_iff t z).1 ht
  have hturn : turn s.start s.stop (t.along c) = 0 := ((covers_iff_box s _).1 hs).1
  have hcollinear : ¬ (turn s.start s.stop t.start = 0 ∧ turn s.start s.stop t.stop = 0) := fun h => by
    rcases covers_end_of_common hs ht h.1 h.2 with h | h | h
    · exact h0 h
    · exact h1 h
    · exact h2 h
  have hpos : 0 < c := lt_of_le_of_ne hc0 fun h => by
    rw [← h, along_zero] at hs
    exact h0 hs
  have hlt : c < 1 := lt_of_le_of_ne hc1 fun h => by
    rw [h, along_one] at hs
    exact h1 hs
  rw [turn_along] at hturn
  exact mul_neg_of_mix hpos hlt hturn hcollinear

/-- Two segments with a position in common, and no end of the one on the other, cross. -/
theorem crosses_of_common (hs : s.covers z = true) (ht : t.covers z = true)
    (h0 : ¬ s.covers t.start = true) (h1 : ¬ s.covers t.stop = true)
    (h2 : ¬ t.covers s.start = true) (h3 : ¬ t.covers s.stop = true) : s.crosses t = true := by
  have hst := turn_mul_neg_of_common hs ht h0 h1 h2
  have hts := turn_mul_neg_of_common ht hs h2 h3 h0
  unfold crosses
  rw [Bool.and_eq_true, decide_eq_true_eq, decide_eq_true_eq]
  exact ⟨hst, hts⟩

/-! ## Segments that overlap -/

theorem squaredLength_pos (hne : s.start ≠ s.stop) : 0 < s.squaredLength := by
  show 0 < (s.stop.x - s.start.x) * (s.stop.x - s.start.x) + (s.stop.y - s.start.y) * (s.stop.y - s.start.y)
  by_cases hx : s.stop.x - s.start.x = 0
  · have hy : s.stop.y - s.start.y ≠ 0 := fun hy => hne (Position.eq_of_xy (by linarith) (by linarith))
    have := mul_self_pos.2 hy
    have := mul_self_nonneg (s.stop.x - s.start.x)
    linarith
  · have := mul_self_pos.2 hx
    have := mul_self_nonneg (s.stop.y - s.start.y)
    linarith

theorem fraction_along (hne : s.start ≠ s.stop) (part : ℚ) : s.fraction (s.along part) = part := by
  have hpos := squaredLength_pos hne
  have hfrac : s.fraction (s.along part) =
      ((s.along part).x - s.start.x) * (s.stop.x - s.start.x) / s.squaredLength +
        ((s.along part).y - s.start.y) * (s.stop.y - s.start.y) / s.squaredLength := by
    rw [← add_div]
    rfl
  have hlen : s.squaredLength = (s.stop.x - s.start.x) * (s.stop.x - s.start.x) +
    (s.stop.y - s.start.y) * (s.stop.y - s.start.y) := rfl
  rw [hfrac, ← add_div, div_eq_iff hpos.ne', hlen]
  simp only [along]
  ring

theorem overlaps_iff (s t : Segment ℚ) : s.overlaps t = true ↔
    (turn s.start s.stop t.start = 0 ∧ turn s.start s.stop t.stop = 0) ∧ s.squaredLength ≠ 0 ∧
      max (min (s.fraction t.start) (s.fraction t.stop)) 0 <
        min (max (s.fraction t.start) (s.fraction t.stop)) 1 := by
  have hzero : ∀ a : ℚ, (a == (0 : ℚ)) = true ↔ a = 0 := fun a => beq_iff_eq
  have hne : ∀ a : ℚ, (a != (0 : ℚ)) = true ↔ a ≠ 0 := fun a => bne_iff_ne
  rw [← sub_pos, ← lesser_eq_min, ← lesser_eq_min, ← greater_eq_max, ← greater_eq_max]
  unfold overlaps
  by_cases hcollinear : turn s.start s.stop t.start = 0 ∧ turn s.start s.stop t.stop = 0
  · rw [if_neg (by rw [Bool.or_eq_true, hne, hne]; tauto)]
    by_cases hlen : s.squaredLength = 0
    · rw [if_pos ((hzero _).2 hlen)]
      simp [hlen]
    · rw [if_neg (fun h => hlen ((hzero _).1 h)), decide_eq_true_eq]
      exact ⟨fun h => ⟨hcollinear, hlen, h⟩, fun h => h.2.2⟩
  · rw [if_pos (by rw [Bool.or_eq_true, hne, hne]; tauto)]
    simp [hcollinear]

/-- Two segments that both cover two different positions overlap. -/
theorem overlaps_of_common {u w : Position ℚ} (hne : u ≠ w) (hsu : s.covers u = true) (hsw : s.covers w = true)
    (htu : t.covers u = true) (htw : t.covers w = true) : s.overlaps t = true := by
  obtain ⟨a, ha0, ha1, rfl⟩ := (covers_iff s u).1 hsu
  obtain ⟨b, hb0, hb1, rfl⟩ := (covers_iff s w).1 hsw
  obtain ⟨c, -, -, hc⟩ := (covers_iff t _).1 htu
  obtain ⟨d, -, -, hd⟩ := (covers_iff t _).1 htw
  have hab : a ≠ b := fun h => hne (by rw [h])
  have hcd : c - d ≠ 0 := fun h => hne (by rw [hc, hd, sub_eq_zero.1 h])
  have hnondegenerate : s.start ≠ s.stop := fun h => hne (by simp only [along, h, sub_self, mul_zero])
  -- both turns vanish, as their combinations at two different parts do
  have hturn : ∀ part, part = c ∨ part = d →
      (1 - part) * turn s.start s.stop t.start + part * turn s.start s.stop t.stop = 0 := by
    rintro part (rfl | rfl)
    · rw [← turn_along, ← hc, turn_self_along]
    · rw [← turn_along, ← hd, turn_self_along]
  have hcollinear : turn s.start s.stop t.start = 0 ∧ turn s.start s.stop t.stop = 0 := by
    have h1 := hturn c (.inl rfl)
    have h2 := hturn d (.inr rfl)
    constructor
    · refine (mul_eq_zero.1 ?_).resolve_left hcd
      linear_combination d * h1 * (-1) + c * h2
    · refine (mul_eq_zero.1 ?_).resolve_left hcd
      linear_combination (1 - d) * h1 - (1 - c) * h2
  obtain ⟨e, he⟩ := exists_along hnondegenerate hcollinear.1
  obtain ⟨f, hf⟩ := exists_along hnondegenerate hcollinear.2
  have hea := (covers_along_iff hnondegenerate he hf a).1 htu
  have heb := (covers_along_iff hnondegenerate he hf b).1 htw
  rw [overlaps_iff, he, hf, fraction_along hnondegenerate, fraction_along hnondegenerate]
  refine ⟨by rw [← he, ← hf]; exact hcollinear, (squaredLength_pos hnondegenerate).ne', ?_⟩
  rcases lt_or_gt_of_ne hab with h | h
  · exact (max_le hea.1 ha0).trans_lt (h.trans_le (le_min heb.2 hb1))
  · exact (max_le heb.1 hb0).trans_lt (h.trans_le (le_min hea.2 ha1))

theorem start_ne_stop_of_overlaps (h : s.overlaps t = true) : s.start ≠ s.stop := fun heq =>
  ((overlaps_iff s t).1 h).2.1 (by simp [squaredLength, heq])

/-- Two segments overlap exactly when they have two different positions in common. -/
theorem overlaps_iff_common (s t : Segment ℚ) : s.overlaps t = true ↔
    ∃ u w, u ≠ w ∧ (s.covers u = true ∧ s.covers w = true) ∧ t.covers u = true ∧ t.covers w = true := by
  constructor
  · intro h
    have hne := start_ne_stop_of_overlaps h
    obtain ⟨⟨hstart, hstop⟩, -, hlt⟩ := (overlaps_iff s t).1 h
    obtain ⟨a, ha⟩ := exists_along hne hstart
    obtain ⟨b, hb⟩ := exists_along hne hstop
    rw [ha, hb, fraction_along hne, fraction_along hne] at hlt
    -- the shared stretch leads from the one bound to the other
    have hlow : 0 ≤ max (min a b) 0 := le_max_right _ _
    have hhigh : min (max a b) 1 ≤ 1 := min_le_right _ _
    refine ⟨_, _, fun heq => hlt.ne (along_injective hne heq), ⟨?_, ?_⟩, ?_, ?_⟩
    · exact covers_along hlow (hlt.le.trans hhigh)
    · exact covers_along (hlow.trans hlt.le) hhigh
    · exact (covers_along_iff hne ha hb _).2 ⟨le_max_left _ _, hlt.le.trans (min_le_left _ _)⟩
    · exact (covers_along_iff hne ha hb _).2 ⟨(le_max_left _ _).trans hlt.le, min_le_left _ _⟩
  · rintro ⟨u, w, hne, ⟨hsu, hsw⟩, htu, htw⟩
    exact overlaps_of_common hne hsu hsw htu htw

theorem overlaps_comm (s t : Segment ℚ) : s.overlaps t = t.overlaps s := by
  rw [Bool.eq_iff_iff, overlaps_iff_common, overlaps_iff_common]
  exact exists₂_congr fun u w => and_congr_right fun _ => and_comm

end Segment

end OccurrenceQuery.Geometry
