/-
How coherent the comparison of distances is. Whether two distances are the same is decided in the unit of
the second one and their order in the unit of the first one, so that the same question asked the other way
round is rounded differently. The answers fit together exactly when both conversions put the distances in
the same order, as they do unless the lengths are extreme or as close to each other as the roundings reach.
-/
import OccurrenceQuery.Proofs.Distance.Conversion
import OccurrenceQuery.Proofs.Distance.RoundTrip

namespace OccurrenceQuery.Distance

open OccurrenceQuery.Number

/-! ## The order of numbers -/

theorem order?_eq {x y : Float} (hx : x.isNaN = false) (hy : y.isNaN = false) :
    order? x y = some (compare (valueOf x) (valueOf y)) := by
  unfold order?
  simp only [lt_iff_valueOf_lt hx hy, lt_iff_valueOf_lt hy hx, beq_iff_valueOf_eq hx hy]
  rcases lt_trichotomy (valueOf x) (valueOf y) with hlt | heq | hgt
  · rw [if_pos hlt, compare_lt_iff_lt.2 hlt]
  · rw [if_neg heq.not_lt, if_pos heq, compare_eq_iff_eq.2 heq]
  · rw [if_neg hgt.not_gt, if_neg hgt.ne', if_pos hgt, compare_gt_iff_gt.2 hgt]

theorem order?_swap {x y : Float} (hx : x.isNaN = false) (hy : y.isNaN = false) :
    order? y x = (order? x y).map Ordering.swap := by
  rw [order?_eq hx hy, order?_eq hy hx, Option.map_some, ← Std.OrientedCmp.eq_swap]

/-- Two pairs are in the same order if the first of one is at most its second when the first of the other
is, and the other way round. -/
theorem compare_eq_compare {p q r t : ℚ} (hle : p ≤ q ↔ r ≤ t) (hge : q ≤ p ↔ t ≤ r) :
    compare p q = compare r t := by
  rw [compare_iff]
  cases h : compare r t with
  | lt => exact lt_of_not_ge (hge.not.2 (compare_lt_iff_lt.1 h).not_ge)
  | eq =>
    have heq := compare_eq_iff_eq.1 h
    exact le_antisymm (hle.2 heq.le) (hge.2 heq.ge)
  | gt => exact lt_of_not_ge (hle.not.2 (compare_gt_iff_gt.1 h).not_ge)

/-- A number that is nearer to `q` than `r` is lies on the same side of `r` as `q` does. -/
theorem compare_of_abs_sub_lt {p q r : ℚ} (h : |p - q| < |q - r|) : compare p r = compare q r := by
  obtain ⟨hlower, hupper⟩ := abs_lt.1 h
  rcases lt_trichotomy q r with hlt | rfl | hgt
  · rw [abs_of_neg (sub_neg.2 hlt)] at hupper
    rw [compare_lt_iff_lt.2 hlt, compare_lt_iff_lt]
    linarith
  · rw [sub_self, abs_zero] at h
    exact absurd h (abs_nonneg _).not_gt
  · rw [abs_of_pos (sub_pos.2 hgt)] at hlower
    rw [compare_gt_iff_gt.2 hgt, compare_gt_iff_gt]
    linarith

/-! ## The two conversions -/

/-- The order of `a` and `b` after `a` is converted to the unit of `b`. -/
def compareInSecond? (a b : Distance) : Option Ordering := order? (a.inUnit b.unit) b.value

/-- What is expected of a comparison: sameness is symmetric, it is the order `eq`, and the order turns round
with the distances. -/
structure Coherent (a b : Distance) : Prop where
  same_comm : same a b = same b a
  same_iff : same a b = true ↔ a.compare? b = some .eq
  lt_iff_gt : a.compare? b = some .lt ↔ b.compare? a = some .gt

section

variable {a b : Distance}

theorem isNaN_inUnit (ha : a.value.isFinite = true) (u : LengthUnit) : (a.inUnit u).isNaN = false :=
  LengthUnit.isNaN_convert (isNaN_of_isFinite ha)

theorem compareInSecond?_eq (ha : a.value.isFinite = true) (hb : b.value.isFinite = true) :
    compareInSecond? a b = some (compare (valueOf (a.inUnit b.unit)) (valueOf b.value)) :=
  order?_eq (isNaN_inUnit ha b.unit) (isNaN_of_isFinite hb)

theorem compare?_eq (ha : a.value.isFinite = true) (hb : b.value.isFinite = true) :
    a.compare? b = some (compare (valueOf a.value) (valueOf (b.inUnit a.unit))) :=
  order?_eq (isNaN_of_isFinite ha) (isNaN_inUnit hb a.unit)

/-- The comparison the other way round converts the distance that `compareInSecond?` converts. -/
theorem compare?_comm (ha : a.value.isFinite = true) (hb : b.value.isFinite = true) :
    b.compare? a = (compareInSecond? a b).map Ordering.swap :=
  order?_swap (isNaN_inUnit ha b.unit) (isNaN_of_isFinite hb)

theorem same_iff_compareInSecond? (ha : a.value.isFinite = true) (hb : b.value.isFinite = true) :
    same a b = true ↔ compareInSecond? a b = some .eq := by
  rw [compareInSecond?_eq ha hb, Option.some_inj, compare_eq_iff_eq]
  exact beq_iff_valueOf_eq (isNaN_inUnit ha b.unit) (isNaN_of_isFinite hb)

/-- Sameness is the order `eq` of the distances the other way round. -/
theorem same_iff_compare?_swap (ha : a.value.isFinite = true) (hb : b.value.isFinite = true) :
    same a b = true ↔ b.compare? a = some .eq := by
  rw [same_iff_compareInSecond? ha hb, compare?_comm ha hb, compareInSecond?_eq ha hb]
  cases compare (valueOf (a.inUnit b.unit)) (valueOf b.value) <;> decide

/-- The comparison is coherent exactly when it makes no difference which distance is converted. -/
theorem coherent_iff (ha : a.value.isFinite = true) (hb : b.value.isFinite = true) :
    Coherent a b ↔ compareInSecond? a b = a.compare? b := by
  have hsame := same_iff_compareInSecond? ha hb
  have hsymm := same_iff_compare?_swap hb ha
  have hturn := compare?_comm ha hb
  rw [compareInSecond?_eq ha hb] at hsame hturn ⊢
  rw [compare?_eq ha hb] at hsymm ⊢
  have hfirst := compare?_eq ha hb
  generalize compare (valueOf (a.inUnit b.unit)) (valueOf b.value) = second at *
  generalize compare (valueOf a.value) (valueOf (b.inUnit a.unit)) = first at *
  rw [Option.some_inj] at hsame hsymm ⊢
  constructor
  · rintro ⟨hcomm, -, hlt⟩
    have heq : second = .eq ↔ first = .eq := by rw [← hsame, hcomm, hsymm]
    have hless : first = .lt ↔ second = .lt := by simpa [hfirst, hturn] using hlt
    cases second with
    | lt => exact (hless.2 rfl).symm
    | eq => exact (heq.1 rfl).symm
    | gt =>
      cases first with
      | lt => cases hless.1 rfl
      | eq => cases heq.2 rfl
      | gt => rfl
  · rintro rfl
    exact ⟨by rw [Bool.eq_iff_iff, hsame, hsymm], by rw [hsame, hfirst, Option.some_inj],
      by simp [hfirst, hturn]⟩

/-! ## Coherent comparisons -/

theorem coherent_of_unit_eq (ha : a.value.isFinite = true) (hb : b.value.isFinite = true)
    (h : a.unit = b.unit) : Coherent a b := by
  rw [coherent_iff ha hb, compareInSecond?, compare?, inUnit, inUnit, h, LengthUnit.convert_self,
    LengthUnit.convert_self]

/-- Whether a distance has its number again after a conversion to a unit and back. -/
def Survives (d : Distance) (u : LengthUnit) : Prop := LengthUnit.convert (d.inUnit u) u d.unit = d.value

theorem coherent_of_survives (ha : a.value.isFinite = true) (hb : b.value.isFinite = true)
    (hsa : Survives a b.unit) (hsb : Survives b a.unit) : Coherent a b := by
  have hna := isNaN_of_isFinite ha
  have hnb := isNaN_of_isFinite hb
  have hga := isNaN_inUnit ha b.unit
  have hgb := isNaN_inUnit hb a.unit
  have hmono {x y : Float} {u v : LengthUnit} := @LengthUnit.convert_mono x y u v
  -- the conversions are monotone and undo each other
  rw [coherent_iff ha hb, compareInSecond?_eq ha hb, compare?_eq ha hb, Option.some_inj]
  refine compare_eq_compare ⟨fun h => ?_, fun h => ?_⟩ ⟨fun h => ?_, fun h => ?_⟩
  · rw [← hsa]
    exact hmono hga hnb h
  · rw [← hsb]
    exact hmono hna hgb h
  · rw [← hsa]
    exact hmono hnb hga h
  · rw [← hsb]
    exact hmono hgb hna h

/-- The exact length of a distance in meters. -/
def length (d : Distance) : ℚ := valueOf d.value * valueOf d.unit.inMeters

/-- Whether the lengths of two distances are moderate and more than one part in `2 ^ 51` of each apart. -/
structure IsApart (a b : Distance) : Prop where
  moderate_left : LengthUnit.IsModerate a.length
  moderate_right : LengthUnit.IsModerate b.length
  left_lt : |a.length| / 2 ^ 51 < |a.length - b.length|
  right_lt : |b.length| / 2 ^ 51 < |a.length - b.length|

theorem IsApart.symm (h : IsApart a b) : IsApart b a where
  moderate_left := h.moderate_right
  moderate_right := h.moderate_left
  left_lt := by rw [abs_sub_comm]; exact h.right_lt
  right_lt := by rw [abs_sub_comm]; exact h.left_lt

/-- Multiplication by the length of the unit takes numbers in one unit to lengths. -/
theorem compare_mul_inMeters (p q : ℚ) (u : LengthUnit) :
    compare (p * valueOf u.inMeters) (q * valueOf u.inMeters) = compare p q :=
  compare_eq_compare (mul_le_mul_iff_left₀ (LengthUnit.inMeters_pos u))
    (mul_le_mul_iff_left₀ (LengthUnit.inMeters_pos u))

/-- Lengths that are apart are in the order in which they are after a conversion. -/
theorem IsApart.compare_inUnit (h : IsApart a b) (ha : a.value.isFinite = true) :
    compare (valueOf (a.inUnit b.unit)) (valueOf b.value) = compare a.length b.length := by
  rw [← compare_mul_inMeters _ _ b.unit]
  exact compare_of_abs_sub_lt ((LengthUnit.abs_convert_sub_le ha h.moderate_left).trans_lt h.left_lt)

theorem IsApart.compareInSecond? (h : IsApart a b) (ha : a.value.isFinite = true)
    (hb : b.value.isFinite = true) : compareInSecond? a b = some (compare a.length b.length) := by
  rw [compareInSecond?_eq ha hb, h.compare_inUnit ha]

theorem IsApart.compare? (h : IsApart a b) (ha : a.value.isFinite = true)
    (hb : b.value.isFinite = true) : a.compare? b = some (compare a.length b.length) := by
  rw [compare?_comm hb ha, h.symm.compareInSecond? hb ha, Option.map_some, ← Std.OrientedCmp.eq_swap]

/-! ## The order in meters -/

theorem inMeters_le_of_compare?_eq_lt (ha : a.value.isFinite = true) (hb : b.value.isFinite = true)
    (h : a.compare? b = some .lt) : a.inUnit .meters ≤ b.inUnit .meters := by
  rw [compare?_eq ha hb, Option.some_inj, compare_lt_iff_lt] at h
  rw [le_iff_valueOf_le (isNaN_inUnit ha _) (isNaN_inUnit hb _)]
  exact LengthUnit.convert_meters_le_of_lt_convert ha (isNaN_of_isFinite hb) h

theorem inMeters_le_of_compare?_eq_gt (ha : a.value.isFinite = true) (hb : b.value.isFinite = true)
    (h : a.compare? b = some .gt) : b.inUnit .meters ≤ a.inUnit .meters := by
  rw [compare?_eq ha hb, Option.some_inj, compare_gt_iff_gt] at h
  rw [le_iff_valueOf_le (isNaN_inUnit hb _) (isNaN_inUnit ha _)]
  exact LengthUnit.convert_meters_le_of_convert_lt ha (isNaN_of_isFinite hb) h

end

/-- The sides of a range that is refused for its order are not in order in meters, unless they are equal. -/
theorem inMeters_le_of_isReversed {text : String} (h : IsReversed text) :
    ∃ before after lower upper, text.toList = before ++ ',' :: after ∧ IsPositive before lower ∧
      IsPositive after upper ∧ upper.inUnit .meters ≤ lower.inUnit .meters := by
  obtain ⟨before, after, lower, upper, htext, -, hlower, hupper, hgt⟩ := h
  exact ⟨before, after, lower, upper, htext, hlower, hupper,
    inMeters_le_of_compare?_eq_gt (isFinite_of_read? hlower.1) (isFinite_of_read? hupper.1) hgt⟩

/-! ## The comparison of finite distances -/

/-- Sameness is always the order `eq` the other way round, and the order never contradicts the one in meters.
The comparison is coherent exactly when both conversions put the distances in the same order: within one
unit, when the numbers survive both conversions, and when the lengths are apart, in which case the order
is that of the exact lengths. -/
theorem coherence (a b : Distance) (ha : a.value.isFinite = true) (hb : b.value.isFinite = true) :
    (same a b = true ↔ b.compare? a = some .eq) ∧
      (Coherent a b ↔ compareInSecond? a b = a.compare? b) ∧
      (a.unit = b.unit ∨ Survives a b.unit ∧ Survives b a.unit ∨ IsApart a b → Coherent a b) ∧
      (IsApart a b → a.compare? b = some (compare a.length b.length)) ∧
      (a.compare? b = some .lt → a.inUnit .meters ≤ b.inUnit .meters) ∧
      (a.compare? b = some .gt → b.inUnit .meters ≤ a.inUnit .meters) := by
  refine ⟨same_iff_compare?_swap ha hb, coherent_iff ha hb, ?_, fun h => h.compare? ha hb,
    inMeters_le_of_compare?_eq_lt ha hb, inMeters_le_of_compare?_eq_gt ha hb⟩
  rintro (hunit | ⟨hsa, hsb⟩ | hapart)
  · exact coherent_of_unit_eq ha hb hunit
  · exact coherent_of_survives ha hb hsa hsb
  · rw [coherent_iff ha hb, hapart.compareInSecond? ha hb, hapart.compare? ha hb]

/-- A mile and a kilometer are apart, and a mile is longer either way. -/
theorem coherence_mile :
    let mile : Distance := ⟨1.0, .miles⟩
    let kilometer : Distance := ⟨1.0, .kilometers⟩
    mile.value.isFinite = true ∧ kilometer.value.isFinite = true ∧ IsApart mile kilometer ∧
      Coherent mile kilometer ∧ mile.compare? kilometer = some .gt := by
  intro mile kilometer
  have hmile : mile.value.isFinite = true := by decide +kernel
  have hkilometer : kilometer.value.isFinite = true := by decide +kernel
  have hapart : IsApart mile kilometer :=
    ⟨.inr (by decide +kernel), .inr (by decide +kernel), by decide +kernel, by decide +kernel⟩
  obtain ⟨-, -, hcoherent, -⟩ := coherence mile kilometer hmile hkilometer
  exact ⟨hmile, hkilometer, hapart, hcoherent (.inr (.inr hapart)), by decide +kernel⟩

/-- A yard is three feet and three feet are not a yard: the yard compares less than the feet that it is the
same as, and the feet compare equal to the yard. -/
theorem not_coherent_yard :
    let yard : Distance := ⟨1.0, .yard⟩
    let feet : Distance := ⟨3.0, .feet⟩
    yard.value.isFinite = true ∧ feet.value.isFinite = true ∧
      same yard feet = true ∧ same feet yard = false ∧
      yard.compare? feet = some .lt ∧ feet.compare? yard = some .eq ∧ ¬ Coherent yard feet := by
  intro yard feet
  have hyard : same yard feet = true := by decide +kernel
  have hfeet : same feet yard = false := by decide +kernel
  refine ⟨by decide +kernel, by decide +kernel, hyard, hfeet, by decide +kernel, by decide +kernel, fun h => ?_⟩
  rw [← h.same_comm, hyard] at hfeet
  cases hfeet

/-- Two distances, each of which is greater than the other, so that no range of them is accepted. -/
example : (check "215ft,65532mm").toBool = false ∧ (check "65532mm,215ft").toBool = false := by
  decide +kernel

end OccurrenceQuery.Distance
