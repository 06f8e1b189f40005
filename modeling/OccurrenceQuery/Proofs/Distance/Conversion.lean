/-
The conversion of lengths, which multiplies by the length of one unit, rounds, divides by the length of the
other one and rounds again. It keeps the order of numbers, and what the two roundings take away is small
beside the length unless the length is extreme.
-/
import OccurrenceQuery.Proofs.Number.Scaling
import OccurrenceQuery.Distance.Basic

namespace OccurrenceQuery.LengthUnit

open OccurrenceQuery.Number

/-! ## The length of a unit -/

theorem isFinite_inMeters (u : LengthUnit) : u.inMeters.isFinite = true := by
  cases u <;> decide +kernel

theorem inMeters_bounds (u : LengthUnit) :
    2 ^ (-10 : ℤ) ≤ valueOf u.inMeters ∧ valueOf u.inMeters ≤ 2 ^ (11 : ℤ) := by
  cases u <;> decide +kernel

theorem inMeters_pos (u : LengthUnit) : 0 < valueOf u.inMeters :=
  (two_zpow_pos (-10)).trans_le (inMeters_bounds u).1

theorem valueOf_inMeters_meters : valueOf meters.inMeters = 1 := by decide +kernel

theorem isScaling_mul_inMeters (u : LengthUnit) : IsScaling (· * u.inMeters) (valueOf u.inMeters) :=
  isScaling_mul (isFinite_inMeters u) (inMeters_pos u)

theorem isScaling_div_inMeters (u : LengthUnit) : IsScaling (· / u.inMeters) (valueOf u.inMeters)⁻¹ :=
  isScaling_div (isFinite_inMeters u) (inMeters_pos u)

/-! ## The order -/

section

variable {x y : Float} {u v : LengthUnit}

theorem convert_self (x : Float) (u : LengthUnit) : convert x u u = x := if_pos rfl

theorem convert_of_ne (h : u ≠ v) : convert x u v = x * u.inMeters / v.inMeters := if_neg h

theorem isNaN_convert (hx : x.isNaN = false) : (convert x u v).isNaN = false := by
  by_cases h : u = v
  · rwa [h, convert_self]
  · rw [convert_of_ne h]
    exact (isScaling_div_inMeters v).isNaN_eq_false _ ((isScaling_mul_inMeters u).isNaN_eq_false x hx)

theorem convert_mono (hx : x.isNaN = false) (hy : y.isNaN = false) (h : valueOf x ≤ valueOf y) :
    valueOf (convert x u v) ≤ valueOf (convert y u v) := by
  by_cases huv : u = v
  · rwa [huv, convert_self, convert_self]
  · have hmul := isScaling_mul_inMeters u
    rw [convert_of_ne huv, convert_of_ne huv]
    exact (isScaling_div_inMeters v).mono (hmul.isNaN_eq_false x hx) (hmul.isNaN_eq_false y hy)
      (hmul.mono hx hy h)

/-- The conversion to meters rounds once only. -/
theorem valueOf_convert_meters (hx : x.isNaN = false) :
    valueOf (convert x u meters) = valueOf (x * u.inMeters) := by
  have hscale : ∀ z : Float, z.isNaN = false → ∀ f, IsScaling f 1 → valueOf (f z) = valueOf z := by
    intro z hz f hf
    rcases cases_of_isNaN_eq_false hz with hfinite | ⟨s, hunpack⟩
    · rw [hf.finite z hfinite, mul_one, rounded_valueOf]
    · rw [hf.valueOf_eq_of_infinity hunpack, valueOf_infinity hunpack]
  by_cases h : u = meters
  · have hmul := isScaling_mul_inMeters meters
    rw [valueOf_inMeters_meters] at hmul
    rw [h, convert_self, hscale x hx _ hmul]
  · have hdiv := isScaling_div_inMeters meters
    rw [valueOf_inMeters_meters, inv_one] at hdiv
    rw [convert_of_ne h, hscale _ ((isScaling_mul_inMeters u).isNaN_eq_false x hx) _ hdiv]

/-- What is less than a converted length is in meters at most that length. -/
theorem convert_meters_le_of_lt_convert (hx : x.isFinite = true) (hy : y.isNaN = false)
    (h : valueOf x < valueOf (convert y v u)) :
    valueOf (convert x u meters) ≤ valueOf (convert y v meters) := by
  have hnx := isNaN_of_isFinite hx
  by_cases huv : v = u
  · rw [huv, convert_self] at h
    rw [huv]
    exact convert_mono hnx hy h.le
  · rw [convert_of_ne huv] at h
    rw [valueOf_convert_meters hnx, valueOf_convert_meters hy]
    exact (isScaling_mul_inMeters u).le_of_lt_inverse (isScaling_div_inMeters u) hx
      ((isScaling_mul_inMeters v).isNaN_eq_false y hy) h

/-- What is greater than a converted length is in meters at least that length. -/
theorem convert_meters_le_of_convert_lt (hx : x.isFinite = true) (hy : y.isNaN = false)
    (h : valueOf (convert y v u) < valueOf x) :
    valueOf (convert y v meters) ≤ valueOf (convert x u meters) := by
  have hnx := isNaN_of_isFinite hx
  by_cases huv : v = u
  · rw [huv, convert_self] at h
    rw [huv]
    exact convert_mono hy hnx h.le
  · rw [convert_of_ne huv] at h
    rw [valueOf_convert_meters hnx, valueOf_convert_meters hy]
    exact (isScaling_mul_inMeters u).le_of_inverse_lt (isScaling_div_inMeters u) hx
      ((isScaling_mul_inMeters v).isNaN_eq_false y hy) h

/-! ## The error -/

/-- A length of which the conversions neither lose bits nor come near the infinities. -/
def IsModerate (q : ℚ) : Prop := q = 0 ∨ 2 ^ (-1000 : ℤ) ≤ |q| ∧ |q| ≤ 2 ^ (1000 : ℤ)

theorem abs_bounds_of_abs_sub_le {p q : ℚ} (h : |p - q| ≤ |q| / 2 ^ 53) : |q| / 2 ≤ |p| ∧ |p| ≤ 2 * |q| := by
  have hsmall : |q| / 2 ^ 53 ≤ |q| / 2 := div_le_div_of_nonneg_left (abs_nonneg q) two_pos (by norm_num)
  have hbelow := abs_sub_abs_le_abs_sub p q
  have habove := abs_sub_abs_le_abs_sub q p
  rw [abs_sub_comm] at habove
  have hnonneg := abs_nonneg q
  exact ⟨by linarith only [hsmall, habove, h], by linarith only [hsmall, hbelow, h, hnonneg]⟩

theorem abs_div_inMeters_bounds {p : ℚ} (v : LengthUnit) (hlower : 2 ^ (-1001 : ℤ) ≤ |p|)
    (hupper : |p| ≤ 2 ^ (1001 : ℤ)) :
    2 ^ (-1022 : ℤ) ≤ |p / valueOf v.inMeters| ∧ |p / valueOf v.inMeters| ≤ 2 ^ (1023 : ℤ) := by
  have hpos := inMeters_pos v
  obtain ⟨hleast, hgreatest⟩ := inMeters_bounds v
  rw [abs_div, abs_of_pos hpos, le_div_iff₀ hpos, div_le_iff₀ hpos]
  constructor
  · calc (2 : ℚ) ^ (-1022 : ℤ) * valueOf v.inMeters
        ≤ 2 ^ (-1022 : ℤ) * 2 ^ (11 : ℤ) := mul_le_mul_of_nonneg_left hgreatest (two_zpow_pos _).le
      _ = 2 ^ (-1011 : ℤ) := (zpow_add₀ two_ne_zero _ _).symm
      _ ≤ 2 ^ (-1001 : ℤ) := zpow_le_zpow_right₀ one_le_two (by norm_num)
      _ ≤ |p| := hlower
  · calc |p|
        ≤ 2 ^ (1001 : ℤ) := hupper
      _ ≤ 2 ^ (1013 : ℤ) := zpow_le_zpow_right₀ one_le_two (by norm_num)
      _ = 2 ^ (1023 : ℤ) * 2 ^ (-10 : ℤ) := zpow_add₀ two_ne_zero 1023 (-10)
      _ ≤ 2 ^ (1023 : ℤ) * valueOf v.inMeters := mul_le_mul_of_nonneg_left hleast (two_zpow_pos _).le

theorem abs_mul_inMeters_sub_le (hx : x.isFinite = true)
    (hlower : 2 ^ (-1000 : ℤ) ≤ |valueOf x * valueOf u.inMeters|)
    (hupper : |valueOf x * valueOf u.inMeters| ≤ 2 ^ (1000 : ℤ)) :
    |valueOf (x * u.inMeters) - valueOf x * valueOf u.inMeters| ≤
      |valueOf x * valueOf u.inMeters| / 2 ^ 53 := by
  rw [valueOf_mul hx (isFinite_inMeters u)]
  exact abs_rounded_sub_le ((zpow_le_zpow_right₀ one_le_two (by norm_num)).trans hlower)
    (hupper.trans (zpow_le_zpow_right₀ one_le_two (by norm_num)))

theorem abs_div_inMeters_sub_le (hx : x.isFinite = true) (hlower : 2 ^ (-1001 : ℤ) ≤ |valueOf x|)
    (hupper : |valueOf x| ≤ 2 ^ (1001 : ℤ)) :
    |valueOf (x / v.inMeters) * valueOf v.inMeters - valueOf x| ≤ |valueOf x| / 2 ^ 53 := by
  have hpos := inMeters_pos v
  obtain ⟨hleast, hgreatest⟩ := abs_div_inMeters_bounds v hlower hupper
  have hdiv := abs_rounded_sub_le hleast hgreatest
  rw [← valueOf_div hx (isFinite_inMeters v) hpos.ne', abs_div, abs_of_pos hpos] at hdiv
  calc |valueOf (x / v.inMeters) * valueOf v.inMeters - valueOf x|
      = |valueOf (x / v.inMeters) - valueOf x / valueOf v.inMeters| * valueOf v.inMeters := by
        rw [← abs_of_pos hpos, ← abs_mul, sub_mul, abs_of_pos hpos, div_mul_cancel₀ _ hpos.ne']
    _ ≤ |valueOf x| / valueOf v.inMeters / 2 ^ 53 * valueOf v.inMeters :=
        mul_le_mul_of_nonneg_right hdiv hpos.le
    _ = |valueOf x| / 2 ^ 53 := by rw [div_right_comm, div_mul_cancel₀ _ hpos.ne']

theorem isFinite_mul_inMeters (hx : x.isFinite = true) (h : |valueOf (x * u.inMeters)| ≤ 2 ^ (1001 : ℤ)) :
    (x * u.inMeters).isFinite = true := by
  refine isFinite_of_abs_valueOf_lt ((isScaling_mul_inMeters u).isNaN_eq_false x (isNaN_of_isFinite hx)) ?_
  rw [limit_eq_zpow]
  exact h.trans_lt (zpow_lt_zpow_right₀ one_lt_two (by norm_num))

theorem valueOf_convert_of_eq_zero (hx : x.isFinite = true) (h : valueOf x = 0) :
    valueOf (convert x u v) = 0 := by
  by_cases huv : u = v
  · rwa [huv, convert_self]
  · have hscaled : valueOf (x * u.inMeters) = 0 := by
      rw [valueOf_mul hx (isFinite_inMeters u), h, zero_mul, rounded_zero]
    have hfinite : (x * u.inMeters).isFinite = true := by
      refine isFinite_mul_inMeters hx ?_
      rw [hscaled, abs_zero]
      exact (two_zpow_pos _).le
    rw [convert_of_ne huv, valueOf_div hfinite (isFinite_inMeters v) (inMeters_pos v).ne', hscaled, zero_div,
      rounded_zero]

/-- The two roundings of a conversion move a moderate length by at most one part in `2 ^ 51`. -/
theorem abs_convert_sub_le (hx : x.isFinite = true) (hlength : IsModerate (valueOf x * valueOf u.inMeters)) :
    |valueOf (convert x u v) * valueOf v.inMeters - valueOf x * valueOf u.inMeters| ≤
      |valueOf x * valueOf u.inMeters| / 2 ^ 51 := by
  by_cases huv : u = v
  · rw [huv, convert_self, sub_self, abs_zero]
    positivity
  rcases hlength with hzero | ⟨hlower, hupper⟩
  · have hx0 : valueOf x = 0 := (mul_eq_zero.1 hzero).resolve_right (inMeters_pos u).ne'
    rw [valueOf_convert_of_eq_zero hx hx0, hx0, zero_mul, zero_mul, sub_self, abs_zero, zero_div]
  rw [convert_of_ne huv]
  have hfirst := abs_mul_inMeters_sub_le hx hlower hupper
  have hfinite := isFinite_mul_inMeters (u := u) hx
  generalize valueOf x * valueOf u.inMeters = length at *
  generalize x * u.inMeters = scaled at *
  obtain ⟨hhalf, hdouble⟩ := abs_bounds_of_abs_sub_le hfirst
  have hleast : (2 : ℚ) ^ (-1001 : ℤ) ≤ |valueOf scaled| := by
    rw [show (-1001 : ℤ) = -1000 - 1 by norm_num, zpow_sub_one₀ two_ne_zero]
    linarith only [hlower, hhalf]
  have hgreatest : |valueOf scaled| ≤ 2 ^ (1001 : ℤ) := by
    rw [show (1001 : ℤ) = 1000 + 1 by norm_num, zpow_add_one₀ two_ne_zero]
    linarith only [hupper, hdouble]
  have hsecond := abs_div_inMeters_sub_le (v := v) (hfinite hgreatest) hleast hgreatest
  have htriangle := abs_sub_le (valueOf (scaled / v.inMeters) * valueOf v.inMeters) (valueOf scaled) length
  have hnonneg := abs_nonneg length
  linarith only [hfirst, hsecond, hdouble, htriangle, hnonneg]

end

end OccurrenceQuery.LengthUnit
