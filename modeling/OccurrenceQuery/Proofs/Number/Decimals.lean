/-
Decimals are read correctly rounded: what a decimal is read as has the value that its exact value is
rounded to, also beyond the greatest finite number and below the least positive one.
-/
import OccurrenceQuery.Proofs.Number.Operations

namespace OccurrenceQuery.Number

open OccurrenceQuery.Text Float.Model Float.Model.UnpackedFloat

/-! ## Rounding far out -/

section

variable {q : ℚ} {m k : ℕ}

theorem rounded_of_overflow (h : (overflowBound : ℚ) ≤ q) : rounded q = limit := by
  have hbound : (overflowBound : ℚ) / 2 ^ (972 : ℤ) = 2 ^ 52 - 1 / 4 := by
    have hquarters : (overflowBound : ℚ) = (2 ^ 54 - 1) * 2 ^ ((972 : ℤ) - 2) := by
      rw [overflowBound, Nat.cast_mul, Nat.cast_pow, Nat.cast_ofNat, ← zpow_natCast]
      norm_num
    rw [hquarters, quarters_div]
    norm_num
  have hattracted : IsAttracted (2 ^ 52) 972 overflowBound := by
    refine ⟨.inr ⟨by decide, ?_⟩, .inl ?_⟩
    · rw [hbound, lowerMidpoint, if_pos ⟨rfl, by norm_num⟩]
      norm_num
    · rw [hbound]
      norm_num
  have hle := roundMagnitude_mono (Nat.cast_nonneg _) h
  rw [roundMagnitude_of_isAttracted ⟨by norm_num, by norm_num, .inl le_rfl⟩ (by norm_num) hattracted,
    ← limit_eq] at hle
  rw [rounded_of_nonneg ((Nat.cast_nonneg _).trans h), min_eq_right hle]

/-- What is at most half of the least positive number is rounded to zero. -/
theorem rounded_of_underflow (hq : 0 ≤ q) (h : q ≤ 2 ^ (-1075 : ℤ)) : rounded q = 0 := by
  have hnearest : IsNearest 0 ((2 : ℚ) ^ (-1075 : ℤ) / 2 ^ (-1074 : ℤ)) := by
    rw [← zpow_sub₀ (by norm_num)]
    exact ⟨.inl (by norm_num), .inr ⟨by decide, by norm_num⟩⟩
  have hplace : lastPlace (2 ^ (-1075 : ℤ)) = -1074 :=
    lastPlace_eq (two_zpow_pos _) le_rfl (.inr rfl) (zpow_lt_zpow_right₀ (by norm_num) (by norm_num))
  have hzero : roundMagnitude (2 ^ (-1075 : ℤ)) = 0 := by
    rw [roundMagnitude, hplace, nearest_eq (by positivity) hnearest, Nat.cast_zero, zero_mul]
  have hle := roundMagnitude_mono hq h
  rw [hzero] at hle
  rw [rounded_of_nonneg hq, le_antisymm hle (roundMagnitude_nonneg q), min_eq_left limit_pos.le]

/-- Natural numbers of at most 53 bits are not rounded. -/
theorem roundMagnitude_natCast (hm : m < 2 ^ 53) : roundMagnitude m = m := by
  rcases m.eq_zero_or_pos with rfl | hpos
  · simp
  have hplace : lastPlace m ≤ 0 := by
    have hlog : Int.log 2 (m : ℚ) < 53 :=
      (Int.lt_zpow_iff_log_lt (by norm_num) (by exact_mod_cast hpos)).1 (by exact_mod_cast hm)
    simp only [lastPlace]
    omega
  obtain ⟨k, hk⟩ : ∃ k : ℕ, lastPlace m = -k := ⟨(-lastPlace m).toNat, by omega⟩
  have hscaled : (m : ℚ) / 2 ^ lastPlace m = (m * 2 ^ k : ℕ) := by
    rw [hk, zpow_neg, zpow_natCast, div_inv_eq_mul]
    push_cast
    rfl
  rw [roundMagnitude, hscaled, nearest_natCast, ← hscaled, div_mul_cancel₀ _ (two_zpow_pos _).ne']

theorem natCast_lt_limit (hm : m < 2 ^ 53) : (m : ℚ) < limit :=
  calc (m : ℚ)
      < 2 ^ 53 := by exact_mod_cast hm
    _ ≤ limit := pow_le_pow_right₀ (by norm_num) (by norm_num)

/-! ## Short decimals -/

theorem valueOf_toFloat (hpos : 0 < m) (hm : m < 2 ^ 53) : valueOf m.toUInt64.toFloat = m := by
  have hcode : m.toUInt64.toNat = m := Nat.mod_eq_of_lt (by omega)
  have hcompare : compare (m : ℤ) 0 = .gt := by
    rw [compare_gt_iff_gt]
    omega
  have hround : UnpackedFloat.ofNat Format.binary64 m.toUInt64.toNat =
      UnpackedFloat.round Format.binary64 .positive m 0 := by
    rw [hcode]
    simp only [UnpackedFloat.ofNat, UnpackedFloat.ofInt, UnpackedFloat.normalize, hcompare,
      Int.toNat_natCast]
  change value (Float.Model.pack (UnpackedFloat.ofNat Format.binary64 m.toUInt64.toNat)).unpack = m
  rw [hround, value_round_magnitude hpos, zpow_zero, mul_one, roundMagnitude_natCast hm,
    min_eq_left (natCast_lt_limit hm).le, factor, one_mul]

theorem isFinite_toFloat (hpos : 0 < m) (hm : m < 2 ^ 53) : m.toUInt64.toFloat.isFinite = true := by
  change m.toUInt64.toFloat.toModel.unpack.isFinite = true
  rcases unpack_toFloat_cases hpos hm with ⟨s, hunpack⟩ | ⟨s, m', e, h, hunpack, -⟩ <;> rw [hunpack] <;> rfl

/-- The powers of ten that are floating-point numbers themselves. -/
theorem valueOf_powerOfTen (hk : k ≤ 22) (hsize : k < Float.exactlyRepresentablePowersOfTen.size) :
    Float.exactlyRepresentablePowersOfTen[k].isFinite = true ∧
      valueOf Float.exactlyRepresentablePowersOfTen[k] = 10 ^ k := by
  have hall : ∀ i : Fin 23, Float.exactlyRepresentablePowersOfTen[i].isFinite = true ∧
      valueOf Float.exactlyRepresentablePowersOfTen[i] = 10 ^ i.val := by
    decide +kernel
  exact hall ⟨k, by omega⟩

/-! ## Decimals -/

theorem natCast_ten_pow {e : ℤ} (he : 0 ≤ e) : ((10 ^ e.toNat : ℕ) : ℚ) = 10 ^ e := by
  rw [Nat.cast_pow, Nat.cast_ofNat, ← zpow_natCast, Int.toNat_of_nonneg he]

theorem overflowBound_le_of_exponent (hpos : 0 < m) {e : ℤ} (he : 1024 ≤ e) :
    (overflowBound : ℚ) ≤ m * 10 ^ e := by
  have hone : (1 : ℚ) ≤ m := by exact_mod_cast hpos
  calc (overflowBound : ℚ)
      ≤ 2 ^ 1024 := by exact_mod_cast overflowBound_le_two_pow le_rfl
    _ = 2 ^ (1024 : ℤ) := limit_eq_zpow
    _ ≤ 2 ^ e := zpow_le_zpow_right₀ (by norm_num) he
    _ ≤ 10 ^ e := zpow_le_zpow_left₀ (by omega) (by norm_num) (by norm_num)
    _ ≤ m * 10 ^ e := le_mul_of_one_le_left (zpow_pos (by norm_num) e).le hone

theorem le_two_zpow_of_exponent {e : ℤ} (he : e < -(1075 + (m.log2 : ℤ))) :
    (m : ℚ) * 10 ^ e ≤ 2 ^ (-1075 : ℤ) := by
  have hten : (0 : ℚ) < 10 ^ e := zpow_pos (by norm_num) e
  have hmantissa : (m : ℚ) ≤ 2 ^ (m.log2 + 1) := by exact_mod_cast Nat.lt_log2_self.le
  have hpower : (10 : ℚ) ^ e ≤ 2 ^ e := by
    rw [← inv_le_inv₀ (two_zpow_pos e) hten, ← zpow_neg, ← zpow_neg]
    exact zpow_le_zpow_left₀ (by omega) (by norm_num) (by norm_num)
  calc (m : ℚ) * 10 ^ e
      ≤ 2 ^ (m.log2 + 1) * 2 ^ e := mul_le_mul hmantissa hpower hten.le (by positivity)
    _ = 2 ^ (e + (m.log2 + 1 : ℕ)) := two_pow_mul_zpow _ e
    _ ≤ 2 ^ (-1075 : ℤ) := zpow_le_zpow_right₀ (by norm_num) (by push_cast; omega)

theorem value_model_ofScientific (hpos : 0 < m) (e : ℤ) :
    value (Float.Model.ofScientific m e).unpack = rounded (m * 10 ^ e) := by
  unfold Float.Model.ofScientific UnpackedFloat.ofScientific
  rw [dif_neg hpos.ne']
  split
  · rename_i hlarge
    change e > 2048 at hlarge
    rw [rounded_of_overflow (overflowBound_le_of_exponent hpos (by omega))]
    exact one_mul limit
  split
  · rename_i hsmall
    change e < -(2048 + (m.log2 : ℤ)) at hsmall
    rw [rounded_of_underflow (by positivity) (le_two_zpow_of_exponent (by omega))]
    exact value_unpack_pack_zero .positive
  split
  · rename_i hsign
    have hbits : Format.binary64.mantissaBits = 53 := rfl
    have hmantissa : 2 ^ 52 ≤ m <<< Format.binary64.mantissaBits * 10 ^ e.toNat := by
      rw [hbits, Nat.shiftLeft_eq]
      calc 2 ^ 52
          ≤ 1 * 2 ^ 53 * 1 := by norm_num
        _ ≤ m * 2 ^ 53 * 10 ^ e.toNat :=
          Nat.mul_le_mul (Nat.mul_le_mul_right _ hpos) (Nat.one_le_pow _ _ (by norm_num))
    have hproduct : ((m <<< Format.binary64.mantissaBits : ℕ) : ℚ) *
        2 ^ (-(Format.binary64.mantissaBits : ℤ)) * ((10 ^ e.toNat : ℕ) * 2 ^ (0 : ℤ)) = m * 10 ^ e := by
      have hshifted := shiftLeft_mul_two_zpow m Format.binary64.mantissaBits 0
      rw [zero_sub] at hshifted
      rw [hshifted, natCast_ten_pow hsign, zpow_zero, mul_one, mul_one]
    rw [value_mul (.inl hmantissa), hproduct, rounded_of_nonneg (by positivity)]
    simp [factor]
  · rename_i hsign
    have hquotient : (m : ℚ) * 2 ^ (0 : ℤ) / ((10 ^ (-e).toNat : ℕ) * 2 ^ (0 : ℤ)) = m * 10 ^ e := by
      rw [natCast_ten_pow (by omega), zpow_zero, mul_one, mul_one, zpow_neg, div_inv_eq_mul]
    rw [value_div, hquotient, rounded_of_nonneg (by positivity)]
    simp [factor]

theorem valueOf_ofScientific (hpos : 0 < m) (e : ℤ) :
    valueOf (Float.ofScientific m (decide (e < 0)) e.natAbs) = rounded (m * 10 ^ e) := by
  unfold Float.ofScientific
  split
  · rename_i hshort
    obtain ⟨hm, he⟩ := hshort
    have hsize : e.natAbs < Float.exactlyRepresentablePowersOfTen.size := by
      simp [Float.exactlyRepresentablePowersOfTen]
      omega
    obtain ⟨hfinite, hpower⟩ := valueOf_powerOfTen he hsize
    by_cases hsign : e < 0
    · have hne : valueOf Float.exactlyRepresentablePowersOfTen[e.natAbs] ≠ 0 := by
        rw [hpower]
        positivity
      rw [decide_eq_true hsign]
      change valueOf (m.toUInt64.toFloat / Float.exactlyRepresentablePowersOfTen[e.natAbs]) = _
      rw [valueOf_div (isFinite_toFloat hpos hm) hfinite hne, valueOf_toFloat hpos hm, hpower,
        ← zpow_natCast, div_eq_mul_inv, ← zpow_neg, show -(e.natAbs : ℤ) = e by omega]
    · rw [decide_eq_false hsign]
      change valueOf (m.toUInt64.toFloat * Float.exactlyRepresentablePowersOfTen[e.natAbs]) = _
      rw [valueOf_mul (isFinite_toFloat hpos hm) hfinite, valueOf_toFloat hpos hm, hpower,
        ← zpow_natCast, show (e.natAbs : ℤ) = e by omega]
  · rw [exponent_of_sign]
    exact value_model_ofScientific hpos e

end

/-- A decimal is read as the number that its exact value is rounded to. -/
theorem Decimal.valueOf_toFloat (d : Decimal) : valueOf d.toFloat = rounded d.value := by
  have hzero : valueOf 0.0 = 0 := by decide +kernel
  unfold toFloat
  split
  · rename_i hdigits
    rw [hzero, Decimal.value, hdigits, Nat.cast_zero, zero_mul, rounded_zero]
  rename_i hdigits
  dsimp only
  split
  · rename_i hplace
    have hbound := le_value_of_place hdigits hplace
    have hinfinity : valueOf infinity = limit := one_mul limit
    rw [hinfinity, rounded_of_overflow]
    exact not_lt.1 (mt d.value_lt_iff.1 hbound.not_gt)
  split
  · rename_i hplace
    have hten : (0 : ℚ) < 10 ^ d.exponent := zpow_pos (by norm_num) _
    have hdigits := (length_numeral_le_iff (n := d.digits) Nat.length_toDigits_pos).1 le_rfl
    have hdigits' : (d.digits : ℚ) ≤ 10 ^ (numeral d.digits).length := by exact_mod_cast hdigits.le
    have hbound : d.value ≤ 2 ^ (-1075 : ℤ) :=
      calc d.value
          ≤ 10 ^ (numeral d.digits).length * 10 ^ d.exponent := mul_le_mul_of_nonneg_right hdigits' hten.le
        _ = 10 ^ ((numeral d.digits).length + d.exponent) := by
          rw [← zpow_natCast, ← zpow_add₀ (by norm_num)]
        _ ≤ 10 ^ (-400 : ℤ) := zpow_le_zpow_right₀ (by norm_num) hplace.le
        _ ≤ 2 ^ (-1075 : ℤ) := by
          rw [zpow_neg, zpow_neg, inv_le_inv₀ (by positivity) (by positivity)]
          exact_mod_cast (by decide +kernel : 2 ^ 1075 ≤ 10 ^ 400)
    have hnonneg : 0 ≤ d.value := mul_nonneg (Nat.cast_nonneg _) hten.le
    rw [hzero, rounded_of_underflow hnonneg hbound]
  · exact valueOf_ofScientific (Nat.pos_of_ne_zero hdigits) d.exponent

end OccurrenceQuery.Number
