/-
Products, quotients and decimals are rounded correctly: the value of the result is the exact result,
rounded once. What is shifted out of a mantissa leaves two bits behind, which tell on which side of the
midpoint the exact number lies.
-/
import OccurrenceQuery.Proofs.Number.Value

namespace OccurrenceQuery.Number

open OccurrenceQuery.Text Float.Model Float.Model.UnpackedFloat

/-! ## The bits behind a mantissa -/

/-- What a mantissa and the bit right behind it stand for. -/
def floorHalf (em : ExtendedMantissa) : ℚ := em.mantissa + if em.roundBit then 1 / 2 else 0

/-- Whether a mantissa with the two bits behind it stands for the exact number `r`: the second bit tells
whether something is left behind the first one. -/
def StandsFor (em : ExtendedMantissa) (r : ℚ) : Prop :=
  if em.stickyBit then floorHalf em < r ∧ r < floorHalf em + 1 / 2 else r = floorHalf em

section

variable {em : ExtendedMantissa} {r : ℚ}

theorem mantissa_le_floorHalf (em : ExtendedMantissa) : em.mantissa ≤ floorHalf em := by
  unfold floorHalf
  split <;> linarith

theorem StandsFor.floorHalf_le (h : StandsFor em r) : floorHalf em ≤ r := by
  unfold StandsFor at h
  split at h
  · exact h.1.le
  · exact h.ge

theorem StandsFor.bounds (h : StandsFor em r) : em.mantissa ≤ r ∧ r < em.mantissa + 1 := by
  obtain ⟨m, roundBit, stickyBit⟩ := em
  cases roundBit <;> cases stickyBit <;> simp [StandsFor, floorHalf] at h ⊢ <;>
    constructor <;> linarith

theorem StandsFor.isNearest (h : StandsFor em r) : IsNearest em.roundedMantissa r := by
  obtain ⟨m, roundBit, stickyBit⟩ := em
  cases roundBit <;> cases stickyBit <;>
    simp [StandsFor, floorHalf, ExtendedMantissa.roundedMantissa, ExtendedMantissa.accuracy,
      Accuracy.roundToNearestEven] at h ⊢
  · exact h ▸ isNearest_self m
  · exact ⟨.inl (by linarith), .inl (by linarith)⟩
  · rcases Nat.even_or_odd m with heven | hodd
    · rw [Nat.even_iff.1 heven, add_zero]
      exact ⟨.inl (by linarith), .inr ⟨heven, by linarith⟩⟩
    · rw [Nat.odd_iff.1 hodd]
      refine ⟨.inr ⟨hodd.add_one, ?_⟩, .inl ?_⟩ <;> push_cast <;> linarith
  · refine ⟨.inl ?_, .inl ?_⟩ <;> push_cast <;> linarith

/-- The last bit of the mantissa is the one right behind the shifted mantissa. -/
theorem floorHalf_shiftRightOne (em : ExtendedMantissa) :
    floorHalf em.shiftRightOne = em.mantissa / 2 := by
  have hhalves : (em.mantissa : ℚ) = 2 * (em.mantissa / 2 : ℕ) + (em.mantissa % 2 : ℕ) := by
    exact_mod_cast (Nat.div_add_mod em.mantissa 2).symm
  rcases Nat.mod_two_eq_zero_or_one em.mantissa with hbit | hbit <;>
    simp [floorHalf, ExtendedMantissa.shiftRightOne, hbit] at hhalves ⊢ <;> linarith

theorem StandsFor.shiftRightOne (h : StandsFor em r) : StandsFor em.shiftRightOne (r / 2) := by
  obtain ⟨hlower, hupper⟩ := h.bounds
  have hsticky : em.shiftRightOne.stickyBit = (em.roundBit || em.stickyBit) := rfl
  rw [StandsFor, floorHalf_shiftRightOne, hsticky]
  split
  · rename_i hbits
    -- one of the two bits is set, so something is left behind the mantissa
    have hne : (em.mantissa : ℚ) < r := by
      rcases Bool.or_eq_true_iff.1 hbits with hbit | hbit
      · have hfloor := h.floorHalf_le
        rw [floorHalf, if_pos hbit] at hfloor
        linarith
      · rw [StandsFor, if_pos hbit] at h
        exact (mantissa_le_floorHalf em).trans_lt h.1
    constructor <;> linarith
  · rename_i hbits
    rw [Bool.or_eq_true, not_or] at hbits
    rw [StandsFor, if_neg hbits.2, floorHalf, if_neg hbits.1, add_zero] at h
    rw [h]

theorem StandsFor.shiftRight (h : StandsFor em r) (n : ℕ) : StandsFor (em >>> n) (r / 2 ^ n) := by
  induction n with
  | zero =>
    rw [pow_zero, div_one]
    exact h
  | succ n ih =>
    rw [pow_succ, ← div_div]
    exact ih.shiftRightOne

end

section

variable {m n : ℕ}

theorem standsFor_natCast (m : ℕ) : StandsFor (ExtendedMantissa.ofMantissaAndAccuracy m .exact) m := by
  simp [StandsFor, floorHalf, ExtendedMantissa.ofMantissaAndAccuracy]

/-- A quotient with the accuracy that the remainder tells stands for the exact quotient. -/
theorem standsFor_quotient (hn : 0 < n) :
    StandsFor (ExtendedMantissa.ofMantissaAndAccuracy (m / n) (accuracyOfFraction (m % n) n))
      (m / n) := by
  have hpos : (0 : ℚ) < n := by exact_mod_cast hn
  have hquotient : (m : ℚ) / n = (m / n : ℕ) + (m % n : ℕ) / n := by
    have hdivision : (m : ℚ) = n * (m / n : ℕ) + (m % n : ℕ) := by
      exact_mod_cast (Nat.div_add_mod m n).symm
    rw [div_eq_iff hpos.ne', add_mul, div_mul_cancel₀ _ hpos.ne']
    linarith
  have hless : ((m % n : ℕ) : ℚ) / n < 1 := by
    rw [div_lt_one hpos]
    exact_mod_cast Nat.mod_lt m hn
  rw [hquotient]
  generalize (m / n : ℕ) = quotient
  generalize m % n = rest at hless
  unfold accuracyOfFraction
  split
  · rename_i hrest
    simp [StandsFor, floorHalf, ExtendedMantissa.ofMantissaAndAccuracy, hrest]
  · rename_i hrest
    have hrestPos : (0 : ℚ) < rest / n := div_pos (by exact_mod_cast Nat.pos_of_ne_zero hrest) hpos
    have hhalf : (rest : ℚ) / n < 1 / 2 ↔ 2 * rest < n := by
      rw [div_lt_div_iff₀ hpos two_pos, one_mul, mul_comm]
      exact_mod_cast Iff.rfl
    have hhalf' : 1 / 2 < (rest : ℚ) / n ↔ n < 2 * rest := by
      rw [div_lt_div_iff₀ two_pos hpos, one_mul, mul_comm]
      exact_mod_cast Iff.rfl
    cases hcompare : compare (2 * rest) n with
    | lt =>
      have hlt := hhalf.2 (compare_lt_iff_lt.1 hcompare)
      simp [StandsFor, floorHalf, ExtendedMantissa.ofMantissaAndAccuracy]
      constructor <;> linarith
    | eq =>
      have heq := compare_eq_iff_eq.1 hcompare
      have hnot := mt hhalf.1 heq.not_lt
      have hnot' := mt hhalf'.1 heq.not_gt
      simp [StandsFor, floorHalf, ExtendedMantissa.ofMantissaAndAccuracy]
      linarith
    | gt =>
      have hgt := hhalf'.2 (compare_gt_iff_gt.1 hcompare)
      simp [StandsFor, floorHalf, ExtendedMantissa.ofMantissaAndAccuracy]
      constructor <;> linarith

end

/-! ## Rounding -/

section

variable {s : Sign} {m : ℕ} {e : ℤ} {accuracy : Accuracy} {r : ℚ}

/-- The last place is not below the exponent of a mantissa that has all 53 bits or the least exponent. -/
theorem le_lastPlace (h : 2 ^ 52 ≤ m ∨ e ≤ -1074) : e ≤ lastPlace (m * 2 ^ e) := by
  rcases h with h | h
  · have hmantissa : (2 : ℚ) ^ 52 ≤ m := by exact_mod_cast h
    have hlt : (2 : ℚ) ^ (e + (52 : ℕ)) < 2 ^ (lastPlace (m * 2 ^ e) + 53) := by
      rw [← two_pow_mul_zpow]
      exact (mul_le_mul_of_nonneg_right hmantissa (two_zpow_pos e).le).trans_lt (lt_of_lastPlace _)
    have hexponent := (zpow_lt_zpow_iff_right₀ (by norm_num)).1 hlt
    omega
  · exact h.trans (le_max_right _ _)

/-- The bits are shifted out up to the last place. -/
theorem add_shiftAmount_eq (hr : StandsFor (ExtendedMantissa.ofMantissaAndAccuracy m accuracy) r)
    (hpos : 0 < r) (he : e ≤ lastPlace (r * 2 ^ e)) : e + shiftAmount m e = lastPlace (r * 2 ^ e) := by
  have hbounds := hr.bounds
  rw [mantissa_ofMantissaAndAccuracy] at hbounds
  obtain ⟨hlower, hupper⟩ := hbounds
  have hq : 0 < r * 2 ^ e := mul_pos hpos (two_zpow_pos e)
  have hhigh : Int.log 2 (r * 2 ^ e) < e + (m.log2 + 1 : ℕ) := by
    refine (Int.lt_zpow_iff_log_lt (by norm_num) hq).1 ?_
    have hless : r < 2 ^ (m.log2 + 1) := by
      refine hupper.trans_le ?_
      exact_mod_cast Nat.lt_log2_self (n := m)
    rw [Nat.cast_ofNat, ← two_pow_mul_zpow]
    exact mul_lt_mul_of_pos_right hless (two_zpow_pos e)
  rcases m.eq_zero_or_pos with rfl | hm
  · rw [Nat.log2_zero] at hhigh
    simp only [lastPlace, shiftAmount, Nat.log2_zero] at he ⊢
    omega
  · have hlow : e + (m.log2 : ℕ) ≤ Int.log 2 (r * 2 ^ e) := by
      refine (Int.zpow_le_iff_le_log (by norm_num) hq).1 ?_
      have hleast : (2 : ℚ) ^ m.log2 ≤ r := by
        refine le_trans ?_ hlower
        exact_mod_cast Nat.log2_self_le hm.ne'
      rw [Nat.cast_ofNat, ← two_pow_mul_zpow]
      exact mul_le_mul_of_nonneg_right hleast (two_zpow_pos e).le
    simp only [lastPlace, shiftAmount] at he ⊢
    omega

theorem roundedDigits_eq_nearest
    (hr : StandsFor (ExtendedMantissa.ofMantissaAndAccuracy m accuracy) r) (hpos : 0 < r)
    (he : e ≤ lastPlace (r * 2 ^ e)) :
    roundedDigits m e accuracy = nearest (r * 2 ^ e / 2 ^ lastPlace (r * 2 ^ e)) := by
  have hshift : r * 2 ^ e / 2 ^ lastPlace (r * 2 ^ e) = r / 2 ^ shiftAmount m e := by
    rw [← add_shiftAmount_eq hr hpos he, ← two_pow_mul_zpow,
      mul_div_mul_right _ _ (two_zpow_pos e).ne']
  rw [hshift, nearest_eq (by positivity) (hr.shiftRight _).isNearest]
  rfl

/-- What an operation rounds is rounded to the nearest number. -/
theorem value_round (hr : StandsFor (ExtendedMantissa.ofMantissaAndAccuracy m accuracy) r)
    (hpos : 0 < r) (he : e ≤ lastPlace (r * 2 ^ e)) :
    value (Float.Model.pack (roundWithAccuracy Format.binary64 s m e accuracy)).unpack =
      factor s * min (roundMagnitude (r * 2 ^ e)) limit := by
  have hq : 0 < r * 2 ^ e := mul_pos hpos (two_zpow_pos e)
  have hdigits := roundedDigits_eq_nearest hr hpos he
  have hle := nearest_div_le hq.le
  have hlow : -1074 ≤ lastPlace (r * 2 ^ e) := le_max_right _ _
  rw [roundWithAccuracy_eq, add_shiftAmount_eq hr hpos he, roundMagnitude]
  rw [← hdigits] at hle ⊢
  split
  · rename_i hzero
    rw [value_unpack_pack_zero, hzero, Nat.cast_zero, zero_mul, min_eq_left limit_pos.le, mul_zero]
  split
  · rename_i hcarry
    rw [value_unpack_pack ⟨by norm_num, by omega, .inl le_rfl⟩, hcarry, zpow_add_one₀ (by norm_num)]
    congr 2
    push_cast
    ring
  · rename_i hne
    refine value_unpack_pack ⟨by omega, hlow, ?_⟩
    rcases hlow.eq_or_lt with heq | hlt
    · exact .inr heq.symm
    · exact .inl (hdigits ▸ le_nearest_div hq hlt)

end

/-! ## Products and quotients -/

section

variable {s s₁ s₂ : Sign} {m m₁ m₂ : ℕ} {e e₁ e₂ : ℤ} {h₁ : 0 < m₁} {h₂ : 0 < m₂}

/-- The exponent that is aimed at for a number of so many places is not beyond the last place. -/
theorem targetExponent_le {places : ℤ} {q : ℚ} (h : 2 ^ (places - 1) ≤ q) :
    Format.binary64.targetExponent places ≤ lastPlace q := by
  have hexponent : places - 1 < lastPlace q + 53 :=
    (zpow_lt_zpow_iff_right₀ (by norm_num)).1 (h.trans_lt (lt_of_lastPlace q))
  have hlow : -1074 ≤ lastPlace q := le_max_right _ _
  simp only [Format.targetExponent, Format.mantissaBits, Format.minExponent]
  omega

theorem two_zpow_le_magnitude (hm : 0 < m) (e : ℤ) : (2 : ℚ) ^ (totalExponent m e - 1) ≤ m * 2 ^ e := by
  have hmantissa : (2 : ℚ) ^ m.log2 ≤ m := by exact_mod_cast Nat.log2_self_le hm.ne'
  calc (2 : ℚ) ^ (totalExponent m e - 1)
      = 2 ^ (e + m.log2) := by rw [totalExponent, show (m.log2 : ℤ) + 1 + e - 1 = e + m.log2 by ring]
    _ = 2 ^ m.log2 * 2 ^ e := (two_pow_mul_zpow m.log2 e).symm
    _ ≤ m * 2 ^ e := mul_le_mul_of_nonneg_right hmantissa (two_zpow_pos e).le

theorem magnitude_lt_two_zpow (m : ℕ) (e : ℤ) : (m : ℚ) * 2 ^ e < 2 ^ totalExponent m e := by
  have hmantissa : (m : ℚ) < 2 ^ (m.log2 + 1) := by exact_mod_cast Nat.lt_log2_self (n := m)
  calc (m : ℚ) * 2 ^ e
      < 2 ^ (m.log2 + 1) * 2 ^ e := mul_lt_mul_of_pos_right hmantissa (two_zpow_pos e)
    _ = 2 ^ (e + (m.log2 + 1 : ℕ)) := two_pow_mul_zpow _ e
    _ = 2 ^ totalExponent m e := by rw [totalExponent, add_comm, Nat.cast_add_one]

theorem shiftLeft_mul_two_zpow (m k : ℕ) (e : ℤ) : ((m <<< k : ℕ) : ℚ) * 2 ^ (e - k) = m * 2 ^ e := by
  rw [Nat.shiftLeft_eq, zpow_sub₀ (by norm_num), zpow_natCast]
  push_cast
  field_simp

/-- A magnitude is brought to its last place before it is rounded. -/
theorem value_round_magnitude (hm : 0 < m) :
    value (Float.Model.pack (UnpackedFloat.round Format.binary64 s m e)).unpack =
      factor s * min (roundMagnitude (m * 2 ^ e)) limit := by
  have htarget := targetExponent_le (two_zpow_le_magnitude hm e)
  simp only [UnpackedFloat.round, decreaseExponent]
  generalize hk : (e - Format.binary64.targetExponent (totalExponent m e)).toNat = k
  have hround := value_round (s := s) (e := e - k) (standsFor_natCast (m <<< k))
  rw [shiftLeft_mul_two_zpow] at hround
  refine hround ?_ (by omega)
  rw [Nat.shiftLeft_eq]
  positivity

theorem value_mul (h : 2 ^ 52 ≤ m₁ * m₂ ∨ e₁ + e₂ ≤ -1074) :
    value (Float.Model.pack (UnpackedFloat.mul Format.binary64 (.finite s₁ m₁ e₁ h₁)
      (.finite s₂ m₂ e₂ h₂))).unpack =
      factor s₁ * factor s₂ * min (roundMagnitude (m₁ * 2 ^ e₁ * (m₂ * 2 ^ e₂))) limit := by
  have hproduct : (m₁ : ℚ) * 2 ^ e₁ * (m₂ * 2 ^ e₂) = (m₁ * m₂ : ℕ) * 2 ^ (e₁ + e₂) := by
    rw [zpow_add₀ (by norm_num)]
    push_cast
    ring
  rw [hproduct, ← factor_mul]
  exact value_round (standsFor_natCast (m₁ * m₂)) (by exact_mod_cast Nat.mul_pos h₁ h₂)
    (le_lastPlace h)

theorem value_div : value (Float.Model.pack (UnpackedFloat.div Format.binary64 (.finite s₁ m₁ e₁ h₁)
      (.finite s₂ m₂ e₂ h₂))).unpack =
      factor s₁ * factor s₂ * min (roundMagnitude (m₁ * 2 ^ e₁ / (m₂ * 2 ^ e₂))) limit := by
  have htarget : Format.binary64.targetExponent (totalExponent m₁ e₁ - totalExponent m₂ e₂) ≤
      lastPlace (m₁ * 2 ^ e₁ / (m₂ * 2 ^ e₂)) := by
    refine targetExponent_le ?_
    rw [show totalExponent m₁ e₁ - totalExponent m₂ e₂ - 1 =
      totalExponent m₁ e₁ - 1 - totalExponent m₂ e₂ by ring, zpow_sub₀ (by norm_num)]
    exact div_le_div₀ (magnitude_pos h₁ e₁).le (two_zpow_le_magnitude h₁ e₁) (magnitude_pos h₂ e₂)
      (magnitude_lt_two_zpow m₂ e₂).le
  have hle := min_le_left (e₁ - e₂)
    (Format.binary64.targetExponent (totalExponent m₁ e₁ - totalExponent m₂ e₂))
  replace htarget := (min_le_right (e₁ - e₂) _).trans htarget
  change value (Float.Model.pack (roundWithAccuracy Format.binary64 (s₁ / s₂)
    ((m₁ <<< (e₁ - e₂ - min (e₁ - e₂) _).toNat) / m₂) (min (e₁ - e₂) _) _)).unpack = _
  generalize min (e₁ - e₂) _ = target at hle htarget ⊢
  generalize hk : (e₁ - e₂ - target).toNat = k
  obtain rfl : target = e₁ - e₂ - k := by omega
  have hquotient : ((m₁ <<< k : ℕ) : ℚ) / m₂ * 2 ^ (e₁ - e₂ - k) = m₁ * 2 ^ e₁ / (m₂ * 2 ^ e₂) := by
    rw [div_mul_eq_mul_div, shiftLeft_mul_two_zpow, zpow_sub₀ (by norm_num)]
    field_simp
  have hround := value_round (s := s₁ / s₂) (e := e₁ - e₂ - k)
    (standsFor_quotient (m := m₁ <<< k) h₂)
  rw [hquotient] at hround
  rw [← factor_div]
  refine hround ?_ htarget
  rw [Nat.shiftLeft_eq]
  have hpos₁ : (0 : ℚ) < m₁ := by exact_mod_cast h₁
  have hpos₂ : (0 : ℚ) < m₂ := by exact_mod_cast h₂
  push_cast
  positivity

end

/-! ## Floating-point numbers -/

theorem rounded_factor (s : Sign) {q : ℚ} (hq : 0 ≤ q) :
    rounded (factor s * q) = factor s * min (roundMagnitude q) limit := by
  rw [← rounded_of_nonneg hq]
  cases s <;> simp [factor]

section

variable {x y : Float}

/-- A product is the exact product, rounded. -/
theorem valueOf_mul (hx : x.isFinite = true) (hy : y.isFinite = true) :
    valueOf (x * y) = rounded (valueOf x * valueOf y) := by
  change value (Float.Model.pack (UnpackedFloat.mul Format.binary64 x.toModel.unpack
    y.toModel.unpack)).unpack = rounded (value x.toModel.unpack * value y.toModel.unpack)
  rcases cases_of_isFinite hx with ⟨s, hux⟩ | ⟨s, m, e, hm, hux, hformat, -⟩ <;>
    rcases cases_of_isFinite hy with ⟨t, huy⟩ | ⟨t, n, f, hn, huy, hformat', -⟩ <;>
    rw [hux, huy]
  · simp [UnpackedFloat.mul]
  · simp [UnpackedFloat.mul]
  · simp [UnpackedFloat.mul]
  · have hbits : 2 ^ 52 ≤ m * n ∨ e + f ≤ -1074 := by
      rcases hformat.normal with hnormal | rfl
      · exact .inl (hnormal.trans (Nat.le_mul_of_pos_right m hn))
      rcases hformat'.normal with hnormal | rfl
      · exact .inl (hnormal.trans (Nat.le_mul_of_pos_left n hm))
      · exact .inr (by norm_num)
    rw [value_mul hbits, ← factor_mul, ← rounded_factor _ (by positivity), factor_mul]
    congr 1
    simp only [value]
    ring

/-- A quotient is the exact quotient, rounded. -/
theorem valueOf_div (hx : x.isFinite = true) (hy : y.isFinite = true) (hne : valueOf y ≠ 0) :
    valueOf (x / y) = rounded (valueOf x / valueOf y) := by
  change value (Float.Model.pack (UnpackedFloat.div Format.binary64 x.toModel.unpack
    y.toModel.unpack)).unpack = rounded (value x.toModel.unpack / value y.toModel.unpack)
  rcases cases_of_isFinite hy with ⟨t, huy⟩ | ⟨t, n, f, hn, huy, -⟩
  · exact absurd (by rw [valueOf, huy, value_zero]) hne
  rcases cases_of_isFinite hx with ⟨s, hux⟩ | ⟨s, m, e, hm, hux, -⟩ <;> rw [hux, huy]
  · simp [UnpackedFloat.div]
  · rw [value_div, ← factor_mul, ← rounded_factor _ (by positivity), factor_mul]
    congr 1
    cases t <;> simp [value, factor] <;> ring

end

end OccurrenceQuery.Number
