/-
Rounding to floating-point numbers. A magnitude is shifted until its mantissa has 53 bits and rounded
to the nearest one, ties to even; it becomes infinite if and only if it is not below the bound that lies
half a unit in the last place above the greatest finite number.
-/
import Mathlib

namespace OccurrenceQuery.Number

open Float.Model Float.Model.UnpackedFloat

/-! ## Shifting -/

theorem mantissa_shiftRight (em : ExtendedMantissa) (n : ℕ) :
    (em >>> n).mantissa = em.mantissa / 2 ^ n := by
  induction n with
  | zero => exact (Nat.div_one _).symm
  | succ n ih =>
    calc (em >>> (n + 1)).mantissa
        = (em >>> n).mantissa / 2 := rfl
      _ = em.mantissa / 2 ^ (n + 1) := by rw [ih, Nat.div_div_eq_div_mul, ← Nat.pow_succ]

theorem roundBit_shiftRight_succ (em : ExtendedMantissa) (n : ℕ) :
    (em >>> (n + 1)).roundBit = (em.mantissa / 2 ^ n % 2 != 0) := by
  rw [← mantissa_shiftRight]
  rfl

theorem mantissa_ofMantissaAndAccuracy (m : ℕ) (accuracy : Accuracy) :
    (ExtendedMantissa.ofMantissaAndAccuracy m accuracy).mantissa = m := by
  rcases accuracy with _ | (_ | _ | _) <;> rfl

theorem mantissa_le_roundedMantissa (em : ExtendedMantissa) : em.mantissa ≤ em.roundedMantissa := by
  obtain ⟨m, roundBit, stickyBit⟩ := em
  cases roundBit <;> cases stickyBit <;>
    simp [ExtendedMantissa.roundedMantissa, ExtendedMantissa.accuracy, Accuracy.roundToNearestEven]

/-- A mantissa goes up by at most one, and an odd one only when the bit behind it is set. -/
theorem roundedMantissa_le (em : ExtendedMantissa) :
    em.roundedMantissa ≤ em.mantissa + em.roundBit.toNat := by
  obtain ⟨m, roundBit, stickyBit⟩ := em
  cases roundBit <;> cases stickyBit <;>
    simp [ExtendedMantissa.roundedMantissa, ExtendedMantissa.accuracy, Accuracy.roundToNearestEven]
  omega

theorem roundedMantissa_of_odd {em : ExtendedMantissa} (h : em.mantissa % 2 = 1)
    (hround : em.roundBit = true) : em.roundedMantissa = em.mantissa + 1 := by
  obtain ⟨m, roundBit, stickyBit⟩ := em
  cases roundBit <;> cases stickyBit <;>
    simp_all [ExtendedMantissa.roundedMantissa, ExtendedMantissa.accuracy,
      Accuracy.roundToNearestEven]

/-! ## Rounding -/

section

variable {m : ℕ} {e : ℤ} {accuracy : Accuracy}

/-- How many bits are shifted out of a mantissa with an exponent: as many as leave 53, and at least as
many as raise the exponent to the least one. -/
def shiftAmount (m : ℕ) (e : ℤ) : ℕ := (max ((m.log2 : ℤ) - 52) (-1074 - e)).toNat

theorem shiftToTargetExponent_eq : shiftToTargetExponent Format.binary64 m e accuracy =
    (ExtendedMantissa.ofMantissaAndAccuracy m accuracy >>> shiftAmount m e, e + shiftAmount m e) := by
  have htarget : (Format.binary64.targetExponent (totalExponent m e) - e).toNat = shiftAmount m e := by
    simp only [Format.targetExponent, totalExponent, Format.mantissaBits, Format.minExponent,
      shiftAmount]
    omega
  rw [shiftToTargetExponent, shiftToExponent, htarget]

/-- The mantissa after the shift, to the nearest. -/
def roundedDigits (m : ℕ) (e : ℤ) (accuracy : Accuracy) : ℕ :=
  (ExtendedMantissa.ofMantissaAndAccuracy m accuracy >>> shiftAmount m e).roundedMantissa

theorem div_le_roundedDigits : m / 2 ^ shiftAmount m e ≤ roundedDigits m e accuracy := by
  have h := mantissa_le_roundedMantissa
    (ExtendedMantissa.ofMantissaAndAccuracy m accuracy >>> shiftAmount m e)
  rwa [mantissa_shiftRight, mantissa_ofMantissaAndAccuracy] at h

theorem div_shiftAmount_lt : m / 2 ^ shiftAmount m e < 2 ^ 53 := by
  rw [Nat.div_lt_iff_lt_mul (by positivity), ← pow_add]
  refine Nat.lt_log2_self.trans_le (Nat.pow_le_pow_right (by norm_num) ?_)
  simp only [shiftAmount]
  omega

theorem roundedDigits_le : roundedDigits m e accuracy ≤ 2 ^ 53 := by
  have h := roundedMantissa_le
    (ExtendedMantissa.ofMantissaAndAccuracy m accuracy >>> shiftAmount m e)
  rw [mantissa_shiftRight, mantissa_ofMantissaAndAccuracy] at h
  have hbit := Bool.toNat_le
    (ExtendedMantissa.ofMantissaAndAccuracy m accuracy >>> shiftAmount m e).roundBit
  have hdiv := div_shiftAmount_lt (m := m) (e := e)
  rw [roundedDigits]
  omega

/-- What is rounded fits after at most one more shift. -/
theorem shiftAmount_roundedDigits : shiftAmount (roundedDigits m e accuracy) (e + shiftAmount m e) =
    if roundedDigits m e accuracy = 2 ^ 53 then 1 else 0 := by
  have hexponent : -1074 ≤ e + shiftAmount m e := by
    simp only [shiftAmount]
    omega
  have hle := @roundedDigits_le m e accuracy
  generalize roundedDigits m e accuracy = digits at hle ⊢
  split
  · rename_i heq
    subst heq
    simp only [shiftAmount, Nat.log2_two_pow]
    omega
  · rename_i hne
    have hlog : digits.log2 < 53 := by
      rcases Nat.eq_zero_or_pos digits with rfl | hpos
      · decide
      · exact (Nat.log2_lt hpos.ne').2 (by omega)
    rw [shiftAmount]
    omega

/-- The rounded mantissa with its exponent; a carry into a further bit raises the exponent. -/
theorem roundWithAccuracy_eq (s : Sign) : roundWithAccuracy Format.binary64 s m e accuracy =
    if h : roundedDigits m e accuracy = 0 then .zero s
    else if roundedDigits m e accuracy = 2 ^ 53 then
      .finite s (2 ^ 52) (e + shiftAmount m e + 1) (by norm_num)
    else .finite s (roundedDigits m e accuracy) (e + shiftAmount m e) (Nat.pos_of_ne_zero h) := by
  have hdigits : (ExtendedMantissa.ofMantissaAndAccuracy m accuracy >>>
      shiftAmount m e).roundedMantissa = roundedDigits m e accuracy := rfl
  have hshift := @shiftAmount_roundedDigits m e accuracy
  unfold roundWithAccuracy
  simp only [shiftToTargetExponent_eq, mantissa_shiftRight, mantissa_ofMantissaAndAccuracy, hdigits]
  by_cases hcarry : roundedDigits m e accuracy = 2 ^ 53
  · rw [if_pos hcarry, hcarry] at hshift
    simp [hcarry, show shiftAmount 9007199254740992 (e + shiftAmount m e) = 1 from hshift]
  · rw [if_neg hcarry] at hshift
    simp only [hshift, if_neg hcarry, pow_zero, Nat.div_one, Nat.cast_zero, add_zero]

end

/-! ## Finite numbers -/

theorem isFinite_unpack_iff (bits : BitVec Format.binary64.numBits) :
    (UnpackedFloat.unpack Format.binary64 bits).isFinite = true ↔ unpackExponent bits ≠ -1#_ := by
  unfold UnpackedFloat.unpack
  dsimp only
  split
  · rename_i hones
    split <;> exact iff_of_false Bool.false_ne_true (not_not_intro hones)
  · rename_i hones
    split
    · split <;> exact iff_of_true rfl hones
    · exact iff_of_true rfl hones

/-- The mantissa and the exponent of a finite number, from the field of the exponent. -/
theorem of_unpack_eq_finite {bits : BitVec Format.binary64.numBits} {s : Sign} {m : ℕ} {e : ℤ}
    {h : 0 < m} (hbits : UnpackedFloat.unpack Format.binary64 bits = .finite s m e h) :
    m < 2 ^ 53 ∧ e = max 1 ((unpackExponent bits).toNat : ℤ) - 1075 ∧ e ≤ 971 := by
  have hfield : (unpackExponent bits).toNat < 2 ^ 11 := (unpackExponent bits).isLt
  have hmantissa : (unpackMantissa bits).toNat < 2 ^ 52 := (unpackMantissa bits).isLt
  unfold UnpackedFloat.unpack at hbits
  dsimp only at hbits
  split at hbits
  · split at hbits <;> cases hbits
  · rename_i hones
    have hfits : (unpackExponent bits).toNat ≠ 2047 := fun heq => hones (BitVec.eq_of_toNat_eq heq)
    split at hbits
    · rename_i hzero
      split at hbits
      · cases hbits
      · cases hbits
        rw [hzero]
        norm_num [Format.exponentBias]
        omega
    · rename_i hzero
      cases hbits
      have hpos : (unpackExponent bits).toNat ≠ 0 := fun heq => hzero (BitVec.eq_of_toNat_eq heq)
      have himplicit : (1#1 ++ unpackMantissa bits).toNat < 2 ^ 53 :=
        (1#1 ++ unpackMantissa bits).isLt
      norm_num [Format.exponentBias] at himplicit ⊢
      omega

/-- The field of the exponent, from the exponent. -/
theorem toNat_biased (e : ℤ) :
    (e + Format.binary64.exponentBias + (52 : ℕ)).toNat = (e + 1075).toNat := by
  norm_num [Format.exponentBias]
  omega

theorem isFinite_pack_zero (s : Sign) : (Float.Model.pack (.zero s)).isFinite = true := by
  cases s <;> decide

section

variable {s : Sign} {m : ℕ} {e : ℤ} {h : 0 < m}

/-- The field of the exponent is all ones when the exponent is too large for the format, and zero when
the mantissa has fewer than 53 bits. -/
theorem unpackExponent_pack :
    unpackExponent (UnpackedFloat.pack Format.binary64 (.finite s m e h)) =
      if 2 ^ 11 ≤ (e + 1075).toNat + 1 then -1#11
      else if m.log2 + 1 = 53 then BitVec.ofNat 11 (e + 1075).toNat else 0#11 := by
  unfold UnpackedFloat.pack
  dsimp only
  rw [toNat_biased, packedInfinity, apply_ite unpackExponent, apply_ite unpackExponent,
    unpackExponent_packComponents, unpackExponent_packComponents, unpackExponent_packComponents]
  rfl

theorem toNat_unpackExponent_pack_le :
    (unpackExponent (UnpackedFloat.pack Format.binary64 (.finite s m e h))).toNat ≤
      (e + 1075).toNat := by
  rw [unpackExponent_pack]
  split
  · simp
    omega
  · split
    · simp
      omega
    · simp

/-- Packing raises no exponent but those below the least one. -/
theorem exponent_le_of_unpack_pack {s' : Sign} {m' : ℕ} {e' : ℤ} {h' : 0 < m'}
    (hpack : (Float.Model.pack (.finite s m e h)).unpack = .finite s' m' e' h') :
    e' ≤ max e (-1074) := by
  obtain ⟨-, hfield, -⟩ := of_unpack_eq_finite hpack
  have hle := @toNat_unpackExponent_pack_le s m e h
  change e' = max 1 ((unpackExponent (UnpackedFloat.pack Format.binary64
    (.finite s m e h))).toNat : ℤ) - 1075 at hfield
  omega

/-- A magnitude whose exponent is too large for the format is packed as an infinity. -/
theorem isFinite_pack_iff : (Float.Model.pack (.finite s m e h)).isFinite = true ↔ e ≤ 971 := by
  have hfinite := isFinite_unpack_iff (UnpackedFloat.pack Format.binary64 (.finite s m e h))
  rw [unpackExponent_pack] at hfinite
  refine hfinite.trans ?_
  split
  · exact iff_of_false (not_not_intro rfl) (by omega)
  · have hle : e ≤ 971 := by omega
    refine iff_of_true ?_ hle
    split
    · intro hones
      have hfield := congrArg BitVec.toNat hones
      simp at hfield
      omega
    · decide

end

/-! ## The bound -/

section

variable {m n : ℕ} {e : ℤ} {accuracy : Accuracy}

/-- Rounding carries into a further bit if and only if the mantissa and the bit behind it are all
ones. -/
theorem roundedDigits_eq_iff (hshift : shiftAmount m e = n + 1) :
    roundedDigits m e accuracy = 2 ^ 53 ↔ 2 ^ 54 - 1 ≤ m / 2 ^ n := by
  have hhalf : m / 2 ^ (n + 1) = m / 2 ^ n / 2 := by rw [Nat.div_div_eq_div_mul, ← Nat.pow_succ]
  have hfits := div_shiftAmount_lt (m := m) (e := e)
  have hmantissa := mantissa_shiftRight (ExtendedMantissa.ofMantissaAndAccuracy m accuracy) (n + 1)
  have hbit := roundBit_shiftRight_succ (ExtendedMantissa.ofMantissaAndAccuracy m accuracy) n
  have hle := roundedMantissa_le (ExtendedMantissa.ofMantissaAndAccuracy m accuracy >>> (n + 1))
  rw [mantissa_ofMantissaAndAccuracy, hhalf] at hmantissa
  rw [mantissa_ofMantissaAndAccuracy] at hbit
  rw [roundedDigits, hshift]
  rw [hshift, hhalf] at hfits
  constructor
  · intro hcarry
    rw [hcarry, hmantissa] at hle
    cases hset : (ExtendedMantissa.ofMantissaAndAccuracy m accuracy >>> (n + 1)).roundBit with
    | false =>
      rw [hset, Bool.toNat_false] at hle
      omega
    | true =>
      rw [hset, Bool.toNat_true] at hle
      have hodd : m / 2 ^ n % 2 ≠ 0 := by simpa [hset] using hbit.symm
      omega
  · intro hones
    rw [roundedMantissa_of_odd, hmantissa]
    · omega
    · omega
    · rw [hbit]
      simp
      omega

theorem isFinite_round_iff_digits (s : Sign) :
    (Float.Model.pack (roundWithAccuracy Format.binary64 s m e accuracy)).isFinite = true ↔
      roundedDigits m e accuracy = 0 ∨
        e + shiftAmount m e + (if roundedDigits m e accuracy = 2 ^ 53 then 1 else 0) ≤ 971 := by
  rw [roundWithAccuracy_eq]
  by_cases hzero : roundedDigits m e accuracy = 0
  · simp [hzero, isFinite_pack_zero s]
  · rw [dif_neg hzero, or_iff_right hzero]
    split
    · exact isFinite_pack_iff
    · rw [add_zero]
      exact isFinite_pack_iff

/-- A magnitude is rounded to a finite number if and only if it is below the bound, counted in units of
its exponent. -/
theorem isFinite_round_iff (s : Sign) (he : e ≤ 970) :
    (Float.Model.pack (roundWithAccuracy Format.binary64 s m e accuracy)).isFinite = true ↔
      m < (2 ^ 54 - 1) * 2 ^ (970 - e).toNat := by
  rw [isFinite_round_iff_digits]
  obtain ⟨n, rfl⟩ : ∃ n : ℕ, e = 970 - n := ⟨(970 - e).toNat, by omega⟩
  have hn : (970 - (970 - (n : ℤ))).toNat = n := by omega
  rw [hn, ← Nat.div_lt_iff_lt_mul (by positivity)]
  rcases lt_trichotomy m.log2 (n + 53) with hsmall | hedge | hlarge
  · -- at most 53 bits stand in front of the place of the bound
    have hshift : shiftAmount m (970 - n) ≤ n := by
      rw [shiftAmount]
      omega
    have hdiv : m / 2 ^ n < 2 ^ 53 := by
      rw [Nat.div_lt_iff_lt_mul (by positivity), ← pow_add]
      exact Nat.lt_log2_self.trans_le (Nat.pow_le_pow_right (by norm_num) (by omega))
    refine iff_of_true (.inr ?_) (by omega)
    split <;> omega
  · have hshift : shiftAmount m (970 - n) = n + 1 := by
      rw [shiftAmount]
      omega
    have hcarry : roundedDigits m (970 - n) accuracy = 2 ^ 53 ↔ _ := roundedDigits_eq_iff hshift
    rw [hshift]
    split
    · rename_i heq
      have hones := hcarry.1 heq
      refine iff_of_false ?_ (by omega)
      omega
    · rename_i hne
      have hones := mt hcarry.2 hne
      refine iff_of_true (.inr ?_) (by omega)
      omega
  · have hm : m ≠ 0 := by
      rintro rfl
      exact absurd hlarge (by simp)
    have hshift : shiftAmount m (970 - n) = m.log2 - 52 := by
      rw [shiftAmount]
      omega
    have hdiv : 2 ^ 54 ≤ m / 2 ^ n := by
      rw [Nat.le_div_iff_mul_le (by positivity), ← pow_add]
      exact (Nat.pow_le_pow_right (by norm_num) (by omega)).trans (Nat.log2_self_le hm)
    have hdigits : 0 < roundedDigits m (970 - n) accuracy := by
      refine lt_of_lt_of_le ?_ div_le_roundedDigits
      rw [hshift]
      exact Nat.div_pos ((Nat.pow_le_pow_right (by norm_num) (by omega)).trans (Nat.log2_self_le hm))
        (by positivity)
    refine iff_of_false ?_ (by omega)
    rw [hshift]
    split <;> omega

end

/-! ## Natural numbers -/

/-- A natural number of at most 53 bits is a floating-point number itself. -/
theorem exists_ofNat_eq {n : ℕ} (hpos : 0 < n) (hn : n < 2 ^ 53) :
    ∃ m e, ∃ h : 0 < m, UnpackedFloat.ofNat Format.binary64 n = .finite .positive m e h ∧ e ≤ 0 := by
  have hlog : n.log2 < 53 := (Nat.log2_lt hpos.ne').2 hn
  have hcompare : compare (n : ℤ) 0 = .gt := by
    rw [compare_gt_iff_gt]
    omega
  have htarget : Format.binary64.targetExponent (totalExponent n 0) = n.log2 - 52 := by
    simp only [Format.targetExponent, totalExponent, Format.mantissaBits, Format.minExponent]
    omega
  have hround : UnpackedFloat.ofNat Format.binary64 n = roundWithAccuracy Format.binary64 .positive
      (n <<< (52 - n.log2)) (n.log2 - 52) .exact := by
    have hamount : (0 - ((n.log2 : ℤ) - 52)).toNat = 52 - n.log2 := by omega
    have hexponent : 0 - (((52 - n.log2 : ℕ)) : ℤ) = n.log2 - 52 := by omega
    simp only [UnpackedFloat.ofNat, UnpackedFloat.ofInt, UnpackedFloat.normalize, hcompare,
      UnpackedFloat.round, htarget, decreaseExponent, Int.toNat_natCast, hamount, hexponent]
  have hfits : n <<< (52 - n.log2) < 2 ^ 53 := by
    calc n <<< (52 - n.log2)
        = n * 2 ^ (52 - n.log2) := Nat.shiftLeft_eq ..
      _ < 2 ^ (n.log2 + 1) * 2 ^ (52 - n.log2) :=
          Nat.mul_lt_mul_of_pos_right Nat.lt_log2_self (by positivity)
      _ = 2 ^ 53 := by rw [← pow_add, show n.log2 + 1 + (52 - n.log2) = 53 by omega]
  have hne : n <<< (52 - n.log2) ≠ 0 := by
    rw [Nat.shiftLeft_eq]
    positivity
  -- nothing is shifted out, so nothing is rounded
  have hshift : shiftAmount (n <<< (52 - n.log2)) (n.log2 - 52) = 0 := by
    have hbits := (Nat.log2_lt hne).2 hfits
    rw [shiftAmount]
    omega
  have hdigits : roundedDigits (n <<< (52 - n.log2)) (n.log2 - 52) .exact = n <<< (52 - n.log2) := by
    rw [roundedDigits, hshift]
    rfl
  refine ⟨n <<< (52 - n.log2), n.log2 - 52, Nat.pos_of_ne_zero hne, ?_, by omega⟩
  rw [hround, roundWithAccuracy_eq]
  simp only [hdigits, hne, hfits.ne, hshift, dite_false, if_false, Nat.cast_zero, add_zero]

/-! ## Products and quotients -/

section

variable {s₁ s₂ : Sign} {m₁ m₂ : ℕ} {e₁ e₂ : ℤ} {h₁ : 0 < m₁} {h₂ : 0 < m₂}

theorem isFinite_mul_iff (he : e₁ + e₂ ≤ 970) :
    (Float.Model.pack (UnpackedFloat.mul Format.binary64 (.finite s₁ m₁ e₁ h₁)
      (.finite s₂ m₂ e₂ h₂))).isFinite = true ↔
      m₁ * m₂ < (2 ^ 54 - 1) * 2 ^ (970 - (e₁ + e₂)).toNat :=
  isFinite_round_iff _ he

theorem isFinite_div_iff (he : e₁ - e₂ ≤ 970) :
    (Float.Model.pack (UnpackedFloat.div Format.binary64 (.finite s₁ m₁ e₁ h₁)
      (.finite s₂ m₂ e₂ h₂))).isFinite = true ↔
      m₁ < (2 ^ 54 - 1) * 2 ^ (970 - (e₁ - e₂)).toNat * m₂ := by
  have hle : min (e₁ - e₂)
      (Format.binary64.targetExponent (totalExponent m₁ e₁ - totalExponent m₂ e₂)) ≤ e₁ - e₂ :=
    min_le_left _ _
  change (Float.Model.pack (roundWithAccuracy Format.binary64 (s₁ / s₂)
    ((m₁ <<< (e₁ - e₂ - min (e₁ - e₂) _).toNat) / m₂) (min (e₁ - e₂) _) _)).isFinite = true ↔ _
  generalize min (e₁ - e₂) _ = target at hle ⊢
  -- the dividend and the bound are shifted by the same amount
  have hpower : (2 ^ 54 - 1) * 2 ^ (970 - target).toNat * m₂ =
      (2 ^ 54 - 1) * 2 ^ (970 - (e₁ - e₂)).toNat * m₂ * 2 ^ (e₁ - e₂ - target).toNat := by
    rw [show (970 - target).toNat = (970 - (e₁ - e₂)).toNat + (e₁ - e₂ - target).toNat by omega,
      pow_add]
    ring
  rw [isFinite_round_iff _ (by omega), Nat.div_lt_iff_lt_mul h₂, Nat.shiftLeft_eq, hpower,
    Nat.mul_lt_mul_right (by positivity)]

end

end OccurrenceQuery.Number
