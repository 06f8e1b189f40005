/-
Sums of numbers that are not negative. No summand is lost altogether: a positive number plus one that is
zero or positive is positive after rounding, so such a sum is zero only when every summand is.
-/
import OccurrenceQuery.Geometry.Segment
import OccurrenceQuery.Proofs.Number.Rounding

namespace OccurrenceQuery.Number

open Float.Model Float.Model.UnpackedFloat

/-! ## Signs -/

/-- Whether an unpacked number is greater than zero. -/
def isPositive : UnpackedFloat → Bool
  | .infinity .positive | .finite .positive .. => true
  | _ => false

/-- Whether an unpacked number is one of the two zeros. -/
def isZero : UnpackedFloat → Bool
  | .zero _ => true
  | _ => false

theorem exists_unpack_zero : ∃ s, (0.0 : Float).toModel.unpack = .zero s := by
  have hzero : isZero (0.0 : Float).toModel.unpack = true := by decide +kernel
  cases hunpack : (0.0 : Float).toModel.unpack with
  | zero s => exact ⟨s, rfl⟩
  | _ => rw [hunpack] at hzero; cases hzero

theorem zero_lt_iff {x : Float} : 0.0 < x ↔ isPositive x.toModel.unpack = true := by
  have hlt : 0.0 < x ↔ (0.0 : Float).toModel.unpack.lt x.toModel.unpack = true :=
    decide_eq_true_iff
  obtain ⟨s, hzero⟩ := exists_unpack_zero
  rw [hlt, hzero]
  cases x.toModel.unpack with
  | infinity t => cases t <;> exact Iff.rfl
  | notANumber => exact Iff.rfl
  | zero t => exact Iff.rfl
  | finite t m e h => cases t <;> exact Iff.rfl

theorem beq_zero_iff {x : Float} : (x == 0.0) = true ↔ isZero x.toModel.unpack = true := by
  have hbeq : (x == 0.0) = x.toModel.unpack.beq (0.0 : Float).toModel.unpack := rfl
  obtain ⟨s, hzero⟩ := exists_unpack_zero
  rw [hbeq, hzero]
  cases x.toModel.unpack with
  | infinity t => cases t <;> exact Iff.rfl
  | notANumber => exact Iff.rfl
  | zero t => exact Iff.rfl
  | finite t m e h => cases t <;> exact Iff.rfl

theorem zero_le_iff {x : Float} : 0.0 ≤ x ↔
    isZero x.toModel.unpack = true ∨ isPositive x.toModel.unpack = true := by
  have hle : 0.0 ≤ x ↔ (0.0 : Float).toModel.unpack.le x.toModel.unpack = true :=
    decide_eq_true_iff
  obtain ⟨s, hzero⟩ := exists_unpack_zero
  rw [hle, hzero, ← Bool.or_eq_true]
  cases x.toModel.unpack with
  | infinity t => cases t <;> exact Iff.rfl
  | notANumber => exact Iff.rfl
  | zero t => exact Iff.rfl
  | finite t m e h => cases t <;> exact Iff.rfl

/-! ## Rounding -/

section

variable {m : ℕ} {e : ℤ}

/-- At an exponent of the format no more bits are shifted out than stand behind the first one. -/
theorem shiftAmount_le_log2 (he : -1074 ≤ e) : shiftAmount m e ≤ m.log2 := by
  rw [shiftAmount]
  omega

theorem roundedDigits_pos {accuracy : Accuracy} (hm : 0 < m) (he : -1074 ≤ e) :
    0 < roundedDigits m e accuracy := by
  refine lt_of_lt_of_le (Nat.div_pos ?_ (by positivity)) div_le_roundedDigits
  exact (Nat.pow_le_pow_right (by norm_num) (shiftAmount_le_log2 he)).trans
    (Nat.log2_self_le hm.ne')

/-- Fields that are not both zero stand for a number above zero. -/
theorem isPositive_unpack_packComponents {exponent : BitVec Format.binary64.exponentBits}
    {mantissa : BitVec Format.binary64.mantissaBitsWithoutImplicit} (hones : exponent ≠ -1#_)
    (hne : exponent ≠ 0#_ ∨ mantissa ≠ 0#_) :
    isPositive (UnpackedFloat.unpack Format.binary64
      (packComponents Format.binary64 .positive exponent mantissa)) = true := by
  unfold UnpackedFloat.unpack
  simp only [unpackExponent_packComponents, unpackMantissa_packComponents,
    unpackSign_packComponents, if_neg hones]
  split
  · rename_i hzero
    rw [dif_neg (hne.resolve_left (not_not_intro hzero))]
    rfl
  · rfl

/-- A magnitude of the format is not packed as a zero. -/
theorem isPositive_unpack_pack (hm : 0 < m) (hlarge : m < 2 ^ 53) (he : -1074 ≤ e) :
    isPositive (Float.Model.pack (.finite .positive m e hm)).unpack = true := by
  show isPositive (UnpackedFloat.unpack Format.binary64
    (UnpackedFloat.pack Format.binary64 (.finite .positive m e hm))) = true
  unfold UnpackedFloat.pack
  dsimp only
  rw [toNat_biased]
  split
  · decide
  · rename_i hfits
    change ¬ 2 ^ 11 ≤ (e + 1075).toNat + 1 at hfits
    have hfield : (BitVec.ofNat 11 (e + 1075).toNat).toNat = (e + 1075).toNat :=
      Nat.mod_eq_of_lt (by omega)
    split
    · apply isPositive_unpack_packComponents
      · intro hones
        have hnat := congrArg BitVec.toNat hones
        change (BitVec.ofNat 11 (e + 1075).toNat).toNat = 2047 at hnat
        omega
      · refine .inl fun hzero => ?_
        have hnat := congrArg BitVec.toNat hzero
        change (BitVec.ofNat 11 (e + 1075).toNat).toNat = 0 at hnat
        omega
    · rename_i hlog
      change ¬ m.log2 + 1 = 53 at hlog
      have hlog' : m.log2 < 53 := (Nat.log2_lt hm.ne').2 hlarge
      have hsmall : m < 2 ^ 52 := (Nat.log2_lt hm.ne').1 (by omega)
      apply isPositive_unpack_packComponents (by decide)
      refine .inr fun hzero => hm.ne' ?_
      have hnat := congrArg BitVec.toNat hzero
      change m % 2 ^ 52 = 0 at hnat
      rwa [Nat.mod_eq_of_lt hsmall] at hnat

/-- A magnitude above zero is not rounded to zero. -/
theorem isPositive_round (hm : 0 < m) (he : -1074 ≤ e) :
    isPositive (Float.Model.pack (UnpackedFloat.round Format.binary64 .positive m e)).unpack = true := by
  unfold UnpackedFloat.round decreaseExponent
  dsimp only
  generalize hk : (e - Format.binary64.targetExponent (totalExponent m e)).toNat = k
  have hlow : -1074 ≤ e - k := by
    simp only [Format.targetExponent, Format.minExponent, Format.mantissaBits] at hk
    omega
  have hpos : 0 < m <<< k := by
    rw [Nat.shiftLeft_eq]
    positivity
  have hdigits : 0 < roundedDigits (m <<< k) (e - k) .exact := roundedDigits_pos hpos hlow
  rw [roundWithAccuracy_eq, dif_neg hdigits.ne']
  split
  · exact isPositive_unpack_pack _ (by norm_num) (by omega)
  · rename_i hne
    have hle : roundedDigits (m <<< k) (e - k) .exact ≤ 2 ^ 53 := roundedDigits_le
    exact isPositive_unpack_pack _ (lt_of_le_of_ne hle hne) (by omega)

end

/-! ## Sums -/

theorem unpack_add (x y : Float) : (x + y).toModel.unpack =
    (Float.Model.pack (UnpackedFloat.add Format.binary64 x.toModel.unpack y.toModel.unpack)).unpack :=
  rfl

theorem isZero_unpack_pack_zero (s : Sign) : isZero (Float.Model.pack (.zero s)).unpack = true := by
  cases s <;> decide

/-- The numbers that are not negative: zeros, the infinity and positive magnitudes of the format. -/
theorem cases_of_zero_le {x : Float} (hx : 0.0 ≤ x) : (∃ s, x.toModel.unpack = .zero s) ∨
    x.toModel.unpack = .infinity .positive ∨
    ∃ m e h, x.toModel.unpack = .finite .positive m e h ∧ m < 2 ^ 53 ∧ -1074 ≤ e := by
  rw [zero_le_iff] at hx
  cases hunpack : x.toModel.unpack with
  | zero s => exact .inl ⟨s, rfl⟩
  | notANumber => simp [hunpack, isZero, isPositive] at hx
  | infinity s =>
    cases s with
    | positive => exact .inr (.inl rfl)
    | negative => simp [hunpack, isZero, isPositive] at hx
  | finite s m e h =>
    cases s with
    | negative => simp [hunpack, isZero, isPositive] at hx
    | positive =>
      obtain ⟨hm, hfield, -⟩ := of_unpack_eq_finite hunpack
      exact .inr (.inr ⟨m, e, h, rfl, hm, by omega⟩)

theorem add_beq_zero {x y : Float} (hx : (x == 0.0) = true) (hy : (y == 0.0) = true) :
    (x + y == 0.0) = true := by
  rw [beq_zero_iff] at hx hy ⊢
  rw [unpack_add]
  cases hux : x.toModel.unpack with
  | zero s =>
    cases huy : y.toModel.unpack with
    | zero t => cases s <;> cases t <;> exact isZero_unpack_pack_zero _
    | _ => rw [huy] at hy; cases hy
  | _ => rw [hux] at hx; cases hx

/-- The sum of two magnitudes above zero, at the lesser of their exponents. -/
theorem isPositive_add_finite {m n : ℕ} {e f : ℤ} (hm : 0 < m) (hn : 0 < n) (he : -1074 ≤ e)
    (hf : -1074 ≤ f) : isPositive (Float.Model.pack (UnpackedFloat.add Format.binary64
      (.finite .positive m e hm) (.finite .positive n f hn))).unpack = true := by
  simp only [UnpackedFloat.add, decreaseExponent, Sign.apply, Nat.shiftLeft_eq]
  generalize (e - min e f).toNat = k
  generalize (f - min e f).toNat = l
  have hsum : 0 < m * 2 ^ k + n * 2 ^ l := by positivity
  have hcompare : compare ((m * 2 ^ k : ℕ) + (n * 2 ^ l : ℕ) : ℤ) 0 = .gt :=
    compare_gt_iff_gt.2 (by exact_mod_cast hsum)
  rw [UnpackedFloat.normalize, hcompare, ← Nat.cast_add, Int.toNat_natCast]
  exact isPositive_round hsum (le_min he hf)

/-- A sum of two numbers that are not negative is positive when one of them is. -/
theorem add_pos {x y : Float} (hx : 0.0 ≤ x) (hy : 0.0 ≤ y) (h : 0.0 < x ∨ 0.0 < y) :
    0.0 < x + y := by
  have hinfinity : isPositive (Float.Model.pack (.infinity .positive)).unpack = true := by decide
  rw [zero_lt_iff, zero_lt_iff] at h
  rw [zero_lt_iff, unpack_add]
  rcases cases_of_zero_le hx with ⟨s, hux⟩ | hux | ⟨m, e, hm, hux, hlarge, he⟩ <;>
    rcases cases_of_zero_le hy with ⟨t, huy⟩ | huy | ⟨n, f, hn, huy, hlarge', hf⟩ <;>
    rw [hux, huy] at h ⊢
  · simp [isPositive] at h
  · exact hinfinity
  · exact isPositive_unpack_pack hn hlarge' hf
  · exact hinfinity
  · exact hinfinity
  · exact hinfinity
  · exact isPositive_unpack_pack hm hlarge he
  · exact hinfinity
  · exact isPositive_add_finite hm hn he hf

/-! ## Numbers that are not negative -/

theorem zero_le_cases {x : Float} : 0.0 ≤ x ↔ (x == 0.0) = true ∨ 0.0 < x := by
  rw [zero_le_iff, beq_zero_iff, zero_lt_iff]

theorem beq_zero_eq_false {x : Float} (h : 0.0 < x) : (x == 0.0) = false := by
  rw [Bool.eq_false_iff, ne_eq, beq_zero_iff]
  rw [zero_lt_iff] at h
  cases hunpack : x.toModel.unpack with
  | zero s => simp [hunpack, isPositive] at h
  | _ => simp [isZero]

end OccurrenceQuery.Number
