/-
The numbers that overflow. A decimal is read as a finite number if and only if its value is below the
bound at which rounding ends in an infinity, whatever the number of its digits.
-/
import OccurrenceQuery.Proofs.Number.Magnitude
import OccurrenceQuery.Proofs.Number.Rounding

namespace OccurrenceQuery.Number

open OccurrenceQuery.Text Float.Model Float.Model.UnpackedFloat

/-- The least magnitude that is rounded to an infinity: half a unit in the last place above the
greatest finite number. -/
def overflowBound : ℕ := (2 ^ 54 - 1) * 2 ^ 970

theorem two_pow_le_overflowBound {n : ℕ} (hn : n ≤ 1023) : 2 ^ n ≤ overflowBound := by
  rw [overflowBound]
  calc 2 ^ n
      ≤ 2 ^ (53 + 970) := Nat.pow_le_pow_right (by norm_num) (by omega)
    _ = 2 ^ 53 * 2 ^ 970 := pow_add 2 53 970
    _ ≤ (2 ^ 54 - 1) * 2 ^ 970 := Nat.mul_le_mul_right _ (by norm_num)

theorem overflowBound_pos : 0 < overflowBound :=
  (two_pow_le_overflowBound (Nat.zero_le 1023)).trans_lt' one_pos

theorem overflowBound_le_two_pow {n : ℕ} (hn : 1024 ≤ n) : overflowBound ≤ 2 ^ n := by
  obtain ⟨k, rfl⟩ : ∃ k, n = 54 + (970 + k) := ⟨n - 1024, by omega⟩
  rw [overflowBound, pow_add, pow_add 2 970 k]
  exact Nat.mul_le_mul (by norm_num) (Nat.le_mul_of_pos_right _ (by positivity))

/-! ## Powers of ten -/

/-- The powers of ten that are floating-point numbers themselves are finite and of moderate size. -/
theorem exists_powerOfTen_eq {k : ℕ} (hk : k ≤ 22)
    (hsize : k < Float.exactlyRepresentablePowersOfTen.size) :
    ∃ s m e, ∃ h : 0 < m, Float.exactlyRepresentablePowersOfTen[k].toModel.unpack = .finite s m e h ∧
      m < 2 ^ 53 ∧ -52 ≤ e ∧ e ≤ 21 := by
  have hall : ∀ i : Fin 23, (match Float.exactlyRepresentablePowersOfTen[i].toModel.unpack with
      | .finite _ m e _ => decide (m < 2 ^ 53 ∧ -52 ≤ e ∧ e ≤ 21)
      | _ => false) = true := by
    decide +kernel
  have hpower := hall ⟨k, by omega⟩
  simp only [Fin.getElem_fin] at hpower
  split at hpower
  · rename_i s m e h heq
    exact ⟨s, m, e, h, heq, of_decide_eq_true hpower⟩
  · cases hpower

/-! ## Decimals -/

section

variable {m k : ℕ}

theorem unpack_toFloat_cases (hpos : 0 < m) (hm : m < 2 ^ 53) :
    (∃ s, m.toUInt64.toFloat.toModel.unpack = .zero s) ∨
      ∃ s m' e, ∃ h : 0 < m', m.toUInt64.toFloat.toModel.unpack = .finite s m' e h ∧
        m' < 2 ^ 53 ∧ e ≤ 0 := by
  obtain ⟨m', e', h', hnat, he'⟩ := exists_ofNat_eq hpos hm
  have hcode : m.toUInt64.toNat = m := Nat.mod_eq_of_lt (by omega)
  have hmodel : m.toUInt64.toFloat.toModel = Float.Model.pack (.finite .positive m' e' h') := by
    rw [← hnat]
    exact congrArg (fun n => Float.Model.pack (UnpackedFloat.ofNat Format.binary64 n)) hcode
  have hfinite : m.toUInt64.toFloat.toModel.unpack.isFinite = true := by
    rw [hmodel]
    exact isFinite_pack_iff.2 (by omega)
  cases hunpack : m.toUInt64.toFloat.toModel.unpack with
  | infinity s =>
    rw [hunpack] at hfinite
    cases hfinite
  | notANumber =>
    rw [hunpack] at hfinite
    cases hfinite
  | zero s => exact .inl ⟨s, rfl⟩
  | finite s m₁ e₁ h₁ =>
    obtain ⟨hm₁, -, -⟩ := of_unpack_eq_finite hunpack
    rw [hmodel] at hunpack
    have he₁ := exponent_le_of_unpack_pack hunpack
    exact .inr ⟨s, m₁, e₁, h₁, rfl, hm₁, by omega⟩

/-- A short number times a short power of ten is finite. -/
theorem isFinite_mul_powerOfTen (hpos : 0 < m) (hm : m < 2 ^ 53) (hk : k ≤ 22)
    (hsize : k < Float.exactlyRepresentablePowersOfTen.size) :
    (m.toUInt64.toFloat * Float.exactlyRepresentablePowersOfTen[k]).isFinite = true := by
  obtain ⟨s₂, m₂, e₂, h₂, hpower, hm₂, hlow, hhigh⟩ := exists_powerOfTen_eq hk hsize
  change (Float.Model.pack (UnpackedFloat.mul Format.binary64 m.toUInt64.toFloat.toModel.unpack
    Float.exactlyRepresentablePowersOfTen[k].toModel.unpack)).isFinite = true
  rw [hpower]
  rcases unpack_toFloat_cases hpos hm with ⟨s, hzero⟩ | ⟨s₁, m₁, e₁, h₁, hunpack, hm₁, he₁⟩
  · rw [hzero]
    exact isFinite_pack_zero (s * s₂)
  · rw [hunpack, isFinite_mul_iff (by omega)]
    calc m₁ * m₂
        < 2 ^ 53 * 2 ^ 53 := Nat.mul_lt_mul'' hm₁ hm₂
      _ ≤ (2 ^ 54 - 1) * 2 ^ 53 := by norm_num
      _ ≤ (2 ^ 54 - 1) * 2 ^ (970 - (e₁ + e₂)).toNat :=
          Nat.mul_le_mul_left _ (Nat.pow_le_pow_right (by norm_num) (by omega))

/-- A short number over a short power of ten is finite. -/
theorem isFinite_div_powerOfTen (hpos : 0 < m) (hm : m < 2 ^ 53) (hk : k ≤ 22)
    (hsize : k < Float.exactlyRepresentablePowersOfTen.size) :
    (m.toUInt64.toFloat / Float.exactlyRepresentablePowersOfTen[k]).isFinite = true := by
  obtain ⟨s₂, m₂, e₂, h₂, hpower, -, hlow, hhigh⟩ := exists_powerOfTen_eq hk hsize
  change (Float.Model.pack (UnpackedFloat.div Format.binary64 m.toUInt64.toFloat.toModel.unpack
    Float.exactlyRepresentablePowersOfTen[k].toModel.unpack)).isFinite = true
  rw [hpower]
  rcases unpack_toFloat_cases hpos hm with ⟨s, hzero⟩ | ⟨s₁, m₁, e₁, h₁, hunpack, hm₁, he₁⟩
  · rw [hzero]
    exact isFinite_pack_zero (s / s₂)
  · rw [hunpack, isFinite_div_iff (by omega)]
    calc m₁
        < (2 ^ 54 - 1) * 1 * 1 := hm₁.trans_le (by norm_num)
      _ ≤ (2 ^ 54 - 1) * 2 ^ (970 - (e₁ - e₂)).toNat * m₂ :=
          Nat.mul_le_mul (Nat.mul_le_mul_left _ Nat.one_le_two_pow) h₂

theorem lt_overflowBound_mul (hm : m < 2 ^ 53) (k : ℕ) : m < overflowBound * 10 ^ k :=
  calc m
      < 2 ^ 53 := hm
    _ ≤ overflowBound := two_pow_le_overflowBound (by norm_num)
    _ ≤ overflowBound * 10 ^ k := Nat.le_mul_of_pos_right _ (by positivity)

theorem mul_lt_overflowBound (hm : m < 2 ^ 53) (hk : k ≤ 22) : m * 10 ^ k < overflowBound :=
  calc m * 10 ^ k
      ≤ m * 10 ^ 22 := Nat.mul_le_mul_left m (Nat.pow_le_pow_right (by norm_num) hk)
    _ < 2 ^ 53 * 10 ^ 22 := Nat.mul_lt_mul_of_pos_right hm (by positivity)
    _ ≤ 2 ^ 127 := by norm_num
    _ ≤ overflowBound := two_pow_le_overflowBound (by norm_num)

/-- The model of a decimal is finite if and only if the decimal is below the bound. -/
theorem isFinite_model_ofScientific_iff (hpos : 0 < m) (e : ℤ) :
    (Float.Model.ofScientific m e).isFinite = true ↔
      m * 10 ^ e.toNat < overflowBound * 10 ^ (-e).toNat := by
  unfold Float.Model.ofScientific UnpackedFloat.ofScientific
  rw [dif_neg hpos.ne']
  split
  · rename_i hlarge
    have hexponent : 1024 ≤ e.toNat := by
      change e > 2048 at hlarge
      omega
    have hbound : overflowBound ≤ m * 10 ^ e.toNat :=
      calc overflowBound
          ≤ 2 ^ e.toNat := overflowBound_le_two_pow hexponent
        _ ≤ 10 ^ e.toNat := Nat.pow_le_pow_left (by norm_num) _
        _ ≤ m * 10 ^ e.toNat := Nat.le_mul_of_pos_left _ hpos
    have hone : (-e).toNat = 0 := by omega
    rw [hone, pow_zero, mul_one]
    exact iff_of_false (by decide) hbound.not_gt
  split
  · rename_i hsmall
    have hexponent : m.log2 + 1 ≤ (-e).toNat := by
      change e < -(2048 + (m.log2 : ℤ)) at hsmall
      omega
    have hone : e.toNat = 0 := by omega
    rw [hone, pow_zero, mul_one]
    refine iff_of_true (isFinite_pack_zero .positive) ?_
    calc m
        < 2 ^ (m.log2 + 1) := Nat.lt_log2_self
      _ ≤ 2 ^ (-e).toNat := Nat.pow_le_pow_right (by norm_num) hexponent
      _ ≤ 10 ^ (-e).toNat := Nat.pow_le_pow_left (by norm_num) _
      _ ≤ overflowBound * 10 ^ (-e).toNat :=
          Nat.le_mul_of_pos_left _ overflowBound_pos
  split
  · rename_i hsign
    have hone : (-e).toNat = 0 := by omega
    have hshifted : m * 2 ^ 53 * 10 ^ e.toNat = m * 10 ^ e.toNat * 2 ^ 53 := by ring
    have hbits : Format.binary64.mantissaBits = 53 := rfl
    rw [isFinite_mul_iff (by decide), hone, pow_zero, mul_one, Nat.shiftLeft_eq, hbits, hshifted,
      show (970 - (-((53 : ℕ) : ℤ) + 0)).toNat = 970 + 53 from rfl, pow_add, ← mul_assoc,
      ← overflowBound, Nat.mul_lt_mul_right (by positivity)]
  · rename_i hsign
    have hone : e.toNat = 0 := by omega
    rw [isFinite_div_iff (by decide), hone, pow_zero, mul_one, overflowBound,
      show (970 - ((0 : ℤ) - 0)).toNat = 970 from rfl]

/-- An exponent is its magnitude with its sign. -/
theorem exponent_of_sign (e : ℤ) :
    (if decide (e < 0) = true then Int.negOfNat e.natAbs else Int.ofNat e.natAbs) = e := by
  split
  · rename_i hsign
    rw [Int.negOfNat_eq, Int.ofNat_eq_natCast]
    have hnegative := of_decide_eq_true hsign
    omega
  · rename_i hsign
    have hpositive : ¬e < 0 := fun hnegative => hsign (decide_eq_true hnegative)
    rw [Int.ofNat_eq_natCast]
    omega

theorem isFinite_ofScientific_iff (hpos : 0 < m) (e : ℤ) :
    (Float.ofScientific m (decide (e < 0)) e.natAbs).isFinite = true ↔
      m * 10 ^ e.toNat < overflowBound * 10 ^ (-e).toNat := by
  unfold Float.ofScientific
  split
  · rename_i hshort
    by_cases hsign : e < 0
    · have hone : e.toNat = 0 := by omega
      rw [decide_eq_true hsign, hone, pow_zero, mul_one]
      exact iff_of_true (isFinite_div_powerOfTen hpos hshort.1 hshort.2 _)
        (lt_overflowBound_mul hshort.1 _)
    · have hone : (-e).toNat = 0 := by omega
      have hsize : e.toNat ≤ 22 := by omega
      rw [decide_eq_false hsign, hone, pow_zero, mul_one]
      exact iff_of_true (isFinite_mul_powerOfTen hpos hshort.1 hshort.2 _)
        (mul_lt_overflowBound hshort.1 hsize)
  · rw [exponent_of_sign]
    exact isFinite_model_ofScientific_iff hpos e

end

namespace Decimal

theorem value_lt_iff (d : Decimal) : d.value < overflowBound ↔
    d.digits * 10 ^ d.exponent.toNat < overflowBound * 10 ^ (-d.exponent).toNat := by
  rw [value, zpow_eq_div (by norm_num), mul_div_assoc', div_lt_iff₀ (by positivity)]
  exact_mod_cast Iff.rfl

/-- A number of more than 310 places in front of the point is beyond the bound. -/
theorem le_value_of_place {d : Decimal} (hpos : d.digits ≠ 0)
    (hplace : 310 < (numeral d.digits).length + d.exponent) :
    overflowBound * 10 ^ (-d.exponent).toNat ≤ d.digits * 10 ^ d.exponent.toNat := by
  obtain ⟨width, hwidth⟩ : ∃ width, (numeral d.digits).length = width + 1 :=
    Nat.exists_eq_succ_of_ne_zero Nat.length_toDigits_pos.ne'
  have hdigits : 10 ^ width ≤ d.digits := by
    rcases Nat.eq_zero_or_pos width with rfl | hwidthPos
    · exact Nat.one_le_iff_ne_zero.2 hpos
    · by_contra hless
      have hle := (length_numeral_le_iff hwidthPos).2 (not_le.1 hless)
      omega
  have hbound : overflowBound ≤ 10 ^ 310 :=
    (overflowBound_le_two_pow le_rfl).trans (by decide +kernel)
  calc overflowBound * 10 ^ (-d.exponent).toNat
      ≤ 10 ^ 310 * 10 ^ (-d.exponent).toNat := Nat.mul_le_mul_right _ hbound
    _ = 10 ^ (310 + (-d.exponent).toNat) := (pow_add ..).symm
    _ ≤ 10 ^ (width + d.exponent.toNat) := Nat.pow_le_pow_right (by norm_num) (by omega)
    _ = 10 ^ width * 10 ^ d.exponent.toNat := pow_add ..
    _ ≤ d.digits * 10 ^ d.exponent.toNat := Nat.mul_le_mul_right _ hdigits

/-- A number of less than minus 400 places in front of the point is far below the bound. -/
theorem value_lt_of_place {d : Decimal} (hplace : (numeral d.digits).length + d.exponent < -400) :
    d.digits * 10 ^ d.exponent.toNat < overflowBound * 10 ^ (-d.exponent).toNat := by
  have hone : d.exponent.toNat = 0 := by omega
  have hdigits := (length_numeral_le_iff (n := d.digits) Nat.length_toDigits_pos).1 le_rfl
  rw [hone, pow_zero, mul_one]
  calc d.digits
      < 10 ^ (numeral d.digits).length := hdigits
    _ ≤ 10 ^ (-d.exponent).toNat := Nat.pow_le_pow_right (by norm_num) (by omega)
    _ ≤ overflowBound * 10 ^ (-d.exponent).toNat := Nat.le_mul_of_pos_left _ overflowBound_pos

/-- A decimal is read as a finite number if and only if its value is below the bound. -/
theorem isFinite_toFloat_iff (d : Decimal) : d.toFloat.isFinite = true ↔ d.value < overflowBound := by
  have hzero : (0.0 : Float).isFinite = true := by decide +kernel
  have hinfinity : infinity.isFinite = false := by decide +kernel
  rw [value_lt_iff]
  unfold toFloat
  split
  · rename_i hdigits
    refine iff_of_true hzero ?_
    rw [hdigits, zero_mul]
    exact Nat.mul_pos overflowBound_pos (by positivity)
  rename_i hdigits
  dsimp only
  split
  · rename_i hplace
    rw [hinfinity]
    exact iff_of_false Bool.false_ne_true (le_value_of_place hdigits hplace).not_gt
  split
  · rename_i hplace
    exact iff_of_true hzero (value_lt_of_place hplace)
  · exact isFinite_ofScientific_iff (Nat.pos_of_ne_zero hdigits) d.exponent

end Decimal

/-! ## Texts -/

theorem isFinite_neg (x : Float) : (-x).isFinite = x.isFinite := by
  change (Float.Model.pack x.toModel.unpack.neg).isFinite = x.toModel.unpack.isFinite
  cases hunpack : x.toModel.unpack with
  | infinity s => cases s <;> decide
  | notANumber => decide
  | zero s => exact isFinite_pack_zero (-s)
  | finite s m e h => exact isFinite_pack_iff.2 (of_unpack_eq_finite hunpack).2.2

/-- A number between two finite numbers is finite; with one that is undefined no number compares. -/
theorem isFinite_of_between {a b x : Float} (ha : a.isFinite = true) (hb : b.isFinite = true)
    (hax : a ≤ x) (hxb : x ≤ b) : x.isFinite = true := by
  have hlower : a.toModel.unpack.le x.toModel.unpack = true := of_decide_eq_true hax
  have hupper : x.toModel.unpack.le b.toModel.unpack = true := of_decide_eq_true hxb
  change a.toModel.unpack.isFinite = true at ha
  change b.toModel.unpack.isFinite = true at hb
  change x.toModel.unpack.isFinite = true
  generalize a.toModel.unpack = low at ha hlower
  generalize b.toModel.unpack = high at hb hupper
  cases hx : x.toModel.unpack with
  | zero s => rfl
  | finite s m e h => rfl
  | notANumber =>
    rw [hx] at hupper
    cases hupper
  | infinity s =>
    rw [hx] at hlower hupper
    cases s with
    | positive =>
      cases high with
      | infinity s => cases hb
      | notANumber => cases hb
      | zero s => cases hupper
      | finite s m e h => cases hupper
    | negative =>
      cases low with
      | infinity s => cases ha
      | notANumber => cases ha
      | zero s => cases hlower
      | finite s m e h => cases hlower

/-- A decimal in ASCII digits is read as a finite number if and only if its magnitude is below the
bound. -/
theorem isFinite_readFloat?_iff {n : List Char} {x : Float} (h : Range.HasDecimalForm n)
    (hread : readFloat? n = some x) : x.isFinite = true ↔ magnitude n < overflowBound := by
  obtain ⟨d, hvalue, hd⟩ :=
    readFloat?_of_hasDecimalForm h fun c hc => isNumberLetter_of_readFloat? hread hc
  rw [← hvalue, ← d.isFinite_toFloat_iff]
  rw [hread] at hd
  cases hd
  split
  · rw [isFinite_neg]
  · rfl

/-- A numeral of 310 digits or more is past the bound, unless it starts with a zero. -/
theorem overflowBound_le_magnitude {c : Char} {rest : List Char}
    (hdigits : ∀ d ∈ c :: rest, d.isDigit = true) (hc : c ≠ '0') (hlength : 309 ≤ rest.length) :
    (overflowBound : ℚ) ≤ magnitude (c :: rest) := by
  have hpos : 1 ≤ numeralValue [c] := by
    obtain ⟨hvalue, -⟩ := toNat_of_isDigit (hdigits c List.mem_cons_self)
    have hne : c.toNat ≠ 48 := fun h => hc (Char.toNat_inj.1 h)
    show 1 ≤ 10 * 0 + digitValue c
    omega
  have hbound : overflowBound ≤ numeralValue (c :: rest) := by
    calc overflowBound
        ≤ 2 ^ 1024 := overflowBound_le_two_pow le_rfl
      _ ≤ 10 ^ 309 := by decide +kernel
      _ ≤ 10 ^ rest.length := by gcongr; norm_num
      _ ≤ 10 ^ rest.length * numeralValue [c] := Nat.le_mul_of_pos_right _ hpos
      _ ≤ numeralValue ([c] ++ rest) := by
        rw [numeralValue_append]
        exact Nat.le_add_right _ _
  rw [magnitude_of_isDigit hdigits]
  exact Nat.cast_le.2 hbound

end OccurrenceQuery.Number
