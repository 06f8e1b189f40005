/-
The exact values of floating-point numbers. Numbers compare as their values do, a finite number other
than zero is given by its value, and a magnitude of the format keeps its value when it is packed, up to
the infinities.
-/
import OccurrenceQuery.Proofs.Number.Infinity
import OccurrenceQuery.Proofs.Number.Nearest

namespace OccurrenceQuery.Number

open Float.Model Float.Model.UnpackedFloat

/-! ## Unpacked numbers -/

/-- The factor that a sign stands for. -/
def factor : Sign → ℚ
  | .negative => -1
  | .positive => 1

@[simp]
theorem factor_neg (s : Sign) : factor (-s) = -factor s := by
  cases s
  · exact (neg_neg 1).symm
  · rfl

@[simp]
theorem factor_mul (s t : Sign) : factor (s * t) = factor s * factor t := by
  cases s <;> cases t
  · exact ((neg_mul_neg (1 : ℚ) 1).trans (one_mul 1)).symm
  · exact (mul_one (-1 : ℚ)).symm
  · exact (one_mul (-1 : ℚ)).symm
  · exact (one_mul (1 : ℚ)).symm

@[simp]
theorem factor_div (s t : Sign) : factor (s / t) = factor s * factor t :=
  factor_mul s t

/-- The exact value of an unpacked number. The infinities are put beyond all finite numbers. -/
def value : UnpackedFloat → ℚ
  | .infinity s => factor s * limit
  | .notANumber => 0
  | .zero _ => 0
  | .finite s m e _ => factor s * (m * 2 ^ e)

@[simp]
theorem value_zero (s : Sign) : value (.zero s) = 0 := rfl

/-- Whether an unpacked number is a number of the format in its one form. -/
def IsCanonical : UnpackedFloat → Prop
  | .finite _ m e _ => InFormat m e ∧ e ≤ 971
  | _ => True

theorem toNat_implicit {n : ℕ} (mantissa : BitVec n) : (1#1 ++ mantissa).toNat = 2 ^ n + mantissa.toNat := by
  rw [BitVec.toNat_append, ← Nat.shiftLeft_add_eq_or_of_lt mantissa.isLt]
  simp [Nat.shiftLeft_eq]

/-- The parts of a finite number other than zero, from its fields. The implicit bit is set when the field
of the exponent is not zero. -/
theorem fields_of_unpack {bits : BitVec Format.binary64.numBits} {s : Sign} {m : ℕ} {e : ℤ} {h : 0 < m}
    (hbits : UnpackedFloat.unpack Format.binary64 bits = .finite s m e h) :
    s = Sign.ofBitVec (unpackSign bits) ∧
      ((unpackExponent bits).toNat = 0 ∧ m = (unpackMantissa bits).toNat ∧ e = -1074 ∨
        0 < (unpackExponent bits).toNat ∧ m = 2 ^ 52 + (unpackMantissa bits).toNat ∧
          e = (unpackExponent bits).toNat - 1075) := by
  unfold UnpackedFloat.unpack at hbits
  dsimp only at hbits
  split at hbits
  · split at hbits <;> cases hbits
  split at hbits
  · rename_i hzero
    split at hbits
    · cases hbits
    · cases hbits
      rw [hzero]
      exact ⟨rfl, .inl ⟨rfl, rfl, by norm_num [Format.exponentBias]⟩⟩
  · rename_i hpos
    cases hbits
    rw [toNat_implicit]
    refine ⟨rfl, .inr ⟨Nat.pos_of_ne_zero fun heq => hpos (BitVec.eq_of_toNat_eq heq), rfl, ?_⟩⟩
    norm_num [Format.exponentBias]

theorem isCanonical_unpack (x : Float.Model) : IsCanonical x.unpack := by
  cases hunpack : x.unpack with
  | finite s m e h =>
    obtain ⟨hlt, hfield, hle⟩ := of_unpack_eq_finite hunpack
    refine ⟨⟨hlt, by omega, ?_⟩, hle⟩
    rcases (fields_of_unpack hunpack).2 with ⟨-, -, rfl⟩ | ⟨-, rfl, -⟩
    · exact .inr rfl
    · exact .inl (Nat.le_add_right _ _)
  | _ => trivial

/-- A finite number is a zero or a magnitude of the format with its sign. -/
theorem cases_of_isFinite {x : Float} (h : x.isFinite = true) : (∃ s, x.toModel.unpack = .zero s) ∨
    ∃ s m e, ∃ hm : 0 < m, x.toModel.unpack = .finite s m e hm ∧ InFormat m e ∧ e ≤ 971 := by
  have hcanonical := isCanonical_unpack x.toModel
  change x.toModel.unpack.isFinite = true at h
  cases hunpack : x.toModel.unpack with
  | infinity s =>
    rw [hunpack] at h
    cases h
  | notANumber =>
    rw [hunpack] at h
    cases h
  | zero s => exact .inl ⟨s, rfl⟩
  | finite s m e hm =>
    rw [hunpack] at hcanonical
    exact .inr ⟨s, m, e, hm, rfl, hcanonical⟩

/-! ## Order -/

section

variable {a b : UnpackedFloat} {m n : ℕ} {e f : ℤ}

theorem magnitude_pos (hm : 0 < m) (e : ℤ) : (0 : ℚ) < m * 2 ^ e :=
  mul_pos (by exact_mod_cast hm) (two_zpow_pos e)

/-- Of two magnitudes of the format the one with the greater exponent is the greater one. -/
theorem magnitude_lt_of_exponent_lt (hm : InFormat m e) (hn : InFormat n f) (h : e < f) :
    (m : ℚ) * 2 ^ e < n * 2 ^ f := by
  have hlt : (m : ℚ) < 2 ^ 53 := by exact_mod_cast hm.lt
  have hle : (2 : ℚ) ^ 52 ≤ n := by
    have hlow := hm.le
    exact_mod_cast hn.normal.resolve_right (by omega)
  calc (m : ℚ) * 2 ^ e
      < 2 ^ 53 * 2 ^ e := mul_lt_mul_of_pos_right hlt (two_zpow_pos e)
    _ = 2 ^ (e + (53 : ℕ)) := two_pow_mul_zpow 53 e
    _ ≤ 2 ^ (f + (52 : ℕ)) := zpow_le_zpow_right₀ (by norm_num) (by omega)
    _ = 2 ^ 52 * 2 ^ f := (two_pow_mul_zpow 52 f).symm
    _ ≤ n * 2 ^ f := mul_le_mul_of_nonneg_right hle (two_zpow_pos f).le

theorem magnitude_lt (hm : InFormat m e) (hn : InFormat n f) (h : e < f ∨ e = f ∧ m < n) :
    (m : ℚ) * 2 ^ e < n * 2 ^ f := by
  rcases h with h | ⟨rfl, h⟩
  · exact magnitude_lt_of_exponent_lt hm hn h
  · exact mul_lt_mul_of_pos_right (by exact_mod_cast h) (two_zpow_pos e)

theorem magnitude_bounds {s : Sign} {hm : 0 < m} (h : IsCanonical (.finite s m e hm)) :
    (0 : ℚ) < m * 2 ^ e ∧ (m : ℚ) * 2 ^ e < limit :=
  ⟨magnitude_pos hm e, magnitude_lt_limit h.1 h.2⟩

theorem value_lt_of_place_lt (ha : IsCanonical a) (hb : IsCanonical b) (hna : a.isNaN = false)
    (hnb : b.isNaN = false) (h : place a < place b) : value a < value b := by
  have hlimit := limit_pos
  rcases a with ⟨_ | _⟩ | _ | s | ⟨_ | _, m, e, hm⟩ <;>
    rcases b with ⟨_ | _⟩ | _ | t | ⟨_ | _, n, f, hn⟩ <;>
    simp [place, Prod.Lex.toLex_lt_toLex, UnpackedFloat.isNaN] at h hna hnb <;>
    simp only [value, factor]
  · linarith
  · linarith
  · linarith [magnitude_bounds hb]
  · linarith [magnitude_bounds hb]
  · linarith
  · linarith [magnitude_bounds hb]
  · linarith [magnitude_bounds ha]
  · linarith [magnitude_bounds ha]
  · linarith [magnitude_lt hb.1 ha.1 (h.imp_right fun h => ⟨h.1.symm, h.2⟩)]
  · linarith [magnitude_bounds ha, magnitude_bounds hb]
  · linarith [magnitude_bounds ha]
  · linarith [magnitude_lt ha.1 hb.1 h]

theorem value_eq_of_place_eq (hna : a.isNaN = false) (hnb : b.isNaN = false)
    (h : place a = place b) : value a = value b := by
  rcases a with ⟨_ | _⟩ | _ | s | ⟨_ | _, m, e, hm⟩ <;>
    rcases b with ⟨_ | _⟩ | _ | t | ⟨_ | _, n, f, hn⟩ <;>
    simp_all [place, UnpackedFloat.isNaN, value]

theorem place_lt_iff (ha : IsCanonical a) (hb : IsCanonical b) (hna : a.isNaN = false)
    (hnb : b.isNaN = false) : place a < place b ↔ value a < value b := by
  refine ⟨value_lt_of_place_lt ha hb hna hnb, fun h => ?_⟩
  rcases lt_trichotomy (place a) (place b) with hlt | heq | hgt
  · exact hlt
  · exact absurd (value_eq_of_place_eq hna hnb heq) h.ne
  · exact absurd (value_lt_of_place_lt hb ha hnb hna hgt) h.asymm

theorem place_eq_iff (ha : IsCanonical a) (hb : IsCanonical b) (hna : a.isNaN = false)
    (hnb : b.isNaN = false) : place a = place b ↔ value a = value b := by
  refine ⟨value_eq_of_place_eq hna hnb, fun h => ?_⟩
  refine le_antisymm (not_lt.1 fun hlt => ?_) (not_lt.1 fun hlt => ?_)
  · exact absurd h.symm (value_lt_of_place_lt hb ha hnb hna hlt).ne
  · exact absurd h (value_lt_of_place_lt ha hb hna hnb hlt).ne

end

/-! ## Floating-point numbers -/

/-- The exact value of a number. -/
def valueOf (x : Float) : ℚ := value x.toModel.unpack

section

variable {x y : Float}

theorem lt_iff_valueOf_lt (hx : x.isNaN = false) (hy : y.isNaN = false) :
    x < y ↔ valueOf x < valueOf y := by
  rw [lt_iff_place_lt, place_lt_iff (isCanonical_unpack _) (isCanonical_unpack _) hx hy, hx, hy]
  simp [valueOf]

theorem beq_iff_valueOf_eq (hx : x.isNaN = false) (hy : y.isNaN = false) :
    (x == y) = true ↔ valueOf x = valueOf y := by
  have hbeq : (x == y) = true ↔ (x.toModel.unpack.compare y.toModel.unpack == some .eq) = true :=
    Iff.rfl
  rw [hbeq, beq_iff_eq, compare_eq_eq_iff,
    place_eq_iff (isCanonical_unpack _) (isCanonical_unpack _) hx hy]
  simp [valueOf, show x.toModel.unpack.isNaN = false from hx,
    show y.toModel.unpack.isNaN = false from hy]

theorem le_iff_valueOf_le (hx : x.isNaN = false) (hy : y.isNaN = false) :
    x ≤ y ↔ valueOf x ≤ valueOf y := by
  have hnot : ¬ y < x ↔ x ≤ y := by
    rw [not_lt_iff, hx, hy]
    simp
  rw [← hnot, lt_iff_valueOf_lt hy hx, not_lt]

theorem eq_of_unpack_eq (h : x.toModel.unpack = y.toModel.unpack) : x = y :=
  Float.toBits_inj.1 (UInt64.toBitVec_inj.1 ((unpack_inj_of_valid x.toModel.valid y.toModel.valid).1 h))

/-- The value determines a number other than zero. -/
theorem eq_of_valueOf_eq (hx : x.isNaN = false) (hy : y.isNaN = false) (h : valueOf x = valueOf y)
    (hne : valueOf x ≠ 0) : x = y := by
  have hbeq : x.toModel.unpack.beq y.toModel.unpack = true := (beq_iff_valueOf_eq hx hy).2 h
  have hzero : ∀ {s : Sign}, x.toModel.unpack ≠ .zero s := fun hunpack =>
    hne (by rw [valueOf, hunpack]; rfl)
  rcases (beq_iff_ne_notANumber_and_eq _ _).1 hbeq with ⟨-, -, heq | ⟨hunpack, -⟩ | ⟨hunpack, -⟩⟩
  · exact eq_of_unpack_eq heq
  · exact absurd hunpack hzero
  · exact absurd hunpack hzero

theorem valueOf_bounds (x : Float) : -limit ≤ valueOf x ∧ valueOf x ≤ limit := by
  have hlimit := limit_pos
  have hcanonical := isCanonical_unpack x.toModel
  unfold valueOf
  cases hunpack : x.toModel.unpack with
  | infinity s => cases s <;> simp [value, factor] <;> linarith
  | notANumber => simp [value]; linarith
  | zero s => simp [value]; linarith
  | finite s m e h =>
    rw [hunpack] at hcanonical
    have hbounds := magnitude_bounds hcanonical
    cases s <;> simp [value, factor] <;> constructor <;> linarith

end

/-! ## Packing -/

section

variable {s : Sign} {m : ℕ} {e : ℤ} {h : 0 < m}

theorem unpack_packComponents_normal {exponent : BitVec 11} {mantissa : BitVec 52}
    (hm : m = 2 ^ 52 + mantissa.toNat) (he : e = exponent.toNat - 1075) (hpos : exponent ≠ 0#11)
    (hones : exponent ≠ -1#11) :
    UnpackedFloat.unpack Format.binary64 (packComponents Format.binary64 s exponent mantissa) =
      .finite s m e h := by
  unfold UnpackedFloat.unpack
  simp only [unpackExponent_packComponents, unpackMantissa_packComponents, unpackSign_packComponents,
    Sign.ofBitVec_toBitVec, if_neg hones, if_neg hpos]
  congr 1
  · rw [toNat_implicit, hm]
  · rw [he]
    norm_num [Format.exponentBias]

theorem unpack_packComponents_subnormal {mantissa : BitVec 52} (hm : m = mantissa.toNat)
    (he : e = -1074) :
    UnpackedFloat.unpack Format.binary64 (packComponents Format.binary64 s 0#11 mantissa) =
      .finite s m e h := by
  have hne : mantissa ≠ 0#52 := by
    rintro rfl
    simp [hm] at h
  have hones : ¬ 0#11 = -1#11 := by decide
  unfold UnpackedFloat.unpack
  simp only [unpackExponent_packComponents, unpackMantissa_packComponents, unpackSign_packComponents,
    Sign.ofBitVec_toBitVec, if_neg hones, if_true, dif_neg hne]
  congr 1
  · exact hm.symm
  · rw [he]
    norm_num [Format.exponentBias]

/-- A number of the format is unpacked as it was packed. -/
theorem unpack_pack (hformat : InFormat m e) (he : e ≤ 971) :
    (Float.Model.pack (.finite s m e h)).unpack = .finite s m e h := by
  have hlow := hformat.le
  have hfits : ¬ 2 ^ 11 ≤ (e + 1075).toNat + 1 := by omega
  have hfield : (BitVec.ofNat 11 (e + 1075).toNat).toNat = (e + 1075).toNat :=
    Nat.mod_eq_of_lt (by omega)
  show UnpackedFloat.unpack Format.binary64
    (UnpackedFloat.pack Format.binary64 (.finite s m e h)) = .finite s m e h
  unfold UnpackedFloat.pack
  dsimp only
  rw [toNat_biased, if_neg hfits]
  split
  · rename_i hlog
    have hbits : 2 ^ 52 ≤ m := (Nat.le_log2 h.ne').1 (Nat.le_of_eq (Nat.succ_injective hlog).symm)
    have hlt := hformat.lt
    refine unpack_packComponents_normal ?_ ?_ (fun hzero => ?_) fun hones => ?_
    · rw [BitVec.toNat_ofNat]
      omega
    · rw [hfield]
      omega
    · have hnat := congrArg BitVec.toNat hzero
      rw [hfield] at hnat
      simp at hnat
      omega
    · have hnat := congrArg BitVec.toNat hones
      rw [hfield] at hnat
      change (e + 1075).toNat = 2047 at hnat
      omega
  · rename_i hlog
    change ¬ m.log2 + 1 = 53 at hlog
    have hlog' : m.log2 < 53 := (Nat.log2_lt h.ne').2 hformat.lt
    have hsmall : m < 2 ^ 52 := (Nat.log2_lt h.ne').1 (by omega)
    refine unpack_packComponents_subnormal ?_ (hformat.normal.resolve_left (not_le.2 hsmall))
    exact (Nat.mod_eq_of_lt hsmall).symm

theorem unpack_pack_infinity (s : Sign) : (Float.Model.pack (.infinity s)).unpack = .infinity s := by
  cases s <;> rfl

theorem unpack_pack_eq_infinity (he : 971 < e) :
    (Float.Model.pack (.finite s m e h)).unpack = .infinity s := by
  show UnpackedFloat.unpack Format.binary64
    (UnpackedFloat.pack Format.binary64 (.finite s m e h)) = .infinity s
  rw [pack_eq_packedInfinity he]
  exact unpack_pack_infinity s

@[simp]
theorem value_unpack_pack_zero (s : Sign) : value (Float.Model.pack (.zero s)).unpack = 0 := by
  cases s <;> rfl

theorem value_unpack_pack (hformat : InFormat m e) :
    value (Float.Model.pack (.finite s m e h)).unpack = factor s * min ((m : ℚ) * 2 ^ e) limit := by
  rcases le_or_gt e 971 with he | he
  · rw [unpack_pack hformat he, min_eq_left (magnitude_lt_limit hformat he).le]
    rfl
  · rw [unpack_pack_eq_infinity he, min_eq_right (limit_le_magnitude hformat he)]
    rfl

end

theorem valueOf_neg (x : Float) : valueOf (-x) = -valueOf x := by
  have hcanonical := isCanonical_unpack x.toModel
  change value (Float.Model.pack x.toModel.unpack.neg).unpack = -value x.toModel.unpack
  cases hunpack : x.toModel.unpack with
  | infinity s => rw [UnpackedFloat.neg, unpack_pack_infinity, value, value, factor_neg, neg_mul]
  | notANumber => exact neg_zero.symm
  | zero s => simp [UnpackedFloat.neg]
  | finite s m e h =>
    rw [hunpack] at hcanonical
    rw [UnpackedFloat.neg, unpack_pack hcanonical.1 hcanonical.2, value, value, factor_neg, neg_mul]

end OccurrenceQuery.Number
