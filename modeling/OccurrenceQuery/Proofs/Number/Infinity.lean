/-
The ends of the order of floating-point numbers. The two infinities are the least and the greatest
number, and no finite number lies beyond them; a decimal is read as a finite number or as an infinity,
but never as the undefined number.
-/
import OccurrenceQuery.Proofs.Number.Order
import OccurrenceQuery.Proofs.Number.Overflow

namespace OccurrenceQuery.Number

open Float.Model Float.Model.UnpackedFloat

/-! ## Undefined numbers -/

theorem isNaN_of_isFinite {x : Float} (h : x.isFinite = true) : x.isNaN = false := by
  change x.toModel.unpack.isFinite = true at h
  change x.toModel.unpack.isNaN = false
  cases hunpack : x.toModel.unpack with
  | notANumber =>
    rw [hunpack] at h
    cases h
  | _ => rfl

section

variable {s : Sign} {m : ℕ} {e : ℤ} {accuracy : Accuracy}

/-- A magnitude whose exponent is too large is packed as an infinity. -/
theorem pack_eq_packedInfinity {h : 0 < m} (he : 971 < e) :
    UnpackedFloat.pack Format.binary64 (.finite s m e h) = packedInfinity Format.binary64 s := by
  have hlarge : 2 ^ 11 ≤ (e + 1075).toNat + 1 := by omega
  unfold UnpackedFloat.pack
  dsimp only
  rw [toNat_biased]
  exact if_pos hlarge

/-- A magnitude is packed as a number: as itself, or as an infinity. -/
theorem isNaN_pack_finite {h : 0 < m} : (Float.Model.pack (.finite s m e h)).isNaN = false := by
  rcases le_or_gt e 971 with he | he
  · exact isNaN_of_isFinite (x := ⟨_⟩) (isFinite_pack_iff.2 he)
  · show (UnpackedFloat.unpack Format.binary64
      (UnpackedFloat.pack Format.binary64 (.finite s m e h))).isNaN = false
    rw [pack_eq_packedInfinity he]
    cases s <;> rfl

theorem isNaN_pack_zero : (Float.Model.pack (.zero s)).isNaN = false :=
  isNaN_of_isFinite (x := ⟨_⟩) (isFinite_pack_zero s)

theorem isNaN_round :
    (Float.Model.pack (roundWithAccuracy Format.binary64 s m e accuracy)).isNaN = false := by
  rw [roundWithAccuracy_eq]
  split
  · exact isNaN_pack_zero
  · split
    · exact isNaN_pack_finite
    · exact isNaN_pack_finite

end

theorem isNaN_neg (x : Float) : (-x).isNaN = x.isNaN := by
  change (Float.Model.pack x.toModel.unpack.neg).isNaN = x.toModel.unpack.isNaN
  cases x.toModel.unpack with
  | infinity s => cases s <;> rfl
  | notANumber => rfl
  | zero s => exact isNaN_pack_zero
  | finite s m e h => exact isNaN_pack_finite

/-! ## Decimals -/

theorem isNaN_model_ofScientific (m : ℕ) (e : ℤ) :
    (Float.Model.ofScientific m e).isNaN = false := by
  unfold Float.Model.ofScientific UnpackedFloat.ofScientific
  split
  · exact isNaN_pack_zero
  split
  · rfl
  split
  · exact isNaN_pack_zero
  split
  · exact isNaN_round
  · exact isNaN_round

theorem isNaN_ofScientific {m : ℕ} (hpos : 0 < m) (s : Bool) (e : ℕ) :
    (Float.ofScientific m s e).isNaN = false := by
  unfold Float.ofScientific
  split
  · rename_i hshort
    cases s with
    | true => exact isNaN_of_isFinite (isFinite_div_powerOfTen hpos hshort.1 hshort.2 _)
    | false => exact isNaN_of_isFinite (isFinite_mul_powerOfTen hpos hshort.1 hshort.2 _)
  · exact isNaN_model_ofScientific m _

theorem Decimal.isNaN_toFloat (d : Decimal) : d.toFloat.isNaN = false := by
  have hzero : (0.0 : Float).isNaN = false := by decide +kernel
  unfold Decimal.toFloat
  split
  · exact hzero
  rename_i hdigits
  dsimp only
  split
  · decide +kernel
  split
  · exact hzero
  · exact isNaN_ofScientific (Nat.pos_of_ne_zero hdigits) _ _

/-- What a decimal is read as is not undefined. -/
theorem isNaN_readFloat? {n : List Char} {x : Float} (h : Range.HasDecimalForm n)
    (hread : readFloat? n = some x) : x.isNaN = false := by
  obtain ⟨d, -, hd⟩ :=
    readFloat?_of_hasDecimalForm h fun c hc => isNumberLetter_of_readFloat? hread hc
  rw [hread] at hd
  cases hd
  split
  · rw [isNaN_neg, d.isNaN_toFloat]
  · exact d.isNaN_toFloat

/-! ## Infinities -/

theorem isNaN_infinity : infinity.isNaN = false := rfl

theorem isNaN_neg_infinity : (-infinity).isNaN = false := rfl

theorem place_bounds {a : UnpackedFloat} (h : a.isNaN = false) :
    place (.infinity .negative) ≤ place a ∧ place a ≤ place (.infinity .positive) := by
  rcases a with ⟨_ | _⟩ | _ | s | ⟨_ | _, m, e, hm⟩ <;>
    simp [place, Prod.Lex.toLex_le_toLex, UnpackedFloat.isNaN] at h ⊢

theorem place_bounds_of_isFinite {a : UnpackedFloat} (h : a.isFinite = true) :
    place (.infinity .negative) < place a ∧ place a < place (.infinity .positive) := by
  rcases a with ⟨_ | _⟩ | _ | s | ⟨_ | _, m, e, hm⟩ <;>
    simp [place, Prod.Lex.toLex_lt_toLex, UnpackedFloat.isFinite] at h ⊢

variable {x y z : Float}

protected theorem le_trans (hxy : x ≤ y) (hyz : y ≤ z) : x ≤ z := by
  obtain ⟨hx, -, hle⟩ := le_iff_place_le.1 hxy
  obtain ⟨-, hz, hle'⟩ := le_iff_place_le.1 hyz
  exact le_iff_place_le.2 ⟨hx, hz, hle.trans hle'⟩

theorem neg_infinity_le (h : x.isNaN = false) : -infinity ≤ x :=
  le_iff_place_le.2 ⟨isNaN_neg_infinity, h, (place_bounds h).1⟩

theorem le_infinity (h : x.isNaN = false) : x ≤ infinity :=
  le_iff_place_le.2 ⟨h, isNaN_infinity, (place_bounds h).2⟩

theorem not_le_neg_infinity (h : x.isFinite = true) : ¬ x ≤ -infinity := fun hle =>
  absurd (le_iff_place_le.1 hle).2.2 (not_le.2 (place_bounds_of_isFinite h).1)

theorem not_infinity_le (h : x.isFinite = true) : ¬ infinity ≤ x := fun hle =>
  absurd (le_iff_place_le.1 hle).2.2 (not_le.2 (place_bounds_of_isFinite h).2)

end OccurrenceQuery.Number
