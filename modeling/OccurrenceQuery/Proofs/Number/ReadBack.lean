/-
Numbers survive their text. The text of a finite number is read as that number, the sign of a zero
included: the digits that are laid out lie between the midpoints to the neighbours of the number, and
reading rounds correctly.
-/
import OccurrenceQuery.Proofs.Number.Digits
import OccurrenceQuery.Proofs.Number.Literal

namespace OccurrenceQuery.Number

open OccurrenceQuery.Text Float.Model Float.Model.UnpackedFloat

variable {x : Float} {s : Sign} {m : ℕ} {e : ℤ} {h : 0 < m}

/-- The digits of a number are laid out without an exponent. -/
theorem exists_magnitude_eq (hunpack : x.toModel.unpack = .finite s m e h) :
    ∃ d : Decimal, d.toFloat.isNaN = false ∧ valueOf d.toFloat = m * 2 ^ e ∧
      readFloat? (plain.magnitude x) = some d.toFloat ∧
      readFloat? ('-' :: plain.magnitude x) = some (-d.toFloat) := by
  have hcanonical := isCanonical_unpack x.toModel
  rw [hunpack] at hcanonical
  obtain ⟨hformat, he⟩ := hcanonical
  have hbinary := ofFloat_of_unpack hunpack
  have hmagnitude : plain.magnitude x = plain.fixed
      ((Binary.ofFloat x).shortest .upper).significant.1
      ((Binary.ofFloat x).shortest .upper).significant.2 := by
    unfold Layout.magnitude
    rw [hbinary]
    exact if_neg h.ne'
  have hattracted : IsAttracted m e ((Binary.ofFloat x).shortest .upper).value := by
    have hshortest := @isAttracted_shortest (Binary.ofFloat x) (by rw [hbinary]; exact h)
      (by rw [hbinary]) .upper
    rwa [hbinary] at hshortest ⊢
  obtain ⟨d, hvalue, hread⟩ := exists_readFloat?_fixed (fun c => isDigit_of_mem_significant)
    ((Binary.ofFloat x).shortest .upper).significant.2
  rw [value_significant] at hvalue
  rw [hmagnitude]
  refine ⟨d, d.isNaN_toFloat, ?_, hread⟩
  have hrounded := roundMagnitude_of_isAttracted hformat h hattracted
  have hnonneg : 0 ≤ d.value := mul_nonneg (Nat.cast_nonneg _) (zpow_nonneg (by norm_num) _)
  rw [d.valueOf_toFloat, rounded_of_nonneg hnonneg, hvalue, hrounded,
    min_eq_left (magnitude_lt_limit hformat he).le]

theorem isLiteral_finite (hfinite : x.isFinite = true) : IsLiteral (plain.finite x) x := by
  refine ⟨?_, hfinite⟩
  rcases cases_of_isFinite hfinite with ⟨s, hunpack⟩ | ⟨s, m, e, h, hunpack, hformat, he⟩
  · obtain rfl : x = ⟨Float.Model.pack (.zero s)⟩ := eq_of_unpack_eq (by rw [hunpack]; cases s <;> rfl)
    cases s <;> decide +kernel
  obtain ⟨d, hdefined, hvalue, hread, hreadNeg⟩ := exists_magnitude_eq hunpack
  have hx : valueOf x = factor s * (m * 2 ^ e) := by
    rw [valueOf, hunpack]
    rfl
  have hpos := magnitude_pos h e
  have hsign : s = Sign.ofBitVec (@unpackSign Format.binary64 x.toBits.toBitVec) :=
    (@fields_of_unpack x.toBits.toBitVec _ _ _ _ hunpack).1
  have hnan := isNaN_of_isFinite hfinite
  unfold Layout.finite
  cases s with
  | negative =>
    have hvalueNeg : valueOf (-d.toFloat) = valueOf x := by
      rw [valueOf_neg, hvalue, hx, factor, neg_one_mul]
    have hne : valueOf (-d.toFloat) ≠ 0 := by
      rw [valueOf_neg, hvalue]
      exact (neg_neg_of_pos hpos).ne
    rw [if_pos ((signField_eq_one_iff x).2 hsign.symm), hreadNeg,
      eq_of_valueOf_eq ((isNaN_neg _).trans hdefined) hnan hvalueNeg hne]
  | positive =>
    have hbit : ¬ x.toBits >>> 63 = 1 := by
      rw [signField_eq_one_iff, ← hsign]
      intro h
      cases h
    have hvaluePos : valueOf d.toFloat = valueOf x := by rw [hvalue, hx, factor, one_mul]
    have hne : valueOf d.toFloat ≠ 0 := by
      rw [hvalue]
      exact hpos.ne'
    rw [if_neg hbit, hread, eq_of_valueOf_eq hdefined hnan hvaluePos hne]

/-- The text of a finite number is read as that number. -/
theorem isLiteral_text (hfinite : x.isFinite = true) : IsLiteral (text x).toList x := by
  rw [text, isNaN_of_isFinite hfinite, if_neg Bool.false_ne_true, if_pos hfinite, String.toList_ofList]
  exact isLiteral_finite hfinite

end OccurrenceQuery.Number
