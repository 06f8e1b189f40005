/-
Multiplying and dividing by a positive number. Finite numbers are scaled exactly and rounded and the
infinities stay where they are, so that the order is kept: a scaled number never gets past a number that
the number itself does not get past when it is scaled back.
-/
import OccurrenceQuery.Proofs.Number.Decimals

namespace OccurrenceQuery.Number

open Float.Model Float.Model.UnpackedFloat

/-! ## Numbers of the line -/

section

variable {x y : Float}

/-- A floating-point number is not rounded. -/
theorem rounded_valueOf (x : Float) : rounded (valueOf x) = valueOf x := by
  have hcanonical := isCanonical_unpack x.toModel
  unfold valueOf
  cases hunpack : x.toModel.unpack with
  | infinity s =>
    rw [value, rounded_factor s limit_pos.le, roundMagnitude_limit, min_self]
  | notANumber => exact rounded_zero
  | zero s => exact rounded_zero
  | finite s m e h =>
    rw [hunpack] at hcanonical
    rw [value, rounded_factor s (magnitude_pos h e).le, roundMagnitude_self hcanonical.1,
      min_eq_left (magnitude_bounds hcanonical).2.le]

theorem cases_of_isNaN_eq_false (h : x.isNaN = false) :
    x.isFinite = true ∨ ∃ s, x.toModel.unpack = .infinity s := by
  change x.toModel.unpack.isNaN = false at h
  change x.toModel.unpack.isFinite = true ∨ _
  cases hunpack : x.toModel.unpack with
  | infinity s => exact .inr ⟨s, rfl⟩
  | notANumber =>
    rw [hunpack] at h
    cases h
  | zero s => exact .inl rfl
  | finite s m e hm => exact .inl rfl

theorem valueOf_infinity {s : Sign} (h : x.toModel.unpack = .infinity s) :
    valueOf x = factor s * limit := by
  rw [valueOf, h]
  rfl

theorem isNaN_infinity_unpack {s : Sign} (h : x.toModel.unpack = .infinity s) : x.isNaN = false := by
  change x.toModel.unpack.isNaN = false
  rw [h]
  rfl

/-- A finite number lies between the infinities. -/
theorem valueOf_bounds_of_isFinite (h : x.isFinite = true) : -limit < valueOf x ∧ valueOf x < limit := by
  have hlimit := limit_pos
  have hcanonical := isCanonical_unpack x.toModel
  rw [valueOf]
  rcases cases_of_isFinite h with ⟨s, hunpack⟩ | ⟨s, m, e, hm, hunpack, -⟩ <;> rw [hunpack]
  · rw [value_zero]
    constructor <;> linarith
  · rw [hunpack] at hcanonical
    have hbounds := magnitude_bounds hcanonical
    cases s <;> simp only [value, factor] <;> constructor <;> linarith

theorem isFinite_of_abs_valueOf_lt (hx : x.isNaN = false) (h : |valueOf x| < limit) : x.isFinite = true := by
  refine (cases_of_isNaN_eq_false hx).resolve_right fun ⟨s, hunpack⟩ => h.not_ge ?_
  rw [valueOf_infinity hunpack, abs_mul, abs_of_pos limit_pos]
  cases s <;> simp [factor]

theorem exists_unpack_of_pos (h : x.isFinite = true) (hpos : 0 < valueOf x) :
    ∃ m e, ∃ hm : 0 < m, x.toModel.unpack = .finite .positive m e hm := by
  rw [valueOf] at hpos
  rcases cases_of_isFinite h with ⟨s, hunpack⟩ | ⟨s, m, e, hm, hunpack, -⟩ <;> rw [hunpack] at hpos
  · exact absurd hpos (lt_irrefl 0)
  · cases s with
    | negative =>
      have hmagnitude := magnitude_pos hm e
      rw [value, factor] at hpos
      linarith
    | positive => exact ⟨m, e, hm, hunpack⟩

end

/-! ## Scaling -/

/-- An operation that scales finite numbers by `k`, rounded, and leaves the infinities where they are. -/
structure IsScaling (f : Float → Float) (k : ℚ) : Prop where
  pos : 0 < k
  isNaN_eq_false : ∀ x, x.isNaN = false → (f x).isNaN = false
  finite : ∀ x, x.isFinite = true → valueOf (f x) = rounded (valueOf x * k)
  infinite : ∀ x s, x.toModel.unpack = .infinity s → (f x).toModel.unpack = .infinity s

/-- An operation on unpacked numbers whose result is packed is a scaling if it keeps the infinities, does not
leave the numbers, and scales finite numbers. -/
theorem isScaling_of_unpack {f : Float → Float} {op : UnpackedFloat → UnpackedFloat} {k : ℚ} (hpos : 0 < k)
    (hf : ∀ x : Float, (f x).toModel.unpack = (Float.Model.pack (op x.toModel.unpack)).unpack)
    (hinfinity : ∀ s, op (.infinity s) = .infinity s)
    (hzero : ∀ s, (Float.Model.pack (op (.zero s))).unpack.isNaN = false)
    (hfinite : ∀ s m e hm, (Float.Model.pack (op (.finite s m e hm))).unpack.isNaN = false)
    (hvalue : ∀ x, x.isFinite = true → valueOf (f x) = rounded (valueOf x * k)) : IsScaling f k := by
  have hinfinite : ∀ x s, x.toModel.unpack = .infinity s → (f x).toModel.unpack = .infinity s := by
    intro x s hx
    rw [hf, hx, hinfinity, unpack_pack_infinity]
  refine ⟨hpos, fun x hx => ?_, hvalue, hinfinite⟩
  rcases cases_of_isNaN_eq_false hx with hx | ⟨s, hx⟩
  · change (f x).toModel.unpack.isNaN = false
    rw [hf]
    rcases cases_of_isFinite hx with ⟨s, hx⟩ | ⟨s, m, e, hm, hx, -⟩ <;> rw [hx]
    · exact hzero s
    · exact hfinite s m e hm
  · exact isNaN_infinity_unpack (hinfinite x s hx)

theorem isScaling_mul {y : Float} (h : y.isFinite = true) (hpos : 0 < valueOf y) :
    IsScaling (· * y) (valueOf y) := by
  obtain ⟨n, f, hn, hy⟩ := exists_unpack_of_pos h hpos
  refine @isScaling_of_unpack _ (UnpackedFloat.mul Format.binary64 · (.finite .positive n f hn)) _ hpos
    (fun x => ?_) (fun s => ?_) (fun s => isNaN_pack_zero) (fun s m e hm => isNaN_round)
    fun x hx => valueOf_mul hx h
  · rw [← hy]
    rfl
  · cases s <;> rfl

theorem isScaling_div {y : Float} (h : y.isFinite = true) (hpos : 0 < valueOf y) :
    IsScaling (· / y) (valueOf y)⁻¹ := by
  obtain ⟨n, f, hn, hy⟩ := exists_unpack_of_pos h hpos
  refine @isScaling_of_unpack _ (UnpackedFloat.div Format.binary64 · (.finite .positive n f hn)) _
    (inv_pos.2 hpos) (fun x => ?_) (fun s => ?_) (fun s => isNaN_pack_zero) (fun s m e hm => isNaN_round)
    fun x hx => ?_
  · rw [← hy]
    rfl
  · cases s <;> rfl
  · rw [← div_eq_mul_inv]
    exact valueOf_div hx h hpos.ne'

namespace IsScaling

variable {f g : Float → Float} {k : ℚ} {x y : Float} {s : Sign}

theorem valueOf_eq_of_infinity (hf : IsScaling f k) (h : x.toModel.unpack = .infinity s) :
    valueOf (f x) = factor s * limit := valueOf_infinity (hf.infinite x s h)

theorem mono (hf : IsScaling f k) (hx : x.isNaN = false) (hy : y.isNaN = false)
    (h : valueOf x ≤ valueOf y) : valueOf (f x) ≤ valueOf (f y) := by
  have hfx := valueOf_bounds (f x)
  have hfy := valueOf_bounds (f y)
  rcases cases_of_isNaN_eq_false hx with hx | ⟨s, hx⟩ <;>
    rcases cases_of_isNaN_eq_false hy with hy | ⟨t, hy⟩
  · rw [hf.finite x hx, hf.finite y hy]
    exact rounded_mono (mul_le_mul_of_nonneg_right h hf.pos.le)
  · have hbounds := valueOf_bounds_of_isFinite hx
    rw [valueOf_infinity hy] at h
    rw [hf.valueOf_eq_of_infinity hy]
    cases t <;> simp only [factor] at h ⊢ <;> linarith
  · have hbounds := valueOf_bounds_of_isFinite hy
    rw [valueOf_infinity hx] at h
    rw [hf.valueOf_eq_of_infinity hx]
    cases s <;> simp only [factor] at h ⊢ <;> linarith
  · rw [valueOf_infinity hx, valueOf_infinity hy] at h
    rw [hf.valueOf_eq_of_infinity hx, hf.valueOf_eq_of_infinity hy]
    exact h

/-- What stays below a number that is scaled back does not get past the number when it is scaled. -/
theorem le_of_lt_inverse (hf : IsScaling f k) (hg : IsScaling g k⁻¹) (hx : x.isFinite = true)
    (hy : y.isNaN = false) (h : valueOf x < valueOf (g y)) : valueOf (f x) ≤ valueOf y := by
  rcases cases_of_isNaN_eq_false hy with hy | ⟨t, hy⟩
  · rw [hf.finite x hx, ← rounded_valueOf y]
    refine rounded_mono ((lt_div_iff₀ hf.pos).1 (lt_of_not_ge fun hle => ?_)).le
    rw [hg.finite y hy, ← div_eq_mul_inv, ← rounded_valueOf x] at h
    exact absurd (rounded_mono hle) h.not_ge
  · have hbounds := valueOf_bounds_of_isFinite hx
    have hfx := valueOf_bounds (f x)
    rw [hg.valueOf_eq_of_infinity hy] at h
    rw [valueOf_infinity hy]
    cases t <;> simp only [factor] at h ⊢ <;> linarith

theorem le_of_inverse_lt (hf : IsScaling f k) (hg : IsScaling g k⁻¹) (hx : x.isFinite = true)
    (hy : y.isNaN = false) (h : valueOf (g y) < valueOf x) : valueOf y ≤ valueOf (f x) := by
  rcases cases_of_isNaN_eq_false hy with hy | ⟨t, hy⟩
  · rw [hf.finite x hx, ← rounded_valueOf y]
    refine rounded_mono ((div_lt_iff₀ hf.pos).1 (lt_of_not_ge fun hle => ?_)).le
    rw [hg.finite y hy, ← div_eq_mul_inv, ← rounded_valueOf x] at h
    exact absurd (rounded_mono hle) h.not_ge
  · have hbounds := valueOf_bounds_of_isFinite hx
    have hfx := valueOf_bounds (f x)
    rw [hg.valueOf_eq_of_infinity hy] at h
    rw [valueOf_infinity hy]
    cases t <;> simp only [factor] at h ⊢ <;> linarith

end IsScaling

end OccurrenceQuery.Number
