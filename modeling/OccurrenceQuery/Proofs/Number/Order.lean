/-
The order of floating-point numbers. Every number but the undefined one has a place on a line, and
numbers compare as their places do; an undefined number is neither below nor above any number, itself
included.
-/
import Mathlib

namespace OccurrenceQuery.Number

open Float.Model Float.Model.UnpackedFloat

/-! ## Places -/

/-- The place of an unpacked number on a line: by its kind and sign, then by its exponent, then by its
mantissa. The undefined number has none and is put at the end. -/
def place : UnpackedFloat → ℤ ×ₗ ℤ ×ₗ ℤ
  | .infinity .negative => toLex (-2, toLex (0, 0))
  | .finite .negative m e _ => toLex (-1, toLex (-e, -m))
  | .zero _ => toLex (0, toLex (0, 0))
  | .finite .positive m e _ => toLex (1, toLex (e, m))
  | .infinity .positive => toLex (2, toLex (0, 0))
  | .notANumber => toLex (3, toLex (0, 0))

theorem compare_sign (s t : Sign) : compare s t = match s, t with
    | .negative, .positive => .lt
    | .positive, .negative => .gt
    | _, _ => .eq := by
  cases s <;> cases t <;> rfl

variable {a b : UnpackedFloat}

theorem compare_eq_lt_iff : UnpackedFloat.compare a b = some .lt ↔
    a.isNaN = false ∧ b.isNaN = false ∧ place a < place b := by
  rcases a with ⟨_ | _⟩ | _ | s | ⟨_ | _, m, e, hm⟩ <;>
    rcases b with ⟨_ | _⟩ | _ | t | ⟨_ | _, n, f, hn⟩ <;>
    simp [UnpackedFloat.compare, UnpackedFloat.isNaN, place, compare_sign, Prod.Lex.toLex_lt_toLex,
      compare_lt_iff_lt, compare_gt_iff_gt, Ordering.then_eq_lt, Ordering.then_eq_gt]

theorem compare_eq_eq_iff : UnpackedFloat.compare a b = some .eq ↔
    a.isNaN = false ∧ b.isNaN = false ∧ place a = place b := by
  rcases a with ⟨_ | _⟩ | _ | s | ⟨_ | _, m, e, hm⟩ <;>
    rcases b with ⟨_ | _⟩ | _ | t | ⟨_ | _, n, f, hn⟩ <;>
    simp [UnpackedFloat.compare, UnpackedFloat.isNaN, place, compare_sign, Ordering.then_eq_eq]

/-! ## The order -/

variable {x y : Float}

theorem lt_iff_place_lt : x < y ↔ x.isNaN = false ∧ y.isNaN = false ∧
    place x.toModel.unpack < place y.toModel.unpack := by
  have hlt : x < y ↔ (x.toModel.unpack.compare y.toModel.unpack == some .lt) = true :=
    decide_eq_true_iff
  rw [hlt, beq_iff_eq, compare_eq_lt_iff]
  exact Iff.rfl

theorem le_iff_place_le : x ≤ y ↔ x.isNaN = false ∧ y.isNaN = false ∧
    place x.toModel.unpack ≤ place y.toModel.unpack := by
  have hle : x ≤ y ↔ (x.toModel.unpack.compare y.toModel.unpack).any (·.isLE) = true :=
    decide_eq_true_iff
  have hcases : ∀ o : Option Ordering, o.any (·.isLE) = true ↔ o = some .lt ∨ o = some .eq := by
    rintro (_ | _ | _ | _) <;> decide
  rw [hle, hcases, compare_eq_lt_iff, compare_eq_eq_iff, ← and_or_left, ← and_or_left, ← le_iff_lt_or_eq]
  exact Iff.rfl

/-- A number is at most itself, unless it is undefined. -/
theorem le_self_iff : x ≤ x ↔ x.isNaN = false := by
  rw [le_iff_place_le]
  exact ⟨And.left, fun h => ⟨h, h, le_rfl⟩⟩

/-- Of two numbers one is above the other or at most the other, unless one of them is undefined. -/
theorem not_lt_iff : ¬ y < x ↔ x ≤ y ∨ x.isNaN = true ∨ y.isNaN = true := by
  rw [lt_iff_place_lt, le_iff_place_le, ← not_le]
  cases x.isNaN <;> cases y.isNaN <;> simp

end OccurrenceQuery.Number
