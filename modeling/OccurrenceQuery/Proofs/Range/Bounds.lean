/-
The bounds of ranges. A range is made of any two bounds unless the lower one is greater than the upper
one. So the bounds of every range are in order and belong to the range, except for undefined numbers:
these are neither greater nor less than anything, so they pass as bounds, but no range contains them.
-/
import OccurrenceQuery.Proofs.Calendar.Period
import OccurrenceQuery.Proofs.Number.Order
import OccurrenceQuery.Range.Numeric

namespace OccurrenceQuery.Range

open OccurrenceQuery.Number

variable {α : Type}

/-! ## Construction -/

section

variable [LT α] [DecidableLT α] {r : Range α}

theorem between_eq_ok_iff {lower upper : Option α} : between lower upper = .ok r ↔
    r = ⟨lower, upper⟩ ∧ ∀ a b, lower = some a → upper = some b → ¬ b < a := by
  rw [← between?_eq_some_iff, between]
  cases between? lower upper <;> simp

/-- The ways in which ranges are made. -/
inductive IsMade : Range α → Prop where
  | between {lower upper : Option α} {r : Range α} (h : between lower upper = .ok r) : IsMade r
  | closed {lower upper : α} {r : Range α} (h : closed lower upper = .ok r) : IsMade r
  | all : IsMade all
  | default : IsMade default

/-- However a range is made, its lower bound is not greater than its upper one. -/
theorem IsMade.not_lt (h : IsMade r) {a b : α} (ha : r.lower = some a)
    (hb : r.upper = some b) : ¬ b < a := by
  cases h with
  | between h | closed h =>
    obtain ⟨rfl, hnot⟩ := between_eq_ok_iff.1 h
    exact hnot a b ha hb
  | all | default => cases ha

end

theorem contains_iff [LE α] [DecidableLE α] {r : Range α} {x : α} : r.contains x = true ↔
    (∀ a, r.lower = some a → a ≤ x) ∧ ∀ b, r.upper = some b → x ≤ b := by
  obtain ⟨lower, upper⟩ := r
  cases lower <;> cases upper <;> simp [contains, atLeast, atMost]

/-! ## Orders with undefined elements -/

variable [LE α] [LT α] {undefined : α → Prop}

/-- An order that is linear but for some undefined elements, which are related to nothing. -/
structure IsLinearBut (undefined : α → Prop) : Prop where
  not_lt_iff : ∀ a b : α, ¬ b < a ↔ a ≤ b ∨ undefined a ∨ undefined b
  le_self : ∀ a : α, ¬ undefined a → a ≤ a
  defined_of_le : ∀ a b : α, a ≤ b → ¬ undefined a ∧ ¬ undefined b

theorem isLinearBut_int : IsLinearBut fun _ : Int => False where
  not_lt_iff a b := by simp
  le_self a _ := le_refl a
  defined_of_le _ _ _ := ⟨id, id⟩

theorem isLinearBut_date : IsLinearBut fun _ : Calendar.Date => False where
  not_lt_iff a b := by
    rw [or_false, or_false, Calendar.Date.lt_iff, Calendar.Date.le_iff]
    omega
  le_self a _ := le_refl a
  defined_of_le _ _ _ := ⟨id, id⟩

theorem isLinearBut_float : IsLinearBut fun x : Float => x.isNaN = true where
  not_lt_iff _ _ := not_lt_iff
  le_self a ha := le_self_iff.2 (Bool.eq_false_iff.2 ha)
  defined_of_le a b hab := by
    obtain ⟨ha, hb, -⟩ := le_iff_place_le.1 hab
    exact ⟨Bool.eq_false_iff.1 ha, Bool.eq_false_iff.1 hb⟩

/-! ## Bounds in order -/

variable [DecidableLT α]

/-- A bound is absent, or the lower one is at most the upper one. -/
def InOrder (lower upper : Option α) : Prop := ∀ a b, lower = some a → upper = some b → a ≤ b

theorem IsLinearBut.inOrder_iff_of_isMade (hα : IsLinearBut undefined) {r : Range α} (h : IsMade r) :
    InOrder r.lower r.upper ↔
      ¬ ∃ a b, r.lower = some a ∧ r.upper = some b ∧ (undefined a ∨ undefined b) := by
  constructor
  · rintro horder ⟨a, b, ha, hb, hundefined⟩
    obtain ⟨hda, hdb⟩ := hα.defined_of_le a b (horder a b ha hb)
    exact hundefined.elim hda hdb
  · intro hdefined a b ha hb
    refine ((hα.not_lt_iff a b).1 (h.not_lt ha hb)).resolve_right fun hundefined => ?_
    exact hdefined ⟨a, b, ha, hb, hundefined⟩

variable [DecidableLE α]

/-- An element is one of the bounds of a range. -/
def HasBound (r : Range α) (x : α) : Prop := r.lower = some x ∨ r.upper = some x

theorem IsLinearBut.contains_bounds_iff (hα : IsLinearBut undefined) {r : Range α} (h : IsMade r) :
    (∀ x, HasBound r x → r.contains x = true) ↔ ∀ x, HasBound r x → ¬ undefined x := by
  constructor
  · intro hcontains x hx
    have hin := contains_iff.1 (hcontains x hx)
    exact hx.elim (fun hlower => (hα.defined_of_le x x (hin.1 x hlower)).1)
      fun hupper => (hα.defined_of_le x x (hin.2 x hupper)).1
  · intro hdefined
    have horder : InOrder r.lower r.upper := by
      refine (hα.inOrder_iff_of_isMade h).2 ?_
      rintro ⟨a, b, ha, hb, hundefined⟩
      exact hundefined.elim (hdefined a (.inl ha)) (hdefined b (.inr hb))
    rintro x (hlower | hupper)
    · have hself := hα.le_self x (hdefined x (.inl hlower))
      refine contains_iff.2 ⟨fun a ha => ?_, fun b hb => horder x b hlower hb⟩
      rwa [Option.some.inj (ha.symm.trans hlower)]
    · have hself := hα.le_self x (hdefined x (.inr hupper))
      refine contains_iff.2 ⟨fun a ha => horder a x ha hupper, fun b hb => ?_⟩
      rwa [Option.some.inj (hb.symm.trans hupper)]

/-- What holds of the ranges of a type with some undefined elements. Two bounds make the range between
them if and only if they are in order, or both present with an undefined one among them. The bounds of a
range are in order unless they are such a pair, and belong to it unless one is undefined. -/
structure KeepsOrderBut (undefined : α → Prop) : Prop where
  between_iff : ∀ (lower upper : Option α) (r : Range α), between lower upper = .ok r ↔
    r = ⟨lower, upper⟩ ∧ (InOrder lower upper ∨
      ∃ a b, lower = some a ∧ upper = some b ∧ (undefined a ∨ undefined b))
  inOrder_iff : ∀ r : Range α, IsMade r → (InOrder r.lower r.upper ↔
    ¬ ∃ a b, r.lower = some a ∧ r.upper = some b ∧ (undefined a ∨ undefined b))
  contains_iff : ∀ r : Range α, IsMade r → ((∀ x, HasBound r x → r.contains x = true) ↔
    ∀ x, HasBound r x → ¬ undefined x)

theorem IsLinearBut.keepsOrderBut (hα : IsLinearBut undefined) : KeepsOrderBut undefined where
  between_iff lower upper r := by
    simp only [between_eq_ok_iff, hα.not_lt_iff]
    refine and_congr_right fun _ => ⟨fun h => ?_, ?_⟩
    · by_cases hpair : ∃ a b, lower = some a ∧ upper = some b ∧ (undefined a ∨ undefined b)
      · exact .inr hpair
      · refine .inl fun a b ha hb => (h a b ha hb).resolve_right fun hundefined => ?_
        exact hpair ⟨a, b, ha, hb, hundefined⟩
    · rintro (horder | ⟨a, b, rfl, rfl, hundefined⟩) a' b' ha hb
      · exact .inl (horder a' b' ha hb)
      · cases ha
        cases hb
        exact .inr hundefined
  inOrder_iff _ := hα.inOrder_iff_of_isMade
  contains_iff _ := hα.contains_bounds_iff

/-! ## The types of elements -/

/-- The types that there are ranges of: integers, dates and floating-point numbers. -/
inductive Element where
  | integer
  | date
  | float

namespace Element

/-- The elements of the type. -/
def Value : Element → Type
  | integer => Int
  | date => Calendar.Date
  | float => Float

/-- An element that is not in order with any, itself included. -/
def IsUndefined : (e : Element) → e.Value → Prop
  | integer, _ => False
  | date, _ => False
  | float, x => Float.isNaN x = true

instance : (e : Element) → LT e.Value
  | integer => inferInstanceAs (LT Int)
  | date => inferInstanceAs (LT Calendar.Date)
  | float => inferInstanceAs (LT Float)

instance : (e : Element) → LE e.Value
  | integer => inferInstanceAs (LE Int)
  | date => inferInstanceAs (LE Calendar.Date)
  | float => inferInstanceAs (LE Float)

instance : (e : Element) → DecidableLT e.Value
  | integer => inferInstanceAs (DecidableLT Int)
  | date => inferInstanceAs (DecidableLT Calendar.Date)
  | float => inferInstanceAs (DecidableLT Float)

instance : (e : Element) → DecidableLE e.Value
  | integer => inferInstanceAs (DecidableLE Int)
  | date => inferInstanceAs (DecidableLE Calendar.Date)
  | float => inferInstanceAs (DecidableLE Float)

end Element

/-- Ranges of integers and of dates keep their bounds in order and contain them. Ranges of
floating-point numbers do but for undefined numbers: a pair of bounds with an undefined number makes a
range that is in no order, and an undefined bound is not in its range. -/
theorem bounds_inOrder (e : Element) : KeepsOrderBut e.IsUndefined := by
  cases e with
  | integer => exact isLinearBut_int.keepsOrderBut
  | date => exact isLinearBut_date.keepsOrderBut
  | float => exact isLinearBut_float.keepsOrderBut

/-- An undefined number passes as a lower bound, although it is not at most the upper one; the range then
contains neither of its bounds. -/
theorem undefined_bound_passes :
    between (some (0.0 / 0.0)) (some (1.0 : Float)) = .ok ⟨some (0.0 / 0.0), some 1.0⟩ ∧
      ¬ (0.0 / 0.0 : Float) ≤ 1.0 ∧
      contains ⟨some (0.0 / 0.0), some (1.0 : Float)⟩ (0.0 / 0.0) = false ∧
      contains ⟨some (0.0 / 0.0), some (1.0 : Float)⟩ 1.0 = false := by
  refine ⟨between_eq_ok_iff.2 ⟨rfl, ?_⟩, by decide +kernel, by decide +kernel, by decide +kernel⟩
  rintro _ _ ⟨⟩ ⟨⟩
  decide +kernel

end OccurrenceQuery.Range
