/-
What the checks of numbers report. A text is a reversed range when it has two sides that are numbers
and the lower one is greater than the upper one; exactly these texts are invalid ranges, whether or
not the numbers lie within the bounds of the check.
-/
import OccurrenceQuery.Proofs.Number.Letters
import OccurrenceQuery.Proofs.Rejection
import OccurrenceQuery.Proofs.Range.Form

namespace OccurrenceQuery.Range

open OccurrenceQuery.Text OccurrenceQuery.Number

/-! ## Numbers -/

theorem readFinite?_eq_none_of_comma {cs : List Char} (h : ',' ∈ cs) : readFinite? cs = none := by
  simp [readFinite?, readFloat?_eq_none_of_mem (by decide) (mem_trim_of_mem (by decide) h)]

theorem readInt32?_eq_none_of_comma {cs : List Char} (h : ',' ∈ cs) : readInt32? cs = none := by
  simp [readInt32?, readInteger?_eq_none_of_mem (by decide) h]

/-! ## Reversed ranges -/

/-- A text has two sides that are both elements, and the lower one is greater than the upper. -/
def IsReversed {α : Type} [LT α] (element? : List Char → Option α) (text : String) : Prop :=
  ∃ lower upper a b, HasSides text.toList lower upper ∧ lower ≠ wildcard ∧ upper ≠ wildcard ∧
    element? lower = some a ∧ element? upper = some b ∧ b < a

section

variable {α : Type} {element? : List Char → Option α} {text : String}

theorem IsReversed.comma_mem [LT α] (h : IsReversed element? text) : ',' ∈ text.toList := by
  obtain ⟨lower, upper, a, b, ⟨-, -, left, right, htext, -⟩, -⟩ := h
  simp [htext]

theorem readBound?_eq_some_some_iff {side : List Char} {a : α} :
    readBound? element? side = some (some a) ↔ side ≠ wildcard ∧ element? side = some a := by
  unfold readBound?
  split <;> rename_i h <;> simp [h]

theorem isReversed_iff [LT α] : IsReversed element? text ↔ ∃ lower upper a b,
    sides? text.toList = some (lower, upper) ∧ readBound? element? lower = some (some a) ∧
      readBound? element? upper = some (some b) ∧ b < a := by
  simp only [IsReversed, readBound?_eq_some_some_iff, sides?_eq_some_iff]
  constructor
  · rintro ⟨lower, upper, a, b, hsides, hl, hu, ha, hb, hlt⟩
    exact ⟨lower, upper, a, b, hsides, ⟨hl, ha⟩, ⟨hu, hb⟩, hlt⟩
  · rintro ⟨lower, upper, a, b, hsides, ⟨hl, ha⟩, ⟨hu, hb⟩, hlt⟩
    exact ⟨lower, upper, a, b, hsides, hl, hu, ha, hb, hlt⟩

theorem reports_readRange [LT α] [DecidableLT α] (what : String) :
    Reports (IsReversed element? text) (readRange what element? text) := by
  unfold readRange
  dsimp only
  split
  · rename_i hbounds
    refine .value ?_ _
    rw [isReversed_iff]
    rintro ⟨lower, upper, a, b, hsides, ha, hb, -⟩
    simp [hsides, ha, hb] at hbounds
  · rename_i hbounds
    simp only [Option.bind_eq_bind, Option.bind_eq_some_iff, Prod.exists, Option.pure_def,
      Option.some.injEq, Prod.mk.injEq] at hbounds
    obtain ⟨lower, upper, hsides, a?, hlower, b?, hupper, rfl, rfl⟩ := hbounds
    have hreversed : IsReversed element? text ↔ between? a? b? = none := by
      simp [isReversed_iff, between?_eq_none_iff, hsides, hlower, hupper]
    split
    · rename_i hnone
      exact .range (hreversed.2 hnone) _
    · rename_i r hr
      refine .ok ?_ r
      rw [hreversed, hr]
      exact Option.some_ne_none r

end

/-! ## Checks -/

theorem not_isReversed_of_readFinite? {text : String} {x : Float}
    (h : readFinite? text.toList = some x) : ¬ IsReversed readFloat? text := by
  intro hreversed
  rw [readFinite?_eq_none_of_comma hreversed.comma_mem] at h
  cases h

theorem not_isReversed_empty {α : Type} [LT α] (element? : List Char → Option α) {text : String}
    (h : text.isEmpty = true) : ¬ IsReversed element? text := by
  intro hreversed
  rw [String.isEmpty_iff] at h
  subst h
  exact absurd hreversed.comma_mem (by simp)

theorem reports_checkDecimals (text : String) :
    Reports (IsReversed readFloat? text) (checkDecimals text) := by
  unfold checkDecimals
  split
  · rename_i hempty
    exact .value (not_isReversed_empty _ hempty) _
  · split
    · rename_i hfinite
      obtain ⟨x, hx⟩ := Option.isSome_iff_exists.1 hfinite
      exact .ok (not_isReversed_of_readFinite? hx) _
    · exact (reports_readRange _).discard

theorem reports_liesWithin (bounds : Range Float) (text : String) :
    Reports (IsReversed readFloat? text) (liesWithin bounds text) := by
  unfold liesWithin
  split
  · rename_i x hx
    exact .ok (not_isReversed_of_readFinite? hx) _
  · split
    · exact (reports_readRange _).map _
    · rename_i hnot
      refine .value ?_ _
      rw [isReversed_iff]
      rintro ⟨lower, upper, a, b, hsides, -⟩
      simp [isNumeric, hsides] at hnot

theorem reports_checkWithin (bounds : Range Float) (what text : String) :
    Reports (IsReversed readFloat? text) (checkWithin bounds what text) := by
  unfold checkWithin
  split
  · rename_i hempty
    exact .value (not_isReversed_empty _ hempty) _
  · refine (reports_liesWithin bounds text).bind_values fun lies => ?_
    cases lies with
    | false => exact .value id _
    | true => exact .ok id _

theorem reports_integers (text : String) :
    Reports (IsReversed readInt32? text) (integers text) := by
  unfold integers
  split
  · rename_i hempty
    exact .value (not_isReversed_empty _ hempty) _
  · split
    · rename_i n hn
      refine .ok (fun hreversed => ?_) _
      rw [readInt32?_eq_none_of_comma hreversed.comma_mem] at hn
      cases hn
    · exact (reports_readRange _).bind_values fun _ => .ok id _

theorem reports_checkBetween (least greatest : Int) (what : String) (values : List Int) :
    Reports False (checkBetween least greatest what values) := by
  unfold checkBetween
  split
  · exact .value id _
  · exact .ok id _

end OccurrenceQuery.Range
