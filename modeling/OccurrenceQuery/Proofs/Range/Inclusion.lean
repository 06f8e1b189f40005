/-
Ranges within ranges. Whether finite bounds enclose a range is decided by its ends alone, and this is
whether they contain all that the range contains: an open side of the range reaches an infinity, which
no finite bound does, and an end that is present is in the range itself. So a check within finite bounds
accepts a range exactly when all its numbers are within them.
-/
import OccurrenceQuery.Proofs.Number.Infinity
import OccurrenceQuery.Proofs.Range.Bounds
import OccurrenceQuery.Proofs.Range.Recognition

namespace OccurrenceQuery.Range

open OccurrenceQuery.Text OccurrenceQuery.Number

/-! ## Enclosing -/

section

variable {α : Type} [LE α] [DecidableLE α]

/-- Whether a range contains every element of another one. -/
def Includes (r inner : Range α) : Prop := ∀ x, inner.contains x = true → r.contains x = true

/-- A range encloses another one when each of its bounds has a bound of the other at or inside it. -/
theorem encloses_iff {r inner : Range α} : r.encloses inner = true ↔
    (∀ a, r.lower = some a → ∃ b, inner.lower = some b ∧ a ≤ b) ∧
      ∀ a, r.upper = some a → ∃ b, inner.upper = some b ∧ b ≤ a := by
  obtain ⟨lower, upper⟩ := r
  obtain ⟨innerLower, innerUpper⟩ := inner
  unfold encloses
  cases lower <;> cases innerLower <;> cases upper <;> cases innerUpper <;> simp

end

/-! ## Ranges of numbers -/

section

variable {bounds r : Range Float}

theorem includes_of_encloses (h : bounds.encloses r = true) : bounds.Includes r := by
  obtain ⟨hlower, hupper⟩ := encloses_iff.1 h
  intro x hx
  obtain ⟨hlow, hhigh⟩ := contains_iff.1 hx
  refine contains_iff.2 ⟨fun a ha => ?_, fun a ha => ?_⟩
  · obtain ⟨b, hb, hab⟩ := hlower a ha
    exact Number.le_trans hab (hlow b hb)
  · obtain ⟨b, hb, hba⟩ := hupper a ha
    exact Number.le_trans (hhigh b hb) hba

/-- A range without a lower bound contains the least number. -/
theorem contains_neg_infinity (hdefined : ∀ x, HasBound r x → x.isNaN = false)
    (hopen : r.lower = none) : r.contains (-infinity) = true := by
  refine contains_iff.2 ⟨fun a ha => ?_, fun b hb => neg_infinity_le (hdefined b (.inr hb))⟩
  rw [hopen] at ha
  cases ha

/-- A range without an upper bound contains the greatest number. -/
theorem contains_infinity (hdefined : ∀ x, HasBound r x → x.isNaN = false)
    (hopen : r.upper = none) : r.contains infinity = true := by
  refine contains_iff.2 ⟨fun a ha => le_infinity (hdefined a (.inl ha)), fun b hb => ?_⟩
  rw [hopen] at hb
  cases hb

theorem encloses_of_includes (hfinite : ∀ x, HasBound bounds x → x.isFinite = true) (hr : IsMade r)
    (hdefined : ∀ x, HasBound r x → x.isNaN = false) (h : bounds.Includes r) :
    bounds.encloses r = true := by
  have hcontains : ∀ x, HasBound r x → r.contains x = true :=
    (isLinearBut_float.contains_bounds_iff hr).2 fun x hx => Bool.eq_false_iff.1 (hdefined x hx)
  refine encloses_iff.2 ⟨fun a ha => ?_, fun a ha => ?_⟩
  · have hbound := hfinite a (.inl ha)
    cases hopen : r.lower with
    | none =>
      have hin := contains_iff.1 (h _ (contains_neg_infinity hdefined hopen))
      exact absurd (hin.1 a ha) (not_le_neg_infinity hbound)
    | some b => exact ⟨b, rfl, (contains_iff.1 (h b (hcontains b (.inl hopen)))).1 a ha⟩
  · have hbound := hfinite a (.inr ha)
    cases hopen : r.upper with
    | none =>
      have hin := contains_iff.1 (h _ (contains_infinity hdefined hopen))
      exact absurd (hin.2 a ha) (not_infinity_le hbound)
    | some b => exact ⟨b, rfl, (contains_iff.1 (h b (hcontains b (.inr hopen)))).2 a ha⟩

/-- Finite bounds enclose a range without undefined bounds exactly when they contain all its numbers. -/
theorem encloses_iff_includes (hfinite : ∀ x, HasBound bounds x → x.isFinite = true) (hr : IsMade r)
    (hdefined : ∀ x, HasBound r x → x.isNaN = false) :
    bounds.encloses r = true ↔ bounds.Includes r :=
  ⟨includes_of_encloses, encloses_of_includes hfinite hr hdefined⟩

end

/-! ## Checks within bounds -/

variable {bounds r : Range Float} {text : String}

theorem isMade_of_readDecimals (h : readDecimals text = .ok r) : IsMade r := by
  obtain ⟨_, _, -, -, -, hbetween⟩ := readRange_eq_ok_iff.1 h
  exact .between (between_eq_ok_iff.2 (between?_eq_some_iff.1 hbetween))

/-- The bounds that are read are numbers or infinities. -/
theorem isNaN_of_readDecimals (h : readDecimals text = .ok r) {x : Float} (hx : HasBound r x) :
    x.isNaN = false := by
  obtain ⟨lower, upper, hsides, hlower, hupper, -⟩ := readRange_eq_ok_iff.1 h
  have hside : ∀ {side : List Char}, IsSide side → readBound? readFloat? side = some (some x) →
      x.isNaN = false := by
    intro side hside hread
    obtain ⟨hwildcard, hfloat⟩ := readBound?_eq_some_some_iff.1 hread
    exact isNaN_readFloat? (hside.resolve_right hwildcard) hfloat
  rcases hx with hx | hx
  · rw [hx] at hlower
    exact hside hsides.1 hlower
  · rw [hx] at hupper
    exact hside hsides.2.1 hupper

theorem isNumeric_of_readDecimals (h : readDecimals text = .ok r) : isNumeric text = true := by
  obtain ⟨lower, upper, hsides, -⟩ := readRange_eq_ok_iff.1 h
  exact isNumeric_iff.2 ⟨lower, upper, hsides⟩

theorem checkWithin_eq_ok_iff {what : String} :
    checkWithin bounds what text = .ok () ↔ liesWithin bounds text = .ok true := by
  unfold checkWithin
  split
  · rename_i hempty
    rw [String.isEmpty_iff] at hempty
    subst hempty
    exact iff_of_false nofun nofun
  · cases liesWithin bounds text with
    | error rejection => exact iff_of_false nofun nofun
    | ok lies =>
      cases lies with
      | false => exact iff_of_false nofun nofun
      | true => exact iff_of_true rfl rfl

/-- A text lies within bounds as the number that it denotes, or else as the range. -/
theorem liesWithin_eq_ok_true_iff : liesWithin bounds text = .ok true ↔
    match readFinite? text.toList, readDecimals text with
    | some x, _ => bounds.contains x = true
    | none, .ok r => bounds.encloses r = true
    | none, .error _ => False := by
  unfold liesWithin
  cases readFinite? text.toList with
  | some x => simp
  | none =>
    cases hread : readDecimals text with
    | ok r => simp [isNumeric_of_readDecimals hread]
    | error rejection =>
      refine iff_of_false (fun h => ?_) id
      dsimp only at h
      split at h <;> cases h

/-- A check within finite bounds accepts a number that the bounds contain, a range all of whose numbers
they contain, and nothing else. For the ranges that there are, this is whether the bounds enclose them. -/
theorem checkWithin_includes (bounds : Range Float)
    (hfinite : ∀ x, HasBound bounds x → x.isFinite = true) :
    (∀ what text, checkWithin bounds what text = .ok () ↔
      match readFinite? text.toList, readDecimals text with
      | some x, _ => bounds.contains x = true
      | none, .ok r => bounds.Includes r
      | none, .error _ => False) ∧
    ∀ r, IsMade r → (∀ x, HasBound r x → x.isNaN = false) →
      (bounds.encloses r = true ↔ bounds.Includes r) := by
  refine ⟨fun what text => ?_, fun r => encloses_iff_includes hfinite⟩
  rw [checkWithin_eq_ok_iff, liesWithin_eq_ok_true_iff]
  cases readFinite? text.toList with
  | some x => exact Iff.rfl
  | none =>
    cases hread : readDecimals text with
    | ok r =>
      exact encloses_iff_includes hfinite (isMade_of_readDecimals hread) fun x =>
        isNaN_of_readDecimals hread
    | error rejection => exact Iff.rfl

/-- The latitudes include all numbers from -45.5 to 90, but not all up to 45. -/
theorem latitudes_include : (∀ x, HasBound latitudes x → x.isFinite = true) ∧
    (∃ r, readDecimals "-45.5 , 90" = .ok r ∧ latitudes.Includes r) ∧
    ∃ r, readDecimals "* , 45" = .ok r ∧ ¬ latitudes.Includes r := by
  have hfinite : ∀ x, HasBound latitudes x → x.isFinite = true := by
    rintro x (hx | hx)
    · cases hx
      decide +kernel
    · cases hx
      decide +kernel
  have hcheck := (checkWithin_includes latitudes hfinite).1 "latitude"
  obtain ⟨north, hnorth⟩ : ∃ r, readDecimals "-45.5 , 90" = .ok r :=
    discard_eq_ok_iff.1 (by decide +kernel)
  obtain ⟨south, hsouth⟩ : ∃ r, readDecimals "* , 45" = .ok r :=
    discard_eq_ok_iff.1 (by decide +kernel)
  refine ⟨hfinite, ⟨north, hnorth, ?_⟩, south, hsouth, fun hincludes => ?_⟩
  · have haccepted := (hcheck "-45.5 , 90").1 (by decide +kernel)
    rwa [readFinite?_eq_none_of_comma (by decide), hnorth] at haccepted
  · have haccepted := hcheck "* , 45"
    rw [readFinite?_eq_none_of_comma (by decide), hsouth] at haccepted
    exact absurd (haccepted.2 hincludes) (by decide +kernel)

end OccurrenceQuery.Range
