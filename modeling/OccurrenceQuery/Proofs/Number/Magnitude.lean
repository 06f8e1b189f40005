/-
The magnitudes of numbers as they are written. A decimal in ASCII digits is read as the floating-point
number nearest to its exact value, with its sign.
-/
import OccurrenceQuery.Proofs.Number.Letters
import OccurrenceQuery.Proofs.Range.Form

namespace OccurrenceQuery.Number

open OccurrenceQuery.Text OccurrenceQuery.Range

/-- The exact value of a decimal. -/
def Decimal.value (d : Decimal) : ℚ := d.digits * (10 : ℚ) ^ d.exponent

theorem zpow_eq_div {b : ℚ} (hb : b ≠ 0) (e : ℤ) : b ^ e = b ^ e.toNat / b ^ (-e).toNat := by
  rw [← zpow_natCast, ← zpow_natCast, ← zpow_sub₀ hb]
  congr 1
  omega

/-- The magnitude of a number as it is written: its whole part and its fraction, without the sign. -/
def magnitude (n : List Char) : ℚ :=
  match splitFirst '.' (takeSign n).2 with
  | some (whole, fraction) => numeralValue whole + numeralValue fraction / 10 ^ fraction.length
  | none => numeralValue (takeSign n).2

/-! ## ASCII digits -/

theorem isDigit_of_isNumberLetter {c : Char} (hdigit : isDecimalDigit c = true)
    (hc : isNumberLetter c = true) : c.isDigit = true := by
  simp only [isNumberLetter, Char.isAlphanum, Bool.or_eq_true, beq_iff_eq] at hc
  rcases hc with (((halpha | hc) | rfl) | rfl) | rfl
  · rw [isDecimalDigit_of_isAlpha halpha] at hdigit
    cases hdigit
  · exact hc
  · exact absurd hdigit (by decide)
  · exact absurd hdigit (by decide)
  · exact absurd hdigit (by decide)

/-! ## Reading -/

variable {n whole fraction : List Char}

theorem takeWhile_isDigit_append {c : Char} (hwhole : ∀ c ∈ whole, c.isDigit = true)
    (hc : c.isDigit = false) (rest : List Char) :
    (whole ++ c :: rest).takeWhile Char.isDigit = whole ∧
      (whole ++ c :: rest).dropWhile Char.isDigit = c :: rest := by
  rw [List.takeWhile_append_of_pos hwhole, List.dropWhile_append_of_pos hwhole]
  simp [hc]

theorem readDecimal?_digits (hne : n ≠ []) (hn : ∀ c ∈ n, c.isDigit = true) :
    readDecimal? n = some ⟨numeralValue n, 0⟩ := by
  have htake : n.takeWhile Char.isDigit = n := List.takeWhile_eq_self_iff.2 hn
  have hdrop : n.dropWhile Char.isDigit = [] := List.dropWhile_eq_nil_iff.2 hn
  simp [readDecimal?, htake, hdrop, hne, readExponent?]

theorem readDecimal?_point (hne : whole ≠ []) (hwhole : ∀ c ∈ whole, c.isDigit = true)
    (hfraction : ∀ c ∈ fraction, c.isDigit = true) :
    readDecimal? (whole ++ '.' :: fraction) =
      some ⟨numeralValue (whole ++ fraction), -fraction.length⟩ := by
  obtain ⟨htake, hdrop⟩ := takeWhile_isDigit_append hwhole
    (show Char.isDigit '.' = false by decide) fraction
  have htakeFraction : fraction.takeWhile Char.isDigit = fraction :=
    List.takeWhile_eq_self_iff.2 hfraction
  have hdropFraction : fraction.dropWhile Char.isDigit = [] :=
    List.dropWhile_eq_nil_iff.2 hfraction
  simp [readDecimal?, htake, hdrop, htakeFraction, hdropFraction, hne, readExponent?]

theorem exists_readDecimal? (h : HasUnsignedForm n) (hn : ∀ c ∈ n, isNumberLetter c = true) :
    ∃ d : Decimal, readDecimal? n = some d ∧ d.value =
      match splitFirst '.' n with
      | some (whole, fraction) => numeralValue whole + numeralValue fraction / 10 ^ fraction.length
      | none => numeralValue n := by
  have hdigits : ∀ {cs : List Char}, AreDigits cs → (∀ c ∈ cs, c ∈ n) →
      ∀ c ∈ cs, c.isDigit = true := fun hcs hsub c hc =>
    isDigit_of_isNumberLetter (hcs.2 c hc) (hn c (hsub c hc))
  rcases h with h | ⟨whole, fraction, rfl, hwhole, hfraction⟩
  · have hpoint : splitFirst '.' n = none := splitFirst_eq_none (h.free (by decide))
    exact ⟨_, readDecimal?_digits h.1 (hdigits h fun _ => id), by simp [hpoint, Decimal.value]⟩
  · have hpoint := splitFirst_append (hwhole.free (c := '.') (by decide)) fraction
    refine ⟨_, readDecimal?_point hwhole.1 (hdigits hwhole fun _ hc => by simp [hc])
      (hdigits hfraction fun _ hc => by simp [hc]), ?_⟩
    rw [hpoint]
    simp only [Decimal.value, numeralValue_append]
    push_cast
    rw [zpow_neg, zpow_natCast]
    field_simp

theorem specialNumber?_eq_none_of_digit {c : Char} {rest : List Char} (hc : c.isDigit = true) :
    specialNumber? (asciiLower (c :: rest)) = none := by
  have hlower : c.toLower = c := by
    refine Char.toLower_eq_of_not_isUpper fun hupper => ?_
    rw [isDigit_of_isAlpha (by simp [Char.isAlpha, hupper])] at hc
    cases hc
  unfold specialNumber? asciiLower
  rw [List.map_cons, hlower, if_neg, if_neg]
  · rintro heq
    obtain ⟨rfl, -⟩ := List.cons.inj heq
    exact absurd hc (by decide)
  · rintro (heq | heq)
    all_goals
      obtain ⟨rfl, -⟩ := List.cons.inj heq
      exact absurd hc (by decide)

theorem takeSign_of_hasDecimalForm (h : HasDecimalForm n) :
    HasUnsignedForm (takeSign n).2 ∧ ∀ c ∈ (takeSign n).2, c ∈ n := by
  rcases h with h | ⟨unsigned, rfl, h⟩
  · obtain ⟨c, rest, rfl, hc⟩ := h.exists_head
    have hsign : ∀ d, isDecimalDigit d = false → c ≠ d := by
      rintro d hd rfl
      rw [hd] at hc
      cases hc
    rw [takeSign_cons (hsign '-' (by decide)) (hsign '+' (by decide))]
    exact ⟨h, fun _ => id⟩
  · exact ⟨h, fun _ => List.mem_cons_of_mem '-'⟩

/-- Without a sign and a point, the magnitude is the number that the digits denote. -/
theorem magnitude_of_isDigit (hn : ∀ c ∈ n, c.isDigit = true) : magnitude n = numeralValue n := by
  have hpoint : splitFirst '.' n = none :=
    splitFirst_eq_none_iff.2 fun hmem => absurd (hn '.' hmem) (by decide)
  rw [magnitude, takeSign_of_isDigit hn, hpoint]

/-- A decimal in ASCII digits is read as the number nearest to its magnitude, with its sign. -/
theorem readFloat?_of_hasDecimalForm (h : HasDecimalForm n)
    (hn : ∀ c ∈ n, isNumberLetter c = true) :
    ∃ d : Decimal, d.value = magnitude n ∧
      readFloat? n = some (if (takeSign n).1 then -d.toFloat else d.toFloat) := by
  obtain ⟨hform, hmem⟩ := takeSign_of_hasDecimalForm h
  have hunsigned : ∀ c ∈ (takeSign n).2, isNumberLetter c = true := fun c hc => hn c (hmem c hc)
  obtain ⟨d, hread, hvalue⟩ := exists_readDecimal? hform hunsigned
  obtain ⟨c, rest, heq, hc⟩ := hform.exists_head
  have hdigit : c.isDigit = true :=
    isDigit_of_isNumberLetter hc (hunsigned c (heq ▸ List.mem_cons_self))
  have hspecial : specialNumber? (asciiLower (takeSign n).2) = none := by
    rw [heq]
    exact specialNumber?_eq_none_of_digit hdigit
  exact ⟨d, hvalue, by simp [readFloat?, hspecial, hread]⟩

end OccurrenceQuery.Number
