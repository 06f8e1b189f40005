/-
The form of ranges of numbers. A text has two sides exactly when it is a side, white space, a comma,
white space and a side, where a side is a decimal or the wildcard; the sides are then unique, because
neither white space nor a comma occurs in them.
-/
import OccurrenceQuery.Proofs.WhiteSpace
import OccurrenceQuery.Range.Numeric

namespace OccurrenceQuery.Range

open OccurrenceQuery.Text

/-! ## Decimals -/

/-- One or more digits, of any script. -/
def AreDigits (cs : List Char) : Prop := cs ≠ [] ∧ ∀ c ∈ cs, isDecimalDigit c = true

/-- Digits, and a point with digits after it or nothing. -/
def HasUnsignedForm (cs : List Char) : Prop :=
  AreDigits cs ∨ ∃ whole fraction, cs = whole ++ '.' :: fraction ∧ AreDigits whole ∧
    AreDigits fraction

/-- A decimal without sign, or a minus and one. -/
def HasDecimalForm (cs : List Char) : Prop :=
  HasUnsignedForm cs ∨ ∃ unsigned, cs = '-' :: unsigned ∧ HasUnsignedForm unsigned

theorem isDigits_iff {cs : List Char} : isDigits cs = true ↔ AreDigits cs := by
  simp [isDigits, AreDigits]

theorem areDigits_of_isNumeral {cs : List Char} (h : isNumeral cs = true) : AreDigits cs := by
  refine ⟨?_, fun c hc => by simp [isDecimalDigit, isDigit_of_isNumeral h hc]⟩
  rintro rfl
  cases h

theorem AreDigits.free {cs : List Char} (h : AreDigits cs) {c : Char}
    (hc : isDecimalDigit c = false) : c ∉ cs := by
  intro hmem
  rw [h.2 c hmem] at hc
  cases hc

theorem isUnsigned_iff {cs : List Char} :
    (match splitFirst '.' cs with
      | some (whole, fraction) => isDigits whole && isDigits fraction
      | none => isDigits cs) = true ↔ HasUnsignedForm cs := by
  have hpoint : ∀ {digits : List Char}, AreDigits digits → '.' ∉ digits :=
    fun h => h.free (by decide)
  cases hsplit : splitFirst '.' cs with
  | none =>
    rw [splitFirst_eq_none_iff] at hsplit
    simp only [isDigits_iff, HasUnsignedForm]
    refine ⟨.inl, Or.rec id ?_⟩
    rintro ⟨whole, fraction, rfl, -⟩
    simp at hsplit
  | some parts =>
    obtain ⟨whole, fraction⟩ := parts
    have hcs := splitFirst_eq_some_iff.1 hsplit
    simp only [Bool.and_eq_true, isDigits_iff]
    constructor
    · rintro ⟨hwhole, hfraction⟩
      exact .inr ⟨whole, fraction, hcs.1, hwhole, hfraction⟩
    · rintro (hdigits | ⟨whole', fraction', rfl, hwhole, hfraction⟩)
      · exact absurd (by simp [hcs.1]) (hpoint hdigits)
      · rw [splitFirst_append (hpoint hwhole)] at hsplit
        obtain ⟨rfl, rfl⟩ := Prod.mk.inj (Option.some.inj hsplit)
        exact ⟨hwhole, hfraction⟩

theorem HasUnsignedForm.exists_head {cs : List Char} (h : HasUnsignedForm cs) :
    ∃ c rest, cs = c :: rest ∧ isDecimalDigit c = true := by
  have hhead : ∀ {digits : List Char}, AreDigits digits →
      ∃ c rest, digits = c :: rest ∧ isDecimalDigit c = true := by
    intro digits hdigits
    obtain ⟨c, rest, rfl⟩ := List.exists_cons_of_ne_nil hdigits.1
    exact ⟨c, rest, rfl, hdigits.2 c List.mem_cons_self⟩
  rcases h with hdigits | ⟨whole, fraction, rfl, hwhole, -⟩
  · exact hhead hdigits
  · obtain ⟨c, rest, rfl, hc⟩ := hhead hwhole
    exact ⟨c, rest ++ '.' :: fraction, rfl, hc⟩

theorem HasDecimalForm.ne_nil {cs : List Char} (h : HasDecimalForm cs) : cs ≠ [] := by
  rcases h with h | ⟨unsigned, rfl, -⟩
  · obtain ⟨c, rest, rfl, -⟩ := h.exists_head
    exact List.cons_ne_nil c rest
  · exact List.cons_ne_nil '-' unsigned

theorem isDecimal_iff {cs : List Char} : isDecimal cs = true ↔ HasDecimalForm cs := by
  unfold isDecimal HasDecimalForm
  by_cases hminus : ∃ unsigned, cs = '-' :: unsigned
  · obtain ⟨unsigned, rfl⟩ := hminus
    have hdrop : (dropLeading? ['-'] ('-' :: unsigned)).getD ('-' :: unsigned) = unsigned := rfl
    rw [hdrop]
    refine isUnsigned_iff.trans ⟨fun h => .inr ⟨unsigned, rfl, h⟩, ?_⟩
    rintro (h | ⟨unsigned', heq, h⟩)
    · obtain ⟨c, rest, heq, hc⟩ := h.exists_head
      obtain ⟨rfl, -⟩ := List.cons.inj heq
      exact absurd hc (by decide)
    · exact (List.cons.inj heq).2 ▸ h
  · have hdrop : (dropLeading? ['-'] cs).getD cs = cs := by
      cases cs with
      | nil => rfl
      | cons c rest =>
        have hc : ¬ '-' = c := fun heq => hminus ⟨rest, heq ▸ rfl⟩
        simp [dropLeading?, hc]
    rw [hdrop]
    refine isUnsigned_iff.trans ⟨.inl, Or.rec id ?_⟩
    rintro ⟨unsigned, rfl, -⟩
    exact absurd ⟨unsigned, rfl⟩ hminus

theorem HasUnsignedForm.mem {cs : List Char} (h : HasUnsignedForm cs) {c : Char} (hc : c ∈ cs) :
    isDecimalDigit c = true ∨ c = '.' := by
  rcases h with hdigits | ⟨whole, fraction, rfl, hwhole, hfraction⟩
  · exact .inl (hdigits.2 c hc)
  · rcases List.mem_append.1 hc with hmem | hmem
    · exact .inl (hwhole.2 c hmem)
    · exact (List.mem_cons.1 hmem).symm.imp_left (hfraction.2 c)

theorem HasDecimalForm.mem {cs : List Char} (h : HasDecimalForm cs) {c : Char} (hc : c ∈ cs) :
    isDecimalDigit c = true ∨ c = '.' ∨ c = '-' := by
  rcases h with h | ⟨unsigned, rfl, h⟩
  · exact (h.mem hc).imp_right .inl
  · rcases List.mem_cons.1 hc with hminus | hmem
    · exact .inr (.inr hminus)
    · exact (h.mem hmem).imp_right .inl

theorem not_hasDecimalForm_wildcard : ¬ HasDecimalForm wildcard := fun h =>
  absurd (h.mem List.mem_cons_self) (by decide)

/-! ## Sides -/

/-- A side of a range: a decimal or the wildcard. -/
def IsSide (cs : List Char) : Prop := HasDecimalForm cs ∨ cs = wildcard

theorem isSide_iff {cs : List Char} : isSide cs = true ↔ IsSide cs := by
  simp [isSide, IsSide, isDecimal_iff]

/-- A text is two sides with a comma between them and white space around the comma. -/
def HasSides (cs lower upper : List Char) : Prop :=
  IsSide lower ∧ IsSide upper ∧ ∃ left right, cs = lower ++ left ++ ',' :: (right ++ upper) ∧
    (∀ c ∈ left, isWhiteSpace c = true) ∧ ∀ c ∈ right, isWhiteSpace c = true

theorem IsSide.mem {cs : List Char} (h : IsSide cs) {c : Char} (hc : c ∈ cs) :
    isDecimalDigit c = true ∨ c = '.' ∨ c = '-' ∨ c = '*' := by
  rcases h with h | rfl
  · rcases h.mem hc with hdigit | hpoint | hminus
    · exact .inl hdigit
    · exact .inr (.inl hpoint)
    · exact .inr (.inr (.inl hminus))
  · exact .inr (.inr (.inr (List.mem_singleton.1 hc)))

theorem IsSide.not_blank {cs : List Char} (h : IsSide cs) {c : Char} (hc : c ∈ cs) :
    isWhiteSpace c = false := by
  rcases h.mem hc with hdigit | rfl | rfl | rfl
  · exact isWhiteSpace_of_isDecimalDigit hdigit
  all_goals decide

theorem IsSide.free {cs : List Char} (h : IsSide cs) : ',' ∉ cs := by
  intro hc
  rcases h.mem hc with hdigit | heq | heq | heq
  · exact absurd hdigit (by decide)
  all_goals exact absurd heq (by decide)

theorem sides?_eq_some_iff {cs lower upper : List Char} :
    sides? cs = some (lower, upper) ↔ HasSides cs lower upper := by
  simp only [sides?, Option.bind_eq_some_iff, Prod.exists, Option.ite_none_right_eq_some,
    Bool.and_eq_true, isSide_iff, Option.some.injEq, Prod.mk.injEq, splitFirst_eq_some_iff]
  constructor
  · rintro ⟨before, after, ⟨rfl, -⟩, ⟨hlower, hupper⟩, rfl, rfl⟩
    obtain ⟨left, hleft, hleftBlank⟩ := exists_trimEnd before
    obtain ⟨right, hright, hrightBlank⟩ := exists_trimStart after
    exact ⟨hlower, hupper, left, right, by rw [← hleft, ← hright], hleftBlank, hrightBlank⟩
  · rintro ⟨hlower, hupper, left, right, rfl, hleft, hright⟩
    have hend : trimEnd (lower ++ left) = lower :=
      trimEnd_append hleft fun c => hlower.not_blank
    have hstart : trimStart (right ++ upper) = upper :=
      trimStart_append hright fun c => hupper.not_blank
    have hfree : ',' ∉ lower ++ left := by
      intro hmem
      rcases List.mem_append.1 hmem with hmem | hmem
      · exact hlower.free hmem
      · exact absurd (hleft ',' hmem) (by decide)
    exact ⟨lower ++ left, right ++ upper, ⟨rfl, hfree⟩, by rw [hend, hstart]; exact ⟨hlower, hupper⟩,
      hend, hstart⟩

/-! ## Ranges -/

/-- A text is read as a range when it has two sides that are read as its bounds, in order. -/
theorem readRange_eq_ok_iff {α : Type} [LT α] [DecidableLT α] {what text : String}
    {element? : List Char → Option α} {r : Range α} :
    readRange what element? text = .ok r ↔ ∃ lower upper, HasSides text.toList lower upper ∧
      readBound? element? lower = some r.lower ∧ readBound? element? upper = some r.upper ∧
      between? r.lower r.upper = some r := by
  unfold readRange
  dsimp only
  constructor
  · intro h
    split at h
    · cases h
    · rename_i a b hbounds
      simp only [Option.bind_eq_bind, Option.bind_eq_some_iff, Prod.exists, Option.pure_def,
        Option.some.injEq, Prod.mk.injEq] at hbounds
      obtain ⟨lower, upper, hsides, _, ha, _, hb, rfl, rfl⟩ := hbounds
      split at h
      · cases h
      · rename_i r' hbetween
        cases h
        obtain rfl := eq_of_between? hbetween
        exact ⟨lower, upper, sides?_eq_some_iff.1 hsides, ha, hb, hbetween⟩
  · rintro ⟨lower, upper, hsides, ha, hb, hbetween⟩
    simp [sides?_eq_some_iff.2 hsides, ha, hb, hbetween]

end OccurrenceQuery.Range
