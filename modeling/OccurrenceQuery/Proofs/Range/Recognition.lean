/-
Recognised ranges. A text is recognised as a range of decimals by its form, in which the digits of every
script count as digits; its numbers are read in ASCII digits only. So the texts that are recognised are
those that are read, or refused for the order of their bounds, but for texts with a digit of another
script: these are recognised and then refused as malformed.
-/
import OccurrenceQuery.Proofs.Number.Magnitude
import OccurrenceQuery.Proofs.Range.Report

namespace OccurrenceQuery.Range

open OccurrenceQuery.Text OccurrenceQuery.Number

/-! ## Digits of other scripts -/

/-- Whether a text has a decimal digit outside ASCII. -/
def HasForeignDigit (cs : List Char) : Prop :=
  ∃ c ∈ cs, isDecimalDigit c = true ∧ c.isDigit = false

instance (cs : List Char) : Decidable (HasForeignDigit cs) :=
  List.decidableBEx (fun c => isDecimalDigit c = true ∧ c.isDigit = false) cs

section

variable {cs ds side lower upper : List Char}

theorem hasForeignDigit_append_iff :
    HasForeignDigit (cs ++ ds) ↔ HasForeignDigit cs ∨ HasForeignDigit ds := by
  simp only [HasForeignDigit, List.mem_append, or_and_right, exists_or]

theorem hasForeignDigit_cons_iff {c : Char} (hc : isDecimalDigit c = false) :
    HasForeignDigit (c :: cs) ↔ HasForeignDigit cs := by
  simp [HasForeignDigit, hc]

theorem not_hasForeignDigit_of_spaces (h : Spaces cs) : ¬ HasForeignDigit cs := by
  rintro ⟨c, hc, hdigit, -⟩
  have hsolid := isWhiteSpace_of_isDecimalDigit hdigit
  rw [h c hc] at hsolid
  cases hsolid

/-- Only the sides of a range have digits. -/
theorem HasSides.hasForeignDigit_iff (h : HasSides cs lower upper) :
    HasForeignDigit cs ↔ HasForeignDigit lower ∨ HasForeignDigit upper := by
  obtain ⟨-, -, left, right, rfl, hleft, hright⟩ := h
  rw [hasForeignDigit_append_iff, hasForeignDigit_append_iff,
    hasForeignDigit_cons_iff (by decide), hasForeignDigit_append_iff,
    or_iff_left (not_hasForeignDigit_of_spaces hleft),
    or_iff_right (not_hasForeignDigit_of_spaces hright)]

/-- A decimal is read as a number unless it has a digit of another script. -/
theorem readFloat?_eq_none_iff (h : HasDecimalForm side) :
    readFloat? side = none ↔ HasForeignDigit side := by
  constructor
  · intro hnone
    by_contra hforeign
    -- digits, point and minus are all in ASCII then, and such a decimal is always read
    have hletters : ∀ c ∈ side, isNumberLetter c = true := by
      intro c hc
      rcases h.mem hc with hdigit | rfl | rfl
      · have hascii : c.isDigit = true := by
          by_contra hnot
          exact hforeign ⟨c, hc, hdigit, Bool.eq_false_iff.2 hnot⟩
        simp [isNumberLetter, Char.isAlphanum, hascii]
      · decide
      · decide
    obtain ⟨d, -, hread⟩ := readFloat?_of_hasDecimalForm h hletters
    rw [hnone] at hread
    cases hread
  · rintro ⟨c, hc, hdigit, hforeign⟩
    refine readFloat?_eq_none_of_mem (Bool.eq_false_iff.2 fun hletter => ?_) hc
    rw [isDigit_of_isNumberLetter hdigit hletter] at hforeign
    cases hforeign

theorem readBound?_eq_none_iff (h : IsSide side) :
    readBound? readFloat? side = none ↔ HasForeignDigit side := by
  unfold readBound?
  rcases h with h | rfl
  · rw [if_neg, Option.map_eq_none_iff, readFloat?_eq_none_iff h]
    rintro rfl
    exact not_hasDecimalForm_wildcard h
  · exact iff_of_false (by simp) (by decide)

end

/-! ## Malformed ranges -/

section

variable {α : Type} [LT α] [DecidableLT α] {what text : String} {element? : List Char → Option α}

/-- A range is read, refused for the order of its bounds, or malformed. -/
theorem readRange_cases (what : String) (element? : List Char → Option α) (text : String) :
    (∃ r, readRange what element? text = .ok r) ∨
      readRange what element? text = .error (.range (.exceeds "bound" text)) ∨
      readRange what element? text = .error (.value (.malformedRange what text)) := by
  unfold readRange
  dsimp only
  split
  · exact .inr (.inr rfl)
  · split
    · exact .inr (.inl rfl)
    · exact .inl ⟨_, rfl⟩

/-- A text is malformed when it has no two sides, or one of its sides denotes no bound. -/
theorem readRange_eq_malformed_iff :
    readRange what element? text = .error (.value (.malformedRange what text)) ↔
      ∀ lower upper, HasSides text.toList lower upper →
        readBound? element? lower = none ∨ readBound? element? upper = none := by
  unfold readRange
  dsimp only
  constructor
  · intro hmalformed lower upper hsides
    by_contra hbounds
    obtain ⟨⟨a, ha⟩, b, hb⟩ := (not_or.1 hbounds).imp Option.ne_none_iff_exists'.1
      Option.ne_none_iff_exists'.1
    simp only [sides?_eq_some_iff.2 hsides, ha, hb, Option.bind_eq_bind, Option.bind_some,
      Option.pure_def] at hmalformed
    split at hmalformed
    · cases hmalformed
    · cases hmalformed
  · intro hbounds
    split
    · rfl
    · rename_i a b hread
      simp only [Option.bind_eq_bind, Option.bind_eq_some_iff, Prod.exists, Option.pure_def,
        Option.some.injEq, Prod.mk.injEq] at hread
      obtain ⟨lower, upper, hsides, _, ha, _, hb, -⟩ := hread
      have hnone := hbounds lower upper (sides?_eq_some_iff.1 hsides)
      simp [ha, hb] at hnone

end

/-! ## Recognition -/

variable {text : String}

theorem isNumeric_iff : isNumeric text = true ↔ ∃ lower upper, HasSides text.toList lower upper := by
  simp only [isNumeric, Option.isSome_iff_exists, Prod.exists, sides?_eq_some_iff]

/-- A text is read as a range of decimals, or refused for the order of its bounds alone. -/
def IsRead (text : String) : Prop :=
  (∃ r, readDecimals text = .ok r) ∨
    ∃ rejection, readDecimals text = .error rejection ∧ rejection.kind = .invalidRange

/-- A text is refused as no range of decimals. -/
def IsMalformed (text : String) : Prop :=
  ∃ rejection, readDecimals text = .error rejection ∧ rejection.kind = .invalidValue

theorem isRead_iff_not_isMalformed : IsRead text ↔ ¬ IsMalformed text := by
  rcases readRange_cases "decimal" readFloat? text with ⟨r, h⟩ | h | h <;>
    simp [IsRead, IsMalformed, readDecimals, h, Rejection.kind]

theorem isMalformed_iff : IsMalformed text ↔
    readDecimals text = .error (.value (.malformedRange "decimal" text)) := by
  rcases readRange_cases "decimal" readFloat? text with ⟨r, h⟩ | h | h <;>
    simp [IsMalformed, readDecimals, h, Rejection.kind]

theorem isMalformed_iff_hasForeignDigit (h : isNumeric text = true) :
    IsMalformed text ↔ HasForeignDigit text.toList := by
  obtain ⟨lower, upper, hsides⟩ := isNumeric_iff.1 h
  rw [isMalformed_iff, readDecimals, readRange_eq_malformed_iff, hsides.hasForeignDigit_iff,
    ← readBound?_eq_none_iff hsides.1, ← readBound?_eq_none_iff hsides.2.1]
  refine ⟨fun hall => hall lower upper hsides, fun hnone lower' upper' hsides' => ?_⟩
  -- a text has at most one pair of sides
  have heq := (sides?_eq_some_iff.2 hsides').symm.trans (sides?_eq_some_iff.2 hsides)
  obtain ⟨rfl, rfl⟩ := Prod.mk.inj (Option.some.inj heq)
  exact hnone

theorem isMalformed_of_not_isNumeric (h : isNumeric text = false) : IsMalformed text := by
  rw [isMalformed_iff, readDecimals, readRange_eq_malformed_iff]
  intro lower upper hsides
  rw [isNumeric_iff.2 ⟨lower, upper, hsides⟩] at h
  cases h

/-- Recognition agrees with reading but for digits of other scripts. A text is read exactly when it is
recognised and has no such digit, and is malformed otherwise; the texts that are recognised without being
read are those with such a digit. -/
theorem recognition_agrees_iff (text : String) :
    (IsRead text ↔ isNumeric text = true ∧ ¬ HasForeignDigit text.toList) ∧
      (IsMalformed text ↔ isNumeric text = false ∨ HasForeignDigit text.toList) ∧
      (((isNumeric text = true ↔ IsRead text) ∧ (isNumeric text = false ↔ IsMalformed text)) ↔
        ¬ (isNumeric text = true ∧ HasForeignDigit text.toList)) := by
  rw [isRead_iff_not_isMalformed]
  cases h : isNumeric text with
  | true => simp [isMalformed_iff_hasForeignDigit h]
  | false => simp [isMalformed_of_not_isNumeric h]

/-- A range in Arabic-Indic digits is recognised and then refused as malformed. -/
theorem foreign_digits_malformed : isNumeric "\u0661,\u0669" = true ∧
    readDecimals "\u0661,\u0669" = .error (.value (.malformedRange "decimal" "\u0661,\u0669")) := by
  refine ⟨by decide +kernel, isMalformed_iff.1 ?_⟩
  exact (isMalformed_iff_hasForeignDigit (by decide +kernel)).2 (by decide +kernel)

end OccurrenceQuery.Range
