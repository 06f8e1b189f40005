/-
The letters of numbers. Every character of a text that is read as a number is an ASCII digit, a sign,
a point or an ASCII letter.
-/
import Mathlib
import OccurrenceQuery.Number.Reader
import OccurrenceQuery.Proofs.WhiteSpace

namespace OccurrenceQuery.Number

open OccurrenceQuery.Text

/-- Whether `c` can stand in a number. -/
def isNumberLetter (c : Char) : Bool := c.isAlphanum || c == '-' || c == '+' || c == '.'

variable {cs : List Char} {c : Char}

theorem isDigit_eq_false (hc : isNumberLetter c = false) : c.isDigit = false := by
  simp only [isNumberLetter, Char.isAlphanum, Bool.or_eq_false_iff] at hc
  exact hc.1.1.1.2

theorem toLower_eq_self (hc : isNumberLetter c = false) : c.toLower = c := by
  refine Char.toLower_eq_of_not_isUpper fun hupper => ?_
  simp [isNumberLetter, Char.isAlphanum, Char.isAlpha, hupper] at hc

theorem isNumberLetter_of_isWhiteSpace (hc : isWhiteSpace c = true) : isNumberLetter c = false := by
  rw [Bool.eq_false_iff]
  intro hletter
  simp only [isNumberLetter, Char.isAlphanum, Bool.or_eq_true, beq_iff_eq] at hletter
  rcases hletter with (((halpha | hdigit) | rfl) | rfl) | rfl
  · exact not_inRanges_of_isAlpha (by decide) halpha hc
  · rw [isWhiteSpace_of_isDecimalDigit (by simp [isDecimalDigit, hdigit])] at hc
    cases hc
  all_goals exact absurd hc (by decide)

theorem takeSign_cases (cs : List Char) :
    (∃ rest, cs = '-' :: rest ∧ takeSign cs = (true, rest)) ∨
      (∃ rest, cs = '+' :: rest ∧ takeSign cs = (false, rest)) ∨ takeSign cs = (false, cs) := by
  unfold takeSign
  split
  · exact .inl ⟨_, rfl, rfl⟩
  · exact .inr (.inl ⟨_, rfl, rfl⟩)
  · exact .inr (.inr rfl)

theorem takeSign_cons (hminus : c ≠ '-') (hplus : c ≠ '+') (cs : List Char) :
    takeSign (c :: cs) = (false, c :: cs) := by
  rcases takeSign_cases (c :: cs) with ⟨rest, heq, -⟩ | ⟨rest, heq, -⟩ | hsign
  · exact absurd (List.cons.inj heq).1 hminus
  · exact absurd (List.cons.inj heq).1 hplus
  · exact hsign

theorem takeSign_of_isDigit (h : ∀ c ∈ cs, c.isDigit = true) : takeSign cs = (false, cs) := by
  rcases takeSign_cases cs with ⟨rest, rfl, -⟩ | ⟨rest, rfl, -⟩ | hsign
  · exact absurd (h '-' List.mem_cons_self) (by decide)
  · exact absurd (h '+' List.mem_cons_self) (by decide)
  · exact hsign

theorem mem_takeSign (hc : isNumberLetter c = false) (h : c ∈ cs) : c ∈ (takeSign cs).2 := by
  unfold takeSign
  split
  · rcases List.mem_cons.1 h with rfl | hmem
    · exact absurd hc (by decide)
    · exact hmem
  · rcases List.mem_cons.1 h with rfl | hmem
    · exact absurd hc (by decide)
    · exact hmem
  · exact h

theorem isNumeral_eq_false_of_mem (hc : isNumberLetter c = false) (h : c ∈ cs) :
    isNumeral cs = false := by
  rw [Bool.eq_false_iff]
  intro hn
  exact not_mem_of_isNumeral hn (isDigit_eq_false hc) h

theorem mem_dropWhile_isDigit (hc : isNumberLetter c = false) (h : c ∈ cs) :
    c ∈ cs.dropWhile Char.isDigit := by
  rw [← List.takeWhile_append_dropWhile (p := Char.isDigit) (l := cs)] at h
  refine (List.mem_append.1 h).resolve_left fun hmem => ?_
  exact Bool.eq_false_iff.1 (isDigit_eq_false hc) (List.mem_takeWhile_imp hmem)

theorem readExponent?_eq_none_of_mem (hc : isNumberLetter c = false) (h : c ∈ cs) :
    readExponent? cs = none := by
  cases cs with
  | nil => cases h
  | cons mark cs =>
    unfold readExponent?
    rcases List.mem_cons.1 h with rfl | hmem
    · have hmark : (c == 'e' || c == 'E') = false := by
        rw [Bool.eq_false_iff]
        intro hmark
        rcases Bool.or_eq_true_iff.1 hmark with he | he <;>
          rw [eq_of_beq he] at hc <;> exact absurd hc (by decide)
      simp [hmark]
    · simp [isNumeral_eq_false_of_mem hc (mem_takeSign hc hmem)]

theorem readDecimal?_eq_none_of_mem (hc : isNumberLetter c = false) (h : c ∈ cs) :
    readDecimal? cs = none := by
  have hmem := mem_dropWhile_isDigit hc h
  unfold readDecimal?
  generalize cs.dropWhile Char.isDigit = rest at hmem
  -- the character is neither digit nor point, so it is left for the exponent
  split
  rename_i fraction exponent hparts
  have hexponent : c ∈ exponent := by
    split at hparts
    · obtain ⟨-, rfl⟩ := Prod.mk.inj hparts
      rcases List.mem_cons.1 hmem with rfl | hrest
      · exact absurd hc (by decide)
      · exact mem_dropWhile_isDigit hc hrest
    · obtain ⟨-, rfl⟩ := Prod.mk.inj hparts
      exact hmem
  simp [readExponent?_eq_none_of_mem hc hexponent]

theorem specialNumber?_eq_none_of_mem (hc : isNumberLetter c = false) (h : c ∈ cs) :
    specialNumber? cs = none := by
  have hword : ∀ word : List Char, (∀ d ∈ word, isNumberLetter d = true) → cs ≠ word := by
    rintro word hword rfl
    rw [hword c h] at hc
    cases hc
  unfold specialNumber?
  rw [if_neg, if_neg]
  · exact hword _ (List.forall_iff_forall_mem.1 (by decide))
  · rintro (heq | heq)
    · exact hword _ (List.forall_iff_forall_mem.1 (by decide)) heq
    · exact hword _ (List.forall_iff_forall_mem.1 (by decide)) heq

theorem readFloat?_eq_none_of_mem (hc : isNumberLetter c = false) (h : c ∈ cs) :
    readFloat? cs = none := by
  have hunsigned := mem_takeSign hc h
  have hlower : c ∈ asciiLower (takeSign cs).2 :=
    List.mem_map.2 ⟨c, hunsigned, toLower_eq_self hc⟩
  simp [readFloat?, specialNumber?_eq_none_of_mem hc hlower,
    readDecimal?_eq_none_of_mem hc hunsigned]

theorem readInteger?_eq_none_of_mem (hc : isNumberLetter c = false) (h : c ∈ cs) :
    readInteger? cs = none := by
  simp [readInteger?, isNumeral_eq_false_of_mem hc (mem_takeSign hc h)]

/-- Every character of a number can stand in one. -/
theorem isNumberLetter_of_readFloat? {x : Float} (h : readFloat? cs = some x) (hc : c ∈ cs) :
    isNumberLetter c = true := by
  by_contra hnot
  rw [readFloat?_eq_none_of_mem (Bool.eq_false_iff.2 hnot) hc] at h
  cases h

end OccurrenceQuery.Number
