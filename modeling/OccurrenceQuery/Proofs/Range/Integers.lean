/-
The grammar of integers. A text denotes integers when it is one, with an optional sign, or a range whose
sides are integers with an optional minus or wildcards, in order. All of them have to fit in 32 bits and
are written in ASCII digits, although the form of a range admits fractions and the digits of every script.
-/
import OccurrenceQuery.Proofs.Range.Report
import OccurrenceQuery.Validation

namespace OccurrenceQuery.Range

open OccurrenceQuery.Text OccurrenceQuery.Number

/-! ## Integers -/

/-- The text of an integer: one of the admitted signs or none, and ASCII digits. -/
inductive IsInteger (signs : List Char) : List Char → Int → Prop where
  | unsigned {digits : List Char} (h : isNumeral digits = true) :
    IsInteger signs digits (numeralValue digits)
  | plus {digits : List Char} (hsign : '+' ∈ signs) (h : isNumeral digits = true) :
    IsInteger signs ('+' :: digits) (numeralValue digits)
  | minus {digits : List Char} (hsign : '-' ∈ signs) (h : isNumeral digits = true) :
    IsInteger signs ('-' :: digits) (-numeralValue digits)

/-- An integer fits into 32 bits with a sign. -/
def IsInt32 (n : Int) : Prop := -2 ^ 31 ≤ n ∧ n < 2 ^ 31

variable {cs : List Char} {n : Int}

theorem IsInteger.mono {signs signs' : List Char} (hsub : ∀ c ∈ signs, c ∈ signs')
    (h : IsInteger signs cs n) : IsInteger signs' cs n := by
  cases h with
  | unsigned h => exact .unsigned h
  | plus hsign h => exact .plus (hsub _ hsign) h
  | minus hsign h => exact .minus (hsub _ hsign) h

theorem readInteger?_eq_some_iff : readInteger? cs = some n ↔ IsInteger ['+', '-'] cs n := by
  constructor
  · intro h
    rcases takeSign_cases cs with ⟨rest, rfl, hsign⟩ | ⟨rest, rfl, hsign⟩ | hsign
    all_goals
      simp only [readInteger?, hsign, Option.ite_none_right_eq_some, Option.some.injEq] at h
      obtain ⟨hdigits, rfl⟩ := h
    · exact .minus (by simp) hdigits
    · exact .plus (by simp) hdigits
    · exact .unsigned hdigits
  · intro h
    cases h with
    | unsigned h => simp [readInteger?, takeSign_of_isDigit fun _ => isDigit_of_isNumeral h, h]
    | plus _ h => simp [readInteger?, takeSign, h]
    | minus _ h => simp [readInteger?, takeSign, h]

theorem readInt32?_eq_some_iff :
    readInt32? cs = some n ↔ IsInteger ['+', '-'] cs n ∧ IsInt32 n := by
  rw [readInt32?, Option.filter_eq_some_iff, readInteger?_eq_some_iff]
  refine and_congr_right fun _ => ?_
  simp only [fitsInt32, IsInt32, Bool.and_eq_true, decide_eq_true_eq]
  omega

/-! ## Sides -/

/-- A decimal that is read as an integer has neither a plus nor a fraction nor foreign digits. -/
theorem hasDecimalForm_and_isInteger_iff :
    HasDecimalForm cs ∧ IsInteger ['+', '-'] cs n ↔ IsInteger ['-'] cs n := by
  constructor
  · rintro ⟨hform, h⟩
    cases h with
    | unsigned h => exact .unsigned h
    | plus _ h => exact absurd (hform.mem List.mem_cons_self) (by decide)
    | minus _ h => exact .minus List.mem_cons_self h
  · intro h
    refine ⟨?_, h.mono (by simp)⟩
    cases h with
    | unsigned h => exact .inl (.inl (areDigits_of_isNumeral h))
    | plus hsign h => exact absurd hsign (by decide)
    | minus _ h => exact .inr ⟨_, rfl, .inl (areDigits_of_isNumeral h)⟩

/-- A side of a range of integers: the wildcard, or an integer of 32 bits with an optional minus. -/
def IsIntegerSide (cs : List Char) : Option Int → Prop
  | none => cs = wildcard
  | some n => IsInteger ['-'] cs n ∧ IsInt32 n

theorem IsIntegerSide.isSide {a : Option Int} (h : IsIntegerSide cs a) : IsSide cs := by
  cases a with
  | none => exact .inr h
  | some n => exact .inl (hasDecimalForm_and_isInteger_iff.2 h.1).1

theorem readBound?_eq_some_iff (hside : IsSide cs) {a : Option Int} :
    readBound? readInt32? cs = some a ↔ IsIntegerSide cs a := by
  cases a with
  | none =>
    unfold readBound?
    split <;> rename_i h <;> simp [IsIntegerSide, h]
  | some n =>
    rw [readBound?_eq_some_some_iff, readInt32?_eq_some_iff, IsIntegerSide]
    constructor
    · rintro ⟨hne, h, hn⟩
      exact ⟨hasDecimalForm_and_isInteger_iff.1 ⟨hside.resolve_right hne, h⟩, hn⟩
    · rintro ⟨h, hn⟩
      obtain ⟨hform, hread⟩ := hasDecimalForm_and_isInteger_iff.2 h
      refine ⟨?_, hread, hn⟩
      rintro rfl
      exact not_hasDecimalForm_wildcard hform

/-! ## Texts -/

/-- The integers that a text denotes, the lower one first. -/
inductive DenotesIntegers : List Char → List Int → Prop where
  | single {cs : List Char} {n : Int} (h : IsInteger ['+', '-'] cs n) (hn : IsInt32 n) :
    DenotesIntegers cs [n]
  | range {lower left right upper : List Char} {a b : Option Int} (hlower : IsIntegerSide lower a)
    (hleft : Spaces left) (hright : Spaces right) (hupper : IsIntegerSide upper b)
    (horder : ∀ m n, a = some m → b = some n → m ≤ n) :
    DenotesIntegers (lower ++ left ++ ',' :: (right ++ upper)) (a.toList ++ b.toList)

variable {text : String} {values : List Int}

theorem readIntegers_eq_ok_iff {r : Range Int} : readIntegers text = .ok r ↔
    ∃ lower upper, HasSides text.toList lower upper ∧ IsIntegerSide lower r.lower ∧
      IsIntegerSide upper r.upper ∧ ∀ m n, r.lower = some m → r.upper = some n → m ≤ n := by
  simp only [readIntegers, readRange_eq_ok_iff, between?_eq_some_iff, not_lt, true_and]
  refine exists₂_congr fun lower upper => and_congr_right fun hsides => ?_
  rw [readBound?_eq_some_iff hsides.1, readBound?_eq_some_iff hsides.2.1]

theorem DenotesIntegers.ne_nil (h : DenotesIntegers cs values) : cs ≠ [] := by
  cases h with
  | single h _ =>
    rintro rfl
    cases h with
    | unsigned h => cases h
  | range => simp

theorem integers_eq_ok_iff : integers text = .ok values ↔ DenotesIntegers text.toList values := by
  unfold integers
  constructor
  · intro h
    split at h
    · cases h
    · split at h
      · rename_i n hread
        cases h
        obtain ⟨h, hn⟩ := readInt32?_eq_some_iff.1 hread
        exact .single h hn
      · obtain ⟨r, hr, hvalues⟩ := bind_eq_ok_iff.1 h
        cases hvalues
        obtain ⟨lower, upper, ⟨-, -, left, right, htext, hleft, hright⟩, hlower, hupper, horder⟩ :=
          readIntegers_eq_ok_iff.1 hr
        rw [htext]
        exact .range hlower hleft hright hupper horder
  · intro h
    have hne := h.ne_nil
    rw [if_neg (by rwa [String.isEmpty_iff, ← String.toList_eq_nil_iff])]
    generalize htext : text.toList = cs at h
    cases h with
    | single h hn => rw [readInt32?_eq_some_iff.2 ⟨h, hn⟩]
    | @range lower left right upper a b hlower hleft hright hupper horder =>
      have hread : readIntegers text = .ok ⟨a, b⟩ := readIntegers_eq_ok_iff.2
        ⟨lower, upper, ⟨hlower.isSide, hupper.isSide, left, right, htext, hleft, hright⟩,
          hlower, hupper, horder⟩
      rw [readInt32?_eq_none_of_comma (by simp), hread]
      rfl

/-! ## Checks -/

theorem checkBetween_eq_ok_iff {least greatest : Int} {what : String} :
    checkBetween least greatest what values = .ok () ↔ ∀ n ∈ values, least ≤ n ∧ n ≤ greatest := by
  unfold checkBetween
  split
  · rename_i n hfind
    have hout := List.find?_some hfind
    simp only [reduceCtorEq, false_iff]
    intro hall
    simp [hall n (List.mem_of_find?_eq_some hfind)] at hout
  · rename_i hfind
    exact iff_of_true rfl (by simpa using hfind)

theorem check_eq_ok_iff {bounded : Bool} {type : ValueType} (htype : type.acceptsWildcard = true) :
    check bounded type text = .ok () ↔
      trim text.toList = wildcard ∨ checkValue bounded type text = .ok () := by
  rw [check, htype, Bool.true_and, isWildcard]
  split
  · rename_i hwildcard
    exact iff_of_true rfl (.inl (eq_of_beq hwildcard))
  · rename_i hwildcard
    rw [or_iff_right fun heq => hwildcard (beq_iff_eq.2 heq)]

theorem bind_checkBetween_eq_ok_iff {least greatest : Int} {what : String} :
    integers text >>= checkBetween least greatest what = .ok () ↔
      ∃ values, DenotesIntegers text.toList values ∧ ∀ n ∈ values, least ≤ n ∧ n ≤ greatest := by
  simp only [bind_eq_ok_iff, integers_eq_ok_iff, checkBetween_eq_ok_iff]

/-- The integers in a text are read exactly as it denotes them. A text is accepted as an integer exactly
when it is the wildcard between white space or denotes integers, and as a month or a day when these lie
between 1 and 12, or 1 and 31, as well. -/
theorem integers_grammar (bounded : Bool) (text : String) :
    (∀ values, integers text = .ok values ↔ DenotesIntegers text.toList values) ∧
    (check bounded .integer text = .ok () ↔
      trim text.toList = wildcard ∨ ∃ values, DenotesIntegers text.toList values) ∧
    (check bounded .month text = .ok () ↔ trim text.toList = wildcard ∨
      ∃ values, DenotesIntegers text.toList values ∧ ∀ n ∈ values, 1 ≤ n ∧ n ≤ 12) ∧
    (check bounded .day text = .ok () ↔ trim text.toList = wildcard ∨
      ∃ values, DenotesIntegers text.toList values ∧ ∀ n ∈ values, 1 ≤ n ∧ n ≤ 31) := by
  refine ⟨fun values => integers_eq_ok_iff, ?_, ?_, ?_⟩
  · rw [check_eq_ok_iff rfl, checkValue, discard_eq_ok_iff]
    simp only [integers_eq_ok_iff]
  · rw [check_eq_ok_iff rfl, checkValue, bind_checkBetween_eq_ok_iff]
  · rw [check_eq_ok_iff rfl, checkValue, bind_checkBetween_eq_ok_iff]

example : (integers "-05 , 7").toOption = some [-5, 7] ∧ (integers "+5,7").toOption = none := by
  decide

end OccurrenceQuery.Range
