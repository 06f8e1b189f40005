/-
Padded numerals and cuts at a separator. A numeral of a known width at the front of a text is exactly
the padded numeral of the number that it denotes, and a text is cut at the first separator that its
first part is free of.
-/
import Mathlib.Tactic
import OccurrenceQuery.Text.Basic

namespace OccurrenceQuery.Text

/-! ## Numerals -/

theorem numeralValue_numeral (n : Nat) : numeralValue (numeral n) = n :=
  Nat.ofDigitChars_ten_toDigits

theorem isDigit_of_mem_numeral {n : Nat} {c : Char} (h : c ∈ numeral n) : c.isDigit = true :=
  Nat.isDigit_of_mem_toDigits (by decide) (by decide) h

theorem length_numeral_le_iff {n width : Nat} (h : 0 < width) :
    (numeral n).length ≤ width ↔ n < 10 ^ width :=
  Nat.length_toDigits_le_iff (by decide) h

theorem numeralValue_append (cs ds : List Char) :
    numeralValue (cs ++ ds) = 10 ^ ds.length * numeralValue cs + numeralValue ds := by
  show Nat.ofDigitChars 10 (cs ++ ds) 0 = _
  rw [Nat.ofDigitChars_append, Nat.ofDigitChars_eq_ofDigitChars_zero]
  rfl

theorem toNat_of_isDigit {c : Char} (h : c.isDigit = true) : c.toNat = 48 + digitValue c ∧ digitValue c < 10 := by
  simp only [Char.isDigit, Bool.and_eq_true, decide_eq_true_eq, UInt32.le_iff_toNat_le] at h
  have hlo : 48 ≤ c.toNat := h.1
  have hhi : c.toNat ≤ 57 := h.2
  have hv : digitValue c = c.toNat - 48 := rfl
  omega

theorem digitChar_digitValue {c : Char} (h : c.isDigit = true) : (digitValue c).digitChar = c := by
  obtain ⟨hc, hv⟩ := toNat_of_isDigit h
  apply Char.toNat_inj.1
  rw [Nat.toNat_digitChar_of_lt_ten hv, hc]

theorem isDigit_of_isNumeral {cs : List Char} {c : Char} (h : isNumeral cs = true) (hc : c ∈ cs) :
    c.isDigit = true := by
  simp only [isNumeral, Bool.and_eq_true, List.all_eq_true] at h
  exact h.2 c hc

theorem not_mem_of_isNumeral {cs : List Char} {c : Char} (h : isNumeral cs = true)
    (hc : c.isDigit = false) : c ∉ cs := by
  intro hmem
  rw [isDigit_of_isNumeral h hmem] at hc
  cases hc

/-! ## Padded numerals -/

theorem length_padded {width n : Nat} (hw : 0 < width) (h : n < 10 ^ width) :
    (padded width n).length = width := by
  have := (length_numeral_le_iff hw).2 h
  simp only [padded, List.length_append, List.length_replicate]
  omega

theorem isDigit_of_mem_padded {width n : Nat} {c : Char} (h : c ∈ padded width n) :
    c.isDigit = true := by
  rcases List.mem_append.1 h with h | h
  · rw [List.eq_of_mem_replicate h]; rfl
  · exact isDigit_of_mem_numeral h

theorem numeralValue_replicate_zero (n : Nat) : numeralValue (List.replicate n '0') = 0 := by
  show Nat.ofDigitChars 10 _ 0 = 0
  rw [Nat.ofDigitChars_replicate_zero, Nat.mul_zero]

theorem numeralValue_padded (width n : Nat) : numeralValue (padded width n) = n := by
  rw [padded, numeralValue_append, numeralValue_replicate_zero, numeralValue_numeral, Nat.mul_zero,
    Nat.zero_add]

/-- One digit more at the end of a padded numeral. -/
theorem padded_succ {width n d : Nat} (hw : 0 < width) (hd : d < 10) :
    padded (width + 1) (10 * n + d) = padded width n ++ [d.digitChar] := by
  have hone : numeral d = [d.digitChar] := Nat.toDigits_of_lt_base hd
  cases n with
  | zero =>
    have hzero : numeral 0 = ['0'] := rfl
    obtain ⟨w, rfl⟩ : ∃ w, width = w + 1 := ⟨width - 1, by omega⟩
    simp [padded, hone, hzero, List.replicate_succ']
  | succ n =>
    have hlong : numeral (10 * (n + 1) + d) = numeral (n + 1) ++ [d.digitChar] := by
      rw [← hone]
      exact (Nat.toDigits_append_toDigits (by decide) (Nat.succ_pos n) hd).symm
    rw [padded, padded, hlong, List.length_append, List.append_assoc]
    congr 2
    simp only [List.length_singleton]
    omega

/-- A sequence of digits is the numeral of its value, padded to its own length. -/
theorem padded_numeralValue : ∀ {width : Nat} {cs : List Char}, 0 < width → cs.length = width →
    cs.all Char.isDigit = true → padded width (numeralValue cs) = cs
  | 1, [c], _, _, hd => by
    have hc : c.isDigit = true := by simpa using hd
    have hn : numeral (digitValue c) = [c] := by
      rw [numeral, Nat.toDigits_of_lt_base (toNat_of_isDigit hc).2, digitChar_digitValue hc]
    have hv : numeralValue [c] = digitValue c := by simp [numeralValue]
    simp [padded, hv, hn]
  | width + 2, cs, _, hl, hd => by
    obtain ⟨ds, c, rfl⟩ : ∃ ds c, cs = ds ++ [c] :=
      ⟨cs.dropLast, cs.getLast (by rintro rfl; simp at hl), (List.dropLast_concat_getLast _).symm⟩
    simp only [List.all_append, List.all_cons, List.all_nil, Bool.and_true, Bool.and_eq_true] at hd
    have hv : numeralValue (ds ++ [c]) = 10 * numeralValue ds + digitValue c := by
      simp [numeralValue]
    rw [hv, padded_succ (Nat.succ_pos width) (toNat_of_isDigit hd.2).2, digitChar_digitValue hd.2,
      padded_numeralValue (Nat.succ_pos width) (by simpa using hl) hd.1]

/-- A numeral can be taken off the front exactly when the text begins with a padded numeral. -/
theorem takeNumeral_eq_some_iff {width n : Nat} {cs rest : List Char} (hw : 0 < width) :
    takeNumeral width cs = some (n, rest) ↔ n < 10 ^ width ∧ cs = padded width n ++ rest := by
  constructor
  · intro h
    simp only [takeNumeral] at h
    -- the digits that are taken are as many as the width, so padding adds none
    split at h
    · rename_i hd
      simp only [Bool.and_eq_true, decide_eq_true_eq] at hd
      simp only [Option.some.injEq, Prod.mk.injEq] at h
      obtain ⟨rfl, rfl⟩ := h
      have hp := padded_numeralValue hw hd.1 hd.2
      refine ⟨?_, ?_⟩
      · rw [← length_numeral_le_iff hw]
        have hl : (padded width (numeralValue (cs.take width))).length = width := by rw [hp, hd.1]
        simp only [padded, List.length_append] at hl
        omega
      · rw [hp, List.take_append_drop]
    · cases h
  · rintro ⟨hn, rfl⟩
    have hl := length_padded hw hn
    have hall : (padded width n).all Char.isDigit = true :=
      List.all_eq_true.2 fun _ => isDigit_of_mem_padded
    simp [takeNumeral, List.take_left' hl, List.drop_left' hl, hl, hall, numeralValue_padded]

theorem takeNumeral_padded {width n : Nat} (hw : 0 < width) (h : n < 10 ^ width)
    (rest : List Char) : takeNumeral width (padded width n ++ rest) = some (n, rest) :=
  (takeNumeral_eq_some_iff hw).2 ⟨h, rfl⟩

/-! ## Cutting -/

theorem splitFirst_append {sep : Char} : ∀ {before : List Char}, sep ∉ before →
    ∀ after : List Char, splitFirst sep (before ++ sep :: after) = some (before, after)
  | [], _, after => by simp [splitFirst]
  | c :: before, h, after => by
    simp only [List.mem_cons, not_or] at h
    simp [splitFirst, Ne.symm h.1, splitFirst_append h.2 after]

theorem splitFirst_eq_none {sep : Char} : ∀ {cs : List Char}, sep ∉ cs → splitFirst sep cs = none
  | [], _ => rfl
  | c :: cs, h => by
    simp only [List.mem_cons, not_or] at h
    simp [splitFirst, Ne.symm h.1, splitFirst_eq_none h.2]

theorem eq_of_splitFirst {sep : Char} {before after : List Char} :
    ∀ {cs : List Char}, splitFirst sep cs = some (before, after) →
      cs = before ++ sep :: after ∧ sep ∉ before
  | [], h => by simp [splitFirst] at h
  | c :: cs, h => by
    by_cases hc : c = sep
    · simp only [splitFirst, if_pos hc, Option.some.injEq, Prod.mk.injEq] at h
      obtain ⟨rfl, rfl⟩ := h
      simp [hc]
    · simp only [splitFirst, if_neg hc, Option.map_eq_some_iff, Prod.exists, Prod.mk.injEq] at h
      obtain ⟨before', after', hcs, rfl, rfl⟩ := h
      obtain ⟨rfl, hfree⟩ := eq_of_splitFirst hcs
      exact ⟨rfl, by simp [Ne.symm hc, hfree]⟩

/-- A text is cut exactly into a part without the separator and what follows the separator. -/
theorem splitFirst_eq_some_iff {sep : Char} {cs before after : List Char} :
    splitFirst sep cs = some (before, after) ↔ cs = before ++ sep :: after ∧ sep ∉ before :=
  ⟨eq_of_splitFirst, fun ⟨hcs, hfree⟩ => hcs ▸ splitFirst_append hfree after⟩

theorem splitFirst_eq_none_iff {sep : Char} {cs : List Char} :
    splitFirst sep cs = none ↔ sep ∉ cs := by
  refine ⟨fun h hmem => ?_, splitFirst_eq_none⟩
  obtain ⟨before, after, hcs, hfree⟩ := List.eq_append_cons_of_mem hmem
  rw [hcs, splitFirst_append hfree after] at h
  cases h

theorem splitAll_append {sep : Char} : ∀ {before : List Char}, sep ∉ before →
    ∀ after : List Char, splitAll sep (before ++ sep :: after) = before :: splitAll sep after
  | [], _, after => by simp [splitAll]
  | c :: before, h, after => by
    simp only [List.mem_cons, not_or] at h
    simp [splitAll, Ne.symm h.1, splitAll_append h.2 after]

theorem splitAll_eq_singleton {sep : Char} : ∀ {cs : List Char}, sep ∉ cs → splitAll sep cs = [cs]
  | [], _ => rfl
  | c :: cs, h => by
    simp only [List.mem_cons, not_or] at h
    simp [splitAll, Ne.symm h.1, splitAll_eq_singleton h.2]

theorem splitAll_ne_nil (sep : Char) (cs : List Char) : splitAll sep cs ≠ [] := by
  by_cases hmem : sep ∈ cs
  · obtain ⟨before, after, rfl, hfree⟩ := List.eq_append_cons_of_mem hmem
    simp [splitAll_append hfree]
  · simp [splitAll_eq_singleton hmem]

/-- The first part of a text is the whole of it, or ends at the first separator. -/
theorem splitAll_eq_cons_iff {sep : Char} {cs part : List Char} {parts : List (List Char)} :
    splitAll sep cs = part :: parts ↔ sep ∉ part ∧
      (cs = part ∧ parts = [] ∨ ∃ after, cs = part ++ sep :: after ∧ splitAll sep after = parts) := by
  constructor
  · intro h
    by_cases hmem : sep ∈ cs
    · obtain ⟨before, after, rfl, hfree⟩ := List.eq_append_cons_of_mem hmem
      rw [splitAll_append hfree] at h
      obtain ⟨rfl, rfl⟩ := List.cons.inj h
      exact ⟨hfree, .inr ⟨after, rfl, rfl⟩⟩
    · rw [splitAll_eq_singleton hmem] at h
      obtain ⟨rfl, rfl⟩ := List.cons.inj h
      exact ⟨hmem, .inl ⟨rfl, rfl⟩⟩
  · rintro ⟨hfree, ⟨rfl, rfl⟩ | ⟨after, rfl, rfl⟩⟩
    · exact splitAll_eq_singleton hfree
    · exact splitAll_append hfree after

/-- A character of a text separates two parts or stands in one of them. -/
theorem eq_or_mem_splitAll (sep : Char) {c : Char} : ∀ {cs : List Char}, c ∈ cs →
    c = sep ∨ ∃ part ∈ splitAll sep cs, c ∈ part
  | d :: cs, h => by
    unfold splitAll
    split
    · rename_i hsep
      rcases List.mem_cons.1 h with rfl | hmem
      · exact .inl hsep
      · exact (eq_or_mem_splitAll sep hmem).imp_right fun ⟨part, hpart, hc⟩ =>
          ⟨part, List.mem_cons_of_mem _ hpart, hc⟩
    · split
      · rename_i hnil
        exact absurd hnil (splitAll_ne_nil sep cs)
      · rename_i first parts hparts
        rcases List.mem_cons.1 h with rfl | hmem
        · exact .inr ⟨c :: first, List.mem_cons_self, List.mem_cons_self⟩
        rcases eq_or_mem_splitAll sep hmem with hsep | ⟨part, hpart, hc⟩
        · exact .inl hsep
        rw [hparts] at hpart
        rcases List.mem_cons.1 hpart with rfl | hrest
        · exact .inr ⟨d :: part, List.mem_cons_self, List.mem_cons_of_mem d hc⟩
        · exact .inr ⟨part, List.mem_cons_of_mem _ hrest, hc⟩

theorem mem_of_mem_splitAll {sep c : Char} : ∀ {cs part : List Char}, part ∈ splitAll sep cs →
    c ∈ part → c ∈ cs
  | [], part, hpart, hc => by
    obtain rfl := List.mem_singleton.1 hpart
    cases hc
  | d :: cs, part, hpart, hc => by
    unfold splitAll at hpart
    split at hpart
    · rcases List.mem_cons.1 hpart with rfl | hrest
      · cases hc
      · exact List.mem_cons_of_mem d (mem_of_mem_splitAll hrest hc)
    · split at hpart
      · rename_i hnil
        exact absurd hnil (splitAll_ne_nil sep cs)
      · rename_i first parts hparts
        rcases List.mem_cons.1 hpart with rfl | hrest
        · rcases List.mem_cons.1 hc with rfl | hmem
          · exact List.mem_cons_self
          · exact List.mem_cons_of_mem d
              (mem_of_mem_splitAll (hparts ▸ List.mem_cons_self : first ∈ splitAll sep cs) hmem)
        · exact List.mem_cons_of_mem d
            (mem_of_mem_splitAll (hparts ▸ List.mem_cons_of_mem first hrest) hc)

/-- A separator splits a text into the parts before it and those behind it. -/
theorem splitAll_append_cons (sep : Char) (after : List Char) :
    ∀ before : List Char, splitAll sep (before ++ sep :: after) = splitAll sep before ++ splitAll sep after
  | [] => by simp [splitAll]
  | c :: before => by
    rw [List.cons_append, splitAll, splitAll, splitAll_append_cons sep after before]
    split
    · rfl
    · cases hparts : splitAll sep before with
      | nil => exact absurd hparts (splitAll_ne_nil sep before)
      | cons part parts => rfl

theorem length_splitAll_eq_one_iff {sep : Char} {cs : List Char} :
    (splitAll sep cs).length = 1 ↔ sep ∉ cs := by
  refine ⟨fun h => ?_, fun h => by rw [splitAll_eq_singleton h, List.length_singleton]⟩
  obtain ⟨part, hpart⟩ := List.length_eq_one_iff.1 h
  obtain ⟨hfree, ⟨rfl, -⟩ | ⟨after, -, hnil⟩⟩ := splitAll_eq_cons_iff.1 hpart
  · exact hfree
  · exact absurd hnil (splitAll_ne_nil sep after)

end OccurrenceQuery.Text
