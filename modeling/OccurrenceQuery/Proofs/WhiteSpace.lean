/-
White space at the ends of a text: what is removed is white space, what is not white space stays,
and decimal digits of no script are white space.
-/
import Mathlib.Data.List.DropRight
import Mathlib.Data.List.TakeWhile
import OccurrenceQuery.Proofs.Text
import OccurrenceQuery.Text.CharacterClass

namespace OccurrenceQuery.Text

/-! ## Sets of characters -/

theorem inRanges_eq_true_iff {ranges : List CodeRange} {c : Char} :
    inRanges ranges c = true ↔ ∃ r ∈ ranges, r.first ≤ c.toNat ∧ c.toNat ≤ r.last := by
  simp [inRanges, CodeRange.contains]

theorem toNat_of_isAlpha {c : Char} (hc : c.isAlpha = true) : 65 ≤ c.toNat ∧ c.toNat ≤ 122 := by
  have hcases : 65 ≤ c.toNat ∧ c.toNat ≤ 90 ∨ 97 ≤ c.toNat ∧ c.toNat ≤ 122 := by
    rcases Bool.or_eq_true_iff.1 hc with hupper | hlower
    · exact .inl (of_decide_eq_true hupper)
    · have hbounds : decide (97 ≤ c.toNat) = true ∧ decide (c.toNat ≤ 122) = true :=
        Bool.and_eq_true_iff.1 hlower
      exact .inr (by simpa using hbounds)
  omega

theorem not_inRanges_of_isAlpha {ranges : List CodeRange}
    (hranges : ∀ r ∈ ranges, r.last < 65 ∨ 122 < r.first) {c : Char} (hc : c.isAlpha = true) :
    ¬ inRanges ranges c = true := by
  intro hin
  obtain ⟨r, hr, hfirst, hlast⟩ := inRanges_eq_true_iff.1 hin
  have hletter := toNat_of_isAlpha hc
  have hapart := hranges r hr
  omega

theorem isDigit_of_isAlpha {c : Char} (hc : c.isAlpha = true) : c.isDigit = false := by
  rw [Bool.eq_false_iff]
  intro hdigit
  have hbounds := toNat_of_isDigit hdigit
  have hletter := toNat_of_isAlpha hc
  omega

/-- An ASCII letter is a decimal digit of no script. -/
theorem isDecimalDigit_of_isAlpha {c : Char} (hc : c.isAlpha = true) : isDecimalDigit c = false := by
  rw [isDecimalDigit, isDigit_of_isAlpha hc, Bool.false_or, Bool.eq_false_iff]
  exact not_inRanges_of_isAlpha (by decide) hc

/-- No character is both a decimal digit and white space, because their ranges lie apart. -/
theorem isWhiteSpace_of_isDecimalDigit {c : Char} (h : isDecimalDigit c = true) :
    isWhiteSpace c = false := by
  have hdigit : ∃ r ∈ decimalDigitRanges, r.first ≤ c.toNat ∧ c.toNat ≤ r.last := by
    rcases Bool.or_eq_true_iff.1 h with hascii | hranges
    · obtain ⟨hc, hv⟩ := toNat_of_isDigit hascii
      exact ⟨⟨0x30, 0x39⟩, by decide, by simp only []; omega, by simp only []; omega⟩
    · exact inRanges_eq_true_iff.1 hranges
  have hapart : ∀ r ∈ decimalDigitRanges, ∀ s ∈ whiteSpaceRanges,
      r.last < s.first ∨ s.last < r.first := by decide
  rw [Bool.eq_false_iff]
  intro hspace
  obtain ⟨r, hr, hr₁, hr₂⟩ := hdigit
  obtain ⟨s, hs, hs₁, hs₂⟩ := inRanges_eq_true_iff.1 hspace
  rcases hapart r hr s hs with hlt | hlt <;> omega

/-! ## White space at the ends -/

/-- Whether a text is nothing but white space. -/
def Spaces (cs : List Char) : Prop := ∀ c ∈ cs, isWhiteSpace c = true

theorem spaces_nil : Spaces [] := List.forall_mem_nil _

theorem exists_trimStart (cs : List Char) : ∃ blanks, cs = blanks ++ trimStart cs ∧ Spaces blanks :=
  ⟨cs.takeWhile isWhiteSpace, List.takeWhile_append_dropWhile.symm,
    fun _ hc => List.mem_takeWhile_imp hc⟩

theorem exists_trimEnd (cs : List Char) :
    ∃ blanks, cs = trimEnd cs ++ blanks ∧ Spaces blanks := by
  obtain ⟨blanks, hcs, hblanks⟩ := exists_trimStart cs.reverse
  refine ⟨blanks.reverse, ?_, fun c hc => hblanks c (List.mem_reverse.1 hc)⟩
  rw [trimEnd, ← List.reverse_append, ← trimStart, ← hcs, List.reverse_reverse]

theorem exists_trim (cs : List Char) :
    ∃ left right, cs = left ++ trim cs ++ right ∧ Spaces left ∧ Spaces right := by
  obtain ⟨left, hleft, hblank⟩ := exists_trimStart cs
  obtain ⟨right, hright, hblank'⟩ := exists_trimEnd (trimStart cs)
  exact ⟨left, right, by rw [trim, List.append_assoc, ← hright, ← hleft], hblank, hblank'⟩

variable {blanks cs : List Char}

theorem trimStart_append (hblanks : Spaces blanks)
    (hcs : ∀ c ∈ cs, isWhiteSpace c = false) : trimStart (blanks ++ cs) = cs := by
  rw [trimStart, List.dropWhile_append_of_pos hblanks, List.dropWhile_eq_self_iff]
  intro hpos hhead
  rw [hcs _ (List.getElem_mem hpos)] at hhead
  cases hhead

theorem trimEnd_append (hblanks : Spaces blanks)
    (hcs : ∀ c ∈ cs, isWhiteSpace c = false) : trimEnd (cs ++ blanks) = cs := by
  rw [trimEnd, List.reverse_append, ← trimStart, trimStart_append, List.reverse_reverse]
  · exact fun c hc => hblanks c (List.mem_reverse.1 hc)
  · exact fun c hc => hcs c (List.mem_reverse.1 hc)

/-- A text that neither begins nor ends with white space is what stays of it between white space. -/
theorem trim_append {left right : List Char} (hleft : Spaces left) (hright : Spaces right)
    (hne : cs ≠ []) (hfirst : ∀ c ∈ cs.head?, isWhiteSpace c = false)
    (hlast : ∀ c ∈ cs.getLast?, isWhiteSpace c = false) : trim (left ++ cs ++ right) = cs := by
  have hstart : trimStart (left ++ cs ++ right) = cs ++ right := by
    obtain ⟨c, rest, rfl⟩ := List.exists_cons_of_ne_nil hne
    rw [trimStart, List.append_assoc, List.dropWhile_append_of_pos hleft]
    simp [hfirst c rfl]
  have hend : trimEnd (cs ++ right) = cs := by
    obtain ⟨rest, c, rfl⟩ : ∃ rest c, cs = rest ++ [c] :=
      ⟨cs.dropLast, cs.getLast hne, (List.dropLast_concat_getLast hne).symm⟩
    rw [trimEnd, List.reverse_append, List.dropWhile_append_of_pos fun d hd =>
      hright d (List.mem_reverse.1 hd)]
    simp [hlast c (by simp)]
  rw [trim, hstart, hend]

/-- A text without white space is left as it is. -/
theorem trim_of_solid (hcs : ∀ c ∈ cs, isWhiteSpace c = false) : trim cs = cs := by
  have hstart : trimStart cs = cs := trimStart_append spaces_nil hcs
  have hend := trimEnd_append spaces_nil hcs
  rw [List.append_nil] at hend
  rw [trim, hstart, hend]

theorem trimStart_of_head? (h : ∀ c ∈ cs.head?, isWhiteSpace c = false) : trimStart cs = cs := by
  cases cs with
  | nil => rfl
  | cons c rest => simp [trimStart, h c rfl]

theorem trimEnd_of_getLast? (h : ∀ c ∈ cs.getLast?, isWhiteSpace c = false) : trimEnd cs = cs := by
  rw [← List.head?_reverse] at h
  rw [trimEnd, ← trimStart, trimStart_of_head? h, List.reverse_reverse]

theorem trim_of_head? (h : ∀ c ∈ cs.head?, isWhiteSpace c = false) : trim cs = trimEnd cs := by
  rw [trim, trimStart_of_head? h]

theorem trim_of_getLast? (h : ∀ c ∈ cs.getLast?, isWhiteSpace c = false) :
    trim cs = trimStart cs := by
  obtain ⟨blanks, hcs, -⟩ := exists_trimStart cs
  refine trimEnd_of_getLast? fun c hc => h c ?_
  rw [hcs, List.getLast?_append_of_ne_nil blanks (List.ne_nil_of_mem (List.mem_of_mem_getLast? hc))]
  exact hc

theorem mem_of_mem_trim {c : Char} (hmem : c ∈ trim cs) : c ∈ cs := by
  obtain ⟨left, hleft, -⟩ := exists_trimStart cs
  obtain ⟨right, hright, -⟩ := exists_trimEnd (trimStart cs)
  rw [hleft, hright]
  exact List.mem_append_right left (List.mem_append_left right hmem)

/-- What is not white space stays. -/
theorem mem_trim_of_mem {c : Char} (hc : isWhiteSpace c = false) (hmem : c ∈ cs) :
    c ∈ trim cs := by
  obtain ⟨left, hleft, hleftBlank⟩ := exists_trimStart cs
  obtain ⟨right, hright, hrightBlank⟩ := exists_trimEnd (trimStart cs)
  rw [hleft, hright, List.mem_append, List.mem_append] at hmem
  rcases hmem with h | h | h
  · exact absurd (hleftBlank c h) (by simp [hc])
  · exact h
  · exact absurd (hrightBlank c h) (by simp [hc])

theorem trimEnd_trimEnd (cs : List Char) : trimEnd (trimEnd cs) = trimEnd cs :=
  List.rdropWhile_idempotent isWhiteSpace cs

/-- Removing white space at the end brings none to the front. -/
theorem trimStart_trimEnd_trimStart (cs : List Char) :
    trimStart (trimEnd (trimStart cs)) = trimEnd (trimStart cs) := by
  obtain ⟨blanks, hcs, -⟩ := exists_trimEnd (trimStart cs)
  refine List.dropWhile_eq_self_iff.2 fun hpos => ?_
  have hfront : ∀ h : 0 < (trimStart cs).length, ¬ isWhiteSpace (trimStart cs)[0] = true :=
    List.dropWhile_eq_self_iff.1 (List.dropWhile_idempotent isWhiteSpace cs)
  generalize trimEnd (trimStart cs) = kept at hcs hpos ⊢
  simp only [hcs, List.getElem_append_left hpos] at hfront
  exact hfront (by simp; omega)

theorem trim_trim (cs : List Char) : trim (trim cs) = trim cs := by
  unfold trim
  rw [trimStart_trimEnd_trimStart, trimEnd_trimEnd]

end OccurrenceQuery.Text
