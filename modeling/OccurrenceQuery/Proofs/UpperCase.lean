/-
Upper case of single characters. What the full mapping makes of a character it leaves as it is, whether
the image is one character or several: the images of the tables lie outside of the domains of the tables.
In ASCII the mapping changes nothing but small letters, and no image is in ASCII unless it is a capital
letter.
-/
import Mathlib
import OccurrenceQuery.Proofs.WhiteSpace
import OccurrenceQuery.Text.Case

namespace OccurrenceQuery.Text

/-! ## Runs -/

namespace CaseRun

variable {r s : CaseRun} {n m : Nat}

/-- Where a run moves a code point to. -/
def moved (r : CaseRun) (n : Nat) : Nat := ((n : Int) + r.shift).toNat

theorem image?_eq_some_iff : r.image? n = some m ↔
    (r.first ≤ n ∧ n ≤ r.last ∧ (n - r.first) % r.step = 0) ∧ r.moved n = m := by
  unfold image? moved
  split <;> simp_all

theorem image?_eq_none_of_lt (h : n < r.first) : r.image? n = none :=
  if_neg fun hin => absurd hin.1 (Nat.not_le.2 h)

theorem image?_eq_none_of_gt (h : r.last < n) : r.image? n = none :=
  if_neg fun hin => absurd hin.2.1 (Nat.not_le.2 h)

theorem image?_block_eq_none_iff {first last : Nat} {shift : Int} :
    image? ⟨first, last, 1, shift⟩ n = none ↔ n < first ∨ last < n := by
  simp only [image?, Nat.mod_one, and_true, ite_eq_right_iff, reduceCtorEq, imp_false]
  omega

theorem moved_mono (h : n ≤ m) : r.moved n ≤ r.moved m := by
  unfold moved
  omega

/-- Whether no image of `r` is a code point of `s`, because all of them lie below or above `s`, or by a
look at each of them. -/
def avoids (r s : CaseRun) : Bool :=
  Nat.blt (r.moved r.last) s.first || Nat.blt s.last (r.moved r.first) ||
    (List.range' r.first (r.last + 1 - r.first)).all fun n =>
      (r.image? n).all fun m => (s.image? m).isNone

theorem image?_eq_none_of_avoids (h : r.avoids s = true) (hm : r.image? n = some m) :
    s.image? m = none := by
  have hin := hm
  obtain ⟨⟨hfirst, hlast, -⟩, rfl⟩ := image?_eq_some_iff.1 hin
  simp only [avoids, Bool.or_eq_true, Nat.blt_eq] at h
  rcases h with (hbelow | habove) | heach
  · exact image?_eq_none_of_lt (lt_of_le_of_lt (moved_mono hlast) hbelow)
  · exact image?_eq_none_of_gt (lt_of_lt_of_le habove (moved_mono hfirst))
  · have hrange : n ∈ List.range' r.first (r.last + 1 - r.first) :=
      List.mem_range'_1.2 ⟨hfirst, by omega⟩
    have hn := List.all_eq_true.1 heach n hrange
    rw [hm, Option.all_some] at hn
    exact Option.isNone_iff_eq_none.1 hn

end CaseRun

/-! ## Capitals -/

/-- The runs of small characters whose upper case is one other character, those of ASCII among them. -/
def caseRuns : List CaseRun := ⟨0x61, 0x7A, 1, -32⟩ :: upperRuns

/-- The code points that are not the upper case of another character: in ASCII all but the capital
letters, beyond it those whose upper case is not themselves, and the surrogates. -/
def otherRuns : List CaseRun :=
  ⟨0x00, 0x40, 1, 0⟩ :: ⟨0x5B, 0x7F, 1, 0⟩ :: ⟨0xD800, 0xDFFF, 1, 0⟩ ::
    (upperExpansions.map (fun e => ⟨e.1, e.1, 1, 0⟩) ++ upperRuns)

theorem mem_otherRuns_of_tables {s : CaseRun}
    (h : s ∈ upperExpansions.map (fun e => ⟨e.1, e.1, 1, 0⟩) ∨ s ∈ upperRuns) : s ∈ otherRuns :=
  List.mem_cons_of_mem _ (List.mem_cons_of_mem _ (List.mem_cons_of_mem _ (List.mem_append.2 h)))

/-- Whether a character can be the upper case of another. -/
def IsCapital (c : Char) : Prop := ∀ s ∈ otherRuns, s.image? c.toNat = none

variable {c d : Char}

theorem toNat_of_isCapital (h : IsCapital c) : 0x41 ≤ c.toNat ∧ c.toNat ≤ 0x5A ∨ 0x80 ≤ c.toNat := by
  have hlow := CaseRun.image?_block_eq_none_iff.1 (h ⟨0x00, 0x40, 1, 0⟩ (by simp [otherRuns]))
  have hhigh := CaseRun.image?_block_eq_none_iff.1 (h ⟨0x5B, 0x7F, 1, 0⟩ (by simp [otherRuns]))
  omega

theorem upper_of_lt (h : c.toNat < 0x80) : upper c = [c.toUpper] := if_pos h

/-- Beyond ASCII a character that no table has is its own upper case. -/
theorem upper_eq_self_of_tables (h : 0x80 ≤ c.toNat) (hexpansions : ∀ e ∈ upperExpansions, e.1 ≠ c.toNat)
    (hruns : ∀ r ∈ upperRuns, r.image? c.toNat = none) : upper c = [c] := by
  have hlookup : upperExpansions.lookup c.toNat = none :=
    List.lookup_eq_none_iff.2 fun e he => bne_iff_ne.2 (hexpansions e he).symm
  have happly : applyRuns? upperRuns c.toNat = none := List.findSome?_eq_none_iff.2 hruns
  rw [upper, if_neg (Nat.not_lt.2 h), hlookup, happly]

theorem toNat_of_isLower (h : c.isLower = true) : 0x61 ≤ c.toNat ∧ c.toNat ≤ 0x7A := by
  have hbounds : decide (0x61 ≤ c.toNat) = true ∧ decide (c.toNat ≤ 0x7A) = true :=
    Bool.and_eq_true_iff.1 h
  exact hbounds.imp of_decide_eq_true of_decide_eq_true

theorem upper_of_isCapital (h : IsCapital c) : upper c = [c] := by
  rcases toNat_of_isCapital h with ⟨hfirst, hlast⟩ | hbeyond
  · rw [upper_of_lt (by omega), Char.toUpper_eq_of_not_isLower fun hlower => ?_]
    have := toNat_of_isLower hlower
    omega
  · have hsingles : ∀ e ∈ upperExpansions, e.1 ≠ c.toNat := by
      intro e he heq
      have hmem : (⟨e.1, e.1, 1, 0⟩ : CaseRun) ∈ otherRuns :=
        mem_otherRuns_of_tables (.inl (List.mem_map_of_mem he))
      have hsingle := CaseRun.image?_block_eq_none_iff.1 (h _ hmem)
      omega
    exact upper_eq_self_of_tables hbeyond hsingles fun r hr => h r (mem_otherRuns_of_tables (.inr hr))

/-! ## Images -/

/-- No run of small characters maps into the domain of a table, or in ASCII past the capital letters. -/
theorem caseRuns_avoid :
    (caseRuns.all fun r => Nat.blt (r.moved r.last) 0x110000 && otherRuns.all r.avoids) = true := by
  decide +kernel

/-- Nor does an expansion. -/
theorem upperExpansions_avoid : (upperExpansions.all fun e => e.2.all fun n =>
    Nat.blt n 0x110000 && otherRuns.all fun s => (s.image? n).isNone) = true := by
  decide +kernel

theorem isCapital_ofNat {n : Nat} (hn : n < 0x110000) (h : ∀ s ∈ otherRuns, s.image? n = none) :
    IsCapital (Char.ofNat n) := by
  have hsurrogate := CaseRun.image?_block_eq_none_iff.1 (h ⟨0xD800, 0xDFFF, 1, 0⟩ (by simp [otherRuns]))
  have hvalid : n.isValidChar := by
    simp only [Nat.isValidChar]
    omega
  rwa [IsCapital, Char.toNat_ofNat, if_pos hvalid]

theorem isCapital_of_image? {r : CaseRun} {n : Nat} (hr : r ∈ caseRuns)
    (hn : r.image? c.toNat = some n) : IsCapital (Char.ofNat n) := by
  obtain ⟨hlast, havoids⟩ := Bool.and_eq_true_iff.1 (List.all_eq_true.1 caseRuns_avoid r hr)
  rw [Nat.blt_eq] at hlast
  obtain ⟨⟨-, hle, -⟩, hmoved⟩ := CaseRun.image?_eq_some_iff.1 hn
  refine isCapital_ofNat ?_ fun s hs =>
    CaseRun.image?_eq_none_of_avoids (List.all_eq_true.1 havoids s hs) hn
  exact hmoved ▸ lt_of_le_of_lt (CaseRun.moved_mono hle) hlast

/-- The upper case of a character is the character itself, or all of it are capitals. -/
theorem upper_cases (c : Char) : upper c = [c] ∨ ∀ d ∈ upper c, IsCapital d := by
  by_cases hascii : c.toNat < 0x80
  · rw [upper_of_lt hascii]
    by_cases hlower : c.isLower = true
    · refine .inr fun d hd => ?_
      obtain rfl := List.mem_singleton.1 hd
      obtain ⟨hfirst, hlast⟩ := toNat_of_isLower hlower
      rw [Char.toUpper_eq_of_isLower hlower]
      refine isCapital_of_image? (r := ⟨0x61, 0x7A, 1, -32⟩) (c := c) List.mem_cons_self ?_
      refine CaseRun.image?_eq_some_iff.2 ⟨⟨hfirst, hlast, Nat.mod_one _⟩, ?_⟩
      simp only [CaseRun.moved]
      omega
    · exact .inl (by rw [Char.toUpper_eq_of_not_isLower hlower])
  · rw [upper, if_neg hascii]
    split
    · rename_i image hlookup
      obtain ⟨before, after, hentries, -⟩ := List.lookup_eq_some_iff.1 hlookup
      have hmem : (c.toNat, image) ∈ upperExpansions := by simp [hentries]
      refine .inr fun d hd => ?_
      obtain ⟨n, hn, rfl⟩ := List.mem_map.1 hd
      have havoids := List.all_eq_true.1 (List.all_eq_true.1 upperExpansions_avoid _ hmem) n hn
      obtain ⟨hbound, hother⟩ := Bool.and_eq_true_iff.1 havoids
      rw [Nat.blt_eq] at hbound
      exact isCapital_ofNat hbound fun s hs =>
        Option.isNone_iff_eq_none.1 (List.all_eq_true.1 hother s hs)
    · split
      · rename_i image happly
        obtain ⟨r, hr, himage⟩ := List.exists_of_findSome?_eq_some happly
        refine .inr fun d hd => ?_
        obtain rfl := List.mem_singleton.1 hd
        exact isCapital_of_image? (List.mem_cons_of_mem _ hr) himage
      · exact .inl rfl

/-- What is in upper case stays as it is. -/
theorem upper_of_mem_upper (h : d ∈ upper c) : upper d = [d] := by
  rcases upper_cases c with hself | hcapital
  · rw [hself, List.mem_singleton] at h
    rwa [h]
  · exact upper_of_isCapital (hcapital d h)

theorem flatMap_upper_flatMap_upper (cs : List Char) : (cs.flatMap upper).flatMap upper = cs.flatMap upper := by
  rw [List.flatMap_assoc]
  refine List.flatMap_congr fun c _ => ?_
  rw [List.flatMap_congr fun d hd => upper_of_mem_upper hd, List.flatMap_singleton']

/-! ## Letters and white space -/

theorem upper_toUpper (c : Char) : upper c.toUpper = upper c := by
  by_cases hlower : c.isLower = true
  · obtain ⟨hfirst, hlast⟩ := toNat_of_isLower hlower
    have hascii : c.toNat < 0x80 := by omega
    have hself : upper c = [c.toUpper] := upper_of_lt hascii
    rw [hself]
    exact upper_of_mem_upper (hself ▸ List.mem_singleton_self _)
  · rw [Char.toUpper_eq_of_not_isLower hlower]

theorem upper_of_isAlpha (h : c.isAlpha = true) : upper c = [c.toUpper] := by
  have hletter := toNat_of_isAlpha h
  exact upper_of_lt (by omega)

theorem flatMap_upper_of_isAlpha {cs : List Char} (h : ∀ c ∈ cs, c.isAlpha = true) :
    cs.flatMap upper = cs.map Char.toUpper := by
  rw [List.flatMap_congr fun c hc => upper_of_isAlpha (h c hc), List.map_eq_flatMap]

/-- White space beyond ASCII is in no table. -/
theorem whiteSpace_apart : ∀ r ∈ whiteSpaceRanges, (∀ e ∈ upperExpansions, e.1 < r.first ∨ r.last < e.1) ∧
    ∀ s ∈ upperRuns, s.last < r.first ∨ r.last < s.first := by
  decide +kernel

theorem upper_of_isWhiteSpace (h : isWhiteSpace c = true) : upper c = [c] := by
  obtain ⟨r, hr, hfirst, hlast⟩ := inRanges_eq_true_iff.1 h
  obtain ⟨hexpansions, hruns⟩ := whiteSpace_apart r hr
  by_cases hascii : c.toNat < 0x80
  · rw [upper_of_lt hascii, Char.toUpper_eq_of_not_isLower fun hlower => ?_]
    have hletters : ∀ r ∈ whiteSpaceRanges, r.last < 0x61 ∨ 0x7A < r.first := by decide
    have hbounds := toNat_of_isLower hlower
    have hapart := hletters r hr
    omega
  · refine upper_eq_self_of_tables (Nat.not_lt.1 hascii) (fun e he heq => ?_) fun s hs => ?_
    · have hapart := hexpansions e he
      omega
    · rcases hruns s hs with hbelow | habove
      · exact CaseRun.image?_eq_none_of_gt (lt_of_lt_of_le hbelow hfirst)
      · exact CaseRun.image?_eq_none_of_lt (lt_of_le_of_lt hlast habove)

end OccurrenceQuery.Text
