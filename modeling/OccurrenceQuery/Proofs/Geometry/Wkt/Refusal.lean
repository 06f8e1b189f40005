/-
Texts of outlines that are not read. A long s makes a keyword a word that is not ASCII, and a body that
is not plain has white space where none is allowed; so a text that is read is plain between the white
space around it, and what is read is the geometry that its outline denotes.
-/
import OccurrenceQuery.Proofs.Geometry.Wkt.Agreement

namespace OccurrenceQuery.Geometry

open OccurrenceQuery.Text

namespace Outline

/-! ## The long s -/

theorem not_mem_of_folds {c : Char} {letters word : List Char}
    (hletters : ∀ letter ∈ letters, foldsTo letter c = false) (h : Folds letters word) :
    c ∉ word := by
  induction h with
  | nil => exact List.not_mem_nil
  | cons hfold _ ih =>
    obtain ⟨hletter, hletters⟩ := List.forall_mem_cons.1 hletters
    rw [List.mem_cons, not_or]
    refine ⟨?_, ih hletters⟩
    rintro rfl
    rw [hletter] at hfold
    cases hfold

/-- Of the keywords of outlines, only that of a line string can have a long s in it. -/
theorem kind_eq_of_mem {o : Outline} {word : List Char}
    (h : Folds (asciiLower o.kind.keyword.toList) word) (hlong : 'ſ' ∈ word) :
    o.kind = .lineString := by
  have hfree : ∀ kind ∈ [Kind.point, .linearRing, .polygon, .multiPolygon],
      (asciiLower kind.keyword.toList).Forall fun letter => foldsTo letter 'ſ' = false := by decide
  have hkind : o.kind = .lineString ∨ o.kind ∈ [Kind.point, .linearRing, .polygon, .multiPolygon] := by
    cases o <;> simp [kind]
  exact hkind.resolve_right fun hmem =>
    not_mem_of_folds (List.forall_iff_forall_mem.1 (hfree o.kind hmem)) h hlong

/-- The keyword of a line string, in any case, is not that of a linear ring. -/
theorem dropLeading?_lineString {word : List Char}
    (h : Folds (asciiLower Kind.lineString.keyword.toList) word) (body : List Char) :
    dropLeading? "LINEARRING".toList (asciiUpper word ++ body) = none := by
  have hletters : asciiLower Kind.lineString.keyword.toList =
      ['l', 'i', 'n', 'e', 's', 't', 'r', 'i', 'n', 'g'] := by decide
  rw [hletters] at h
  simp only [Folds, List.forall₂_cons_left_iff] at h
  obtain ⟨l, -, hl, ⟨i, -, hi, ⟨n, -, hn, ⟨e, -, he, ⟨s, rest, hs, -, rfl⟩, rfl⟩, rfl⟩, rfl⟩, rfl⟩ := h
  have hupper : 'A' ≠ s.toUpper := by
    intro heq
    simp only [foldsTo, Bool.or_eq_true, Bool.and_eq_true, beq_iff_eq] at hs
    rcases hs with hlower | ⟨-, rfl⟩
    · rw [← s.toUpper_toLower_eq_toUpper, hlower] at heq
      exact absurd heq (by decide)
    · exact absurd heq (by decide)
  simp [dropLeading?, asciiUpper, hupper]

/-- A keyword with a long s in it is refused. -/
theorem not_mem_of_readAny {o : Outline} {text : String} {word body : List Char}
    {g : Geometry Float} (htrim : trim text.toList = word ++ body)
    (hword : Folds (asciiLower o.kind.keyword.toList) word) (hbody : o.IsBody body)
    (h : readAny text = .ok g) : 'ſ' ∉ word := by
  intro hlong
  rw [kind_eq_of_mem hword hlong] at hword
  have hupper : asciiUpper (trim text.toList) = asciiUpper word ++ body := by
    rw [htrim, asciiUpper_append, asciiUpper_body hbody]
  have hread : readAny text =
      (Wkt.read (asciiUpper word ++ body)).mapError .unreadable >>= finish false := by
    unfold readAny
    rw [hupper]
    dsimp only
    rw [dropLeading?_lineString hword]
    rfl
  rw [hread] at h
  obtain ⟨shape, hshape, -⟩ := bind_eq_ok_iff.1 h
  obtain ⟨rest, htakes⟩ := Wkt.read_eq_ok_iff.1 (mapError_eq_ok_iff.1 hshape)
  obtain ⟨c, cs, rfl⟩ := hword.exists_cons
  have hfirst : c.isAlpha = true := by
    refine (isAlpha_of_folds hword List.mem_cons_self).resolve_right ?_
    rintro rfl
    cases hword with
    | cons hfold _ => exact absurd hfold (by decide)
  have hcontinues : ∀ d ∈ asciiUpper cs, Wkt.continues d = true := by
    intro d hd
    obtain ⟨e, he, rfl⟩ := List.mem_map.1 hd
    rcases isAlpha_of_folds hword (List.mem_cons_of_mem c he) with halpha | rfl
    · exact Wkt.continues_of_isAlpha (by rwa [Char.isAlpha_toUpper_eq_isAlpha])
    · decide
  rw [asciiUpper_cons, Wkt.lexemes_word (by rwa [Char.isAlpha_toUpper_eq_isAlpha]) hcontinues,
    ← asciiUpper_cons, Wkt.takes_firstShape_iff] at htakes
  have hmem : 'ſ' ∈ asciiUpper (c :: cs) := List.mem_map.2 ⟨'ſ', hlong, by decide⟩
  exact absurd (htakes.1 'ſ' (List.mem_append_left _ hmem)) (by decide)

/-! ## Texts that are read -/

/-- A text of an outline that is read is plain between the white space around it. -/
theorem plain_of_readAny {o : Outline} {text : String} {g : Geometry Float}
    (ho : o.IsWritten text.toList) (h : readAny text = .ok g) : Wkt.Plain (trim text.toList) := by
  obtain ⟨word, body, htrim, hword, hbody⟩ := ho.exists_trim
  have hlong := not_mem_of_readAny htrim hword hbody h
  rw [readAny_eq htrim (asciiUpper_keyword hword hlong) hbody] at h
  obtain ⟨shape, hshape, -⟩ := bind_eq_ok_iff.1 h
  rw [htrim, Wkt.plain_append_iff]
  refine ⟨fun c hc => ?_, plain_of_read hbody (mapError_eq_ok_iff.1 hshape)⟩
  have halpha : c.isAlpha = true := (isAlpha_of_folds hword hc).resolve_right fun heq =>
    hlong (heq ▸ hc)
  simp [Wkt.isPlain, Char.isAlphanum, halpha]

/-- A text of an outline is read if and only if it is plain between the white space around it. -/
theorem exists_readAny_iff {o : Outline} {text : String} (ho : o.IsWritten text.toList) :
    (∃ g, readAny text = .ok g) ↔ Wkt.Plain (trim text.toList) := by
  constructor
  · rintro ⟨g, h⟩
    exact plain_of_readAny ho h
  · intro hplain
    obtain ⟨g, hread, -⟩ := exists_readAny ho hplain
    exact ⟨g, hread⟩

/-- What is read of a text of an outline is the geometry that the outline denotes. -/
theorem denotes_of_readAny {o : Outline} {text : String} {g : Geometry Float}
    (ho : o.IsWritten text.toList) (h : readAny text = .ok g) : o.Denotes g := by
  obtain ⟨g', hread, hdenotes⟩ := exists_readAny ho (plain_of_readAny ho h)
  rw [h] at hread
  cases hread
  exact hdenotes

end Outline

end OccurrenceQuery.Geometry
