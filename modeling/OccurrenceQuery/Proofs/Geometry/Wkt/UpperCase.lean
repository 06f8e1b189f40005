/-
Texts of outlines in upper case. Without the long s a keyword becomes that of the kind; what follows it
has no letters and stays as it is.
-/
import OccurrenceQuery.Proofs.Geometry.Wkt.Outline

namespace OccurrenceQuery.Text

theorem toUpper_of_isAlpha_eq_false {c : Char} (h : c.isAlpha = false) : c.toUpper = c := by
  refine Char.toUpper_eq_of_not_isLower fun hlower => ?_
  simp [Char.isAlpha, hlower] at h

theorem asciiUpper_append (cs ds : List Char) :
    asciiUpper (cs ++ ds) = asciiUpper cs ++ asciiUpper ds := List.map_append

theorem asciiUpper_cons (c : Char) (cs : List Char) :
    asciiUpper (c :: cs) = c.toUpper :: asciiUpper cs := rfl

end OccurrenceQuery.Text

namespace OccurrenceQuery.Geometry.Outline

open OccurrenceQuery.Text

/-! ## Keywords -/

/-- A keyword without a long s is in upper case the one that it stands for. -/
theorem asciiUpper_of_folds {letters word : List Char} (hletters : ∀ c ∈ letters, c.toUpper = c)
    (h : Folds (asciiLower letters) word) (hlong : 'ſ' ∉ word) : asciiUpper word = letters := by
  induction letters generalizing word with
  | nil =>
    cases h
    rfl
  | cons letter letters ih =>
    obtain ⟨hletter, hletters⟩ := List.forall_mem_cons.1 hletters
    cases h with
    | @cons _ c _ word hfold hrest =>
      rw [List.mem_cons, not_or] at hlong
      have hlower : c.toLower = letter.toLower := by
        simp only [foldsTo, Bool.or_eq_true, Bool.and_eq_true, beq_iff_eq] at hfold
        rcases hfold with hlower | ⟨-, rfl⟩
        · exact hlower
        · exact absurd rfl hlong.1
      rw [asciiUpper_cons, ih hletters hrest hlong.2, ← c.toUpper_toLower_eq_toUpper, hlower,
        letter.toUpper_toLower_eq_toUpper, hletter]

theorem asciiUpper_keyword {kind : Kind} {word : List Char}
    (h : Folds (asciiLower kind.keyword.toList) word) (hlong : 'ſ' ∉ word) :
    asciiUpper word = kind.keyword.toList :=
  asciiUpper_of_folds (by cases kind <;> exact List.forall_iff_forall_mem.1 (by decide)) h hlong

/-! ## Bodies -/

/-- The texts of a form have no letters that upper case would change. -/
def IsUncased {β : Type} (form : Form β) : Prop := ∀ b cs, form b cs → asciiUpper cs = cs

variable {β : Type} {form : Form β}

theorem asciiUpper_eq_self {cs : List Char} (h : ∀ c ∈ cs, c.isAlpha = false) :
    asciiUpper cs = cs :=
  calc
    cs.map Char.toUpper = cs.map id :=
      List.map_congr_left fun c hc => toUpper_of_isAlpha_eq_false (h c hc)
    _ = cs := List.map_id cs

theorem asciiUpper_spaces {cs : List Char} (h : Spaces cs) : asciiUpper cs = cs := by
  refine asciiUpper_eq_self fun c hc => ?_
  by_contra halpha
  have hsolid := isWhiteSpace_of_isAlpha (.inl (Bool.eq_true_of_not_eq_false halpha))
  rw [h c hc] at hsolid
  cases hsolid

theorem asciiUpper_decimal {n : List Char} (h : Range.HasDecimalForm n) : asciiUpper n = n := by
  refine asciiUpper_eq_self fun c hc => ?_
  by_contra halpha
  have hletter := isDecimalLetter_of_isAlpha (.inl (Bool.eq_true_of_not_eq_false halpha))
  rw [isDecimalLetter_of_mem h hc] at hletter
  cases hletter

theorem isUncased_position : IsUncased PositionText.IsWritten := by
  rintro p cs ⟨left, between, rfl, hleft, hbetween, -, hx, hy⟩
  simp only [asciiUpper_append, asciiUpper_spaces hleft, asciiUpper_spaces hbetween,
    asciiUpper_decimal hx, asciiUpper_decimal hy]

theorem IsUncased.enclosed (h : IsUncased form) : IsUncased (IsEnclosed form) := by
  rintro b cs ⟨left, inner, right, rfl, hleft, hright, hinner⟩
  simp only [asciiUpper_append, asciiUpper_cons, asciiUpper_spaces hleft, asciiUpper_spaces hright,
    h b inner hinner]
  rfl

theorem IsUncased.separated (h : IsUncased form) : IsUncased (IsSeparated form) := by
  intro bs cs hbs
  induction hbs with
  | single hb => exact h _ _ hb
  | cons hb hspace _ ih =>
    simp only [asciiUpper_append, asciiUpper_cons, asciiUpper_spaces hspace, h _ _ hb, ih]
    rfl

theorem asciiUpper_body {o : Outline} {cs : List Char} (h : o.IsBody cs) : asciiUpper cs = cs := by
  have hposition := isUncased_position
  cases o with
  | point p => exact hposition.enclosed p cs h
  | lineString ps => exact hposition.separated.enclosed ps cs h
  | linearRing ps => exact hposition.separated.enclosed ps cs h
  | polygon rings => exact hposition.separated.enclosed.separated.enclosed rings cs h
  | multiPolygon polygons =>
    exact hposition.separated.enclosed.separated.enclosed.separated.enclosed polygons cs h

end OccurrenceQuery.Geometry.Outline
