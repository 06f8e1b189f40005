/-
The bounds of ranges of decimals. A bound is absent when its side is the wildcard and only then. A bound
that is present is finite when its side is accepted as a single decimal and only then: the number of
a side is rounded as it is, and a magnitude past the bound of rounding becomes an infinity.
-/
import OccurrenceQuery.Proofs.Number.Overflow
import OccurrenceQuery.Proofs.Range.Report

namespace OccurrenceQuery.Range

open OccurrenceQuery.Text OccurrenceQuery.Number

/-! ## Single decimals -/

theorem checkDecimals_eq_ok_iff {text : String} :
    checkDecimals text = .ok () ↔
      (readFinite? text.toList).isSome = true ∨ ∃ r, readDecimals text = .ok r := by
  unfold checkDecimals
  split
  · rename_i hempty
    rw [String.isEmpty_iff] at hempty
    subst hempty
    refine iff_of_false nofun (not_or.2 ⟨by decide, ?_⟩)
    rintro ⟨r, hr⟩
    cases hr
  · split
    · rename_i hfinite
      exact iff_of_true rfl (.inl hfinite)
    · rename_i hfinite
      rw [discard_eq_ok_iff, or_iff_right hfinite]

/-- A range has a comma. -/
theorem comma_mem_of_readDecimals {text : String} {r : Range Float}
    (h : readDecimals text = .ok r) : ',' ∈ text.toList := by
  obtain ⟨_, _, ⟨-, -, left, right, htext, -⟩, -⟩ := readRange_eq_ok_iff.1 h
  simp [htext]

/-- A decimal that is read is accepted by itself when it is finite. -/
theorem checkDecimals_of_readFloat? {side : List Char} {x : Float} (hform : HasDecimalForm side)
    (hread : readFloat? side = some x) :
    checkDecimals (String.ofList side) = .ok () ↔ x.isFinite = true := by
  have hside : IsSide side := .inl hform
  have hnot : ¬ ∃ r, readDecimals (String.ofList side) = .ok r := by
    rintro ⟨r, hr⟩
    apply hside.free
    simpa using comma_mem_of_readDecimals hr
  rw [checkDecimals_eq_ok_iff, or_iff_left hnot, String.toList_ofList, readFinite?,
    trim_of_solid fun c => hside.not_blank, hread]
  cases hfinite : x.isFinite <;> simp [Option.filter, hfinite]

/-! ## Bounds -/

/-- What a side of a range says about its bound. -/
structure IsBoundOf (side : List Char) (bound : Option Float) : Prop where
  absent : bound = none ↔ side = wildcard
  read : ∀ x, bound = some x → readFloat? side = some x
  finite : ∀ x, bound = some x → (x.isFinite = true ↔ magnitude side < overflowBound)
  alone : ∀ x, bound = some x →
    (x.isFinite = true ↔ checkDecimals (String.ofList side) = .ok ())

theorem isBoundOf_of_readBound? {side : List Char} {bound : Option Float} (hside : IsSide side)
    (h : readBound? readFloat? side = some bound) : IsBoundOf side bound := by
  cases bound with
  | none =>
    refine ⟨iff_of_true rfl ?_, nofun, nofun, nofun⟩
    by_contra hwildcard
    simp [readBound?, hwildcard] at h
  | some x =>
    obtain ⟨hwildcard, hread⟩ := readBound?_eq_some_some_iff.1 h
    have hform : HasDecimalForm side := hside.resolve_right hwildcard
    refine ⟨iff_of_false nofun hwildcard, ?_, ?_, ?_⟩
    · rintro _ ⟨⟩
      exact hread
    · rintro _ ⟨⟩
      exact isFinite_readFloat?_iff hform hread
    · rintro _ ⟨⟩
      exact (checkDecimals_of_readFloat? hform hread).symm

/-- A text that is read as a range is accepted. Each of its bounds is absent if and only if its side is
the wildcard, and a bound that is present is the number on its side as it is rounded: finite if and only
if the number is below the bound of rounding, which is to say if it is accepted as a single decimal. -/
theorem bounds_of_readDecimals {text : String} {r : Range Float} (h : readDecimals text = .ok r) :
    checkDecimals text = .ok () ∧ ∃ lower upper, HasSides text.toList lower upper ∧
      IsBoundOf lower r.lower ∧ IsBoundOf upper r.upper := by
  refine ⟨checkDecimals_eq_ok_iff.2 (.inr ⟨r, h⟩), ?_⟩
  obtain ⟨lower, upper, hsides, hlower, hupper, -⟩ := readRange_eq_ok_iff.1 h
  exact ⟨lower, upper, hsides, isBoundOf_of_readBound? hsides.1 hlower,
    isBoundOf_of_readBound? hsides.2.1 hupper⟩

/-- A range of small numbers. -/
theorem bounds_of_readDecimals_small :
    ∃ r, readDecimals "-10.5 , 200.5" = .ok r ∧
      checkDecimals "-10.5 , 200.5" = .ok () ∧ ∃ lower upper,
        HasSides "-10.5 , 200.5".toList lower upper ∧ IsBoundOf lower r.lower ∧
        IsBoundOf upper r.upper := by
  obtain ⟨r, hread⟩ : ∃ r, readDecimals "-10.5 , 200.5" = .ok r :=
    discard_eq_ok_iff.1 (by decide +kernel)
  exact ⟨r, hread, bounds_of_readDecimals hread⟩

/-- A decimal and a wildcard are read as the range from the decimal up. -/
theorem readDecimals_from {side : List Char} {x : Float} (hform : HasDecimalForm side)
    (hread : readFloat? side = some x) :
    readDecimals (String.ofList (side ++ ',' :: wildcard)) = .ok ⟨some x, none⟩ := by
  have hside : side ≠ wildcard := by
    rintro rfl
    exact absurd (hform.mem (List.mem_singleton_self '*')) (by decide)
  apply readRange_eq_ok_iff.2
  refine ⟨side, wildcard, ⟨.inl hform, .inr rfl, [], [], ?_, by simp, by simp⟩, ?_, rfl, rfl⟩
  · simp
  · exact readBound?_eq_some_some_iff.2 ⟨hside, hread⟩

/-- A number of 310 digits. -/
def vast : List Char := List.replicate 310 '1'

theorem isDigit_of_mem_vast {c : Char} (h : c ∈ vast) : c.isDigit = true := by
  rw [List.eq_of_mem_replicate h]
  decide

/-- The number is not accepted by itself, but as a bound it is, and there it is infinite. -/
theorem vast_infinite : checkDecimals (String.ofList vast) ≠ .ok () ∧
    checkDecimals (String.ofList (vast ++ ',' :: wildcard)) = .ok () ∧
    ∃ x, readDecimals (String.ofList (vast ++ ',' :: wildcard)) = .ok ⟨some x, none⟩ ∧
      x.isFinite = false := by
  have hform : HasDecimalForm vast :=
    .inl (.inl ⟨List.cons_ne_nil _ _, fun c hc => by simp [isDecimalDigit, isDigit_of_mem_vast hc]⟩)
  obtain ⟨d, -, hread⟩ := readFloat?_of_hasDecimalForm hform fun c hc => by
    simp [isNumberLetter, Char.isAlphanum, isDigit_of_mem_vast hc]
  have hvast : (overflowBound : ℚ) ≤ magnitude vast :=
    overflowBound_le_magnitude (fun c => isDigit_of_mem_vast) (by decide) List.length_replicate.ge
  have hinfinite := mt (isFinite_readFloat?_iff hform hread).1 hvast.not_gt
  have hrange := readDecimals_from hform hread
  refine ⟨mt (checkDecimals_of_readFloat? hform hread).1 hinfinite, ?_, _, hrange, ?_⟩
  · exact checkDecimals_eq_ok_iff.2 (.inr ⟨_, hrange⟩)
  · exact Bool.eq_false_iff.2 hinfinite

end OccurrenceQuery.Range
