/-
What the check of distances reports. A text is an invalid range exactly when two positive distances
stand on the sides of its first comma and the lower one compares greater than the upper one.
-/
import OccurrenceQuery.Distance.Basic
import OccurrenceQuery.Proofs.Rejection
import OccurrenceQuery.Proofs.WhiteSpace

namespace OccurrenceQuery

open OccurrenceQuery.Text

namespace Distance

/-! ## Positive distances -/

/-- A text denotes a distance greater than zero. -/
def IsPositive (cs : List Char) (d : Distance) : Prop := read? cs = some d ∧ ¬ d.value ≤ 0.0

theorem read?_trim (cs : List Char) : read? (trim cs) = read? cs := by
  unfold read?
  rw [trim_trim]

theorem read_eq_ok_iff {text : String} {d : Distance} :
    read text = .ok d ↔ read? text.toList = some d := by
  unfold read
  split <;> rename_i h <;> simp [h]

theorem reports_read (text : String) : Reports False (read text) := by
  unfold read
  split
  · exact .ok id _
  · exact .value id _

theorem reports_readPositive (text : String) : Reports False (readPositive text) := by
  unfold readPositive
  split
  · exact .value id _
  · refine (reports_read text).bind_values fun d => ?_
    split
    · exact .value id _
    · exact .ok id _

theorem readPositive_eq_ok_iff {text : String} {d : Distance} :
    readPositive text = .ok d ↔ IsPositive text.toList d := by
  unfold readPositive IsPositive
  split
  · rename_i hempty
    have hnone : read? [] = none := rfl
    simp [String.isEmpty_iff.1 hempty, hnone]
  · simp only [bind_eq_ok_iff, read_eq_ok_iff]
    constructor
    · rintro ⟨d', hread, h⟩
      split at h
      · cases h
      · rename_i hpos
        obtain rfl := Except.ok.inj h
        exact ⟨hread, hpos⟩
    · rintro ⟨hread, hpos⟩
      exact ⟨d, hread, by rw [if_neg hpos]; rfl⟩

/-! ## Sides -/

theorem reports_readSide (cs : List Char) : Reports False (readSide cs) := by
  unfold readSide
  split
  · exact .ok id _
  · exact (reports_readPositive _).map _

theorem readSide_eq_ok_some_iff {cs : List Char} {d : Distance} :
    readSide cs = .ok (some d) ↔ IsPositive cs d := by
  unfold readSide
  split
  · rename_i hwildcard
    have hnone : read? cs = none := by
      rw [← read?_trim, hwildcard]
      rfl
    simp [IsPositive, hnone]
  · have hside : readPositive (String.ofList (trim cs)) = .ok d ↔ IsPositive cs d := by
      rw [readPositive_eq_ok_iff, String.toList_ofList, IsPositive, read?_trim, IsPositive]
    rw [← hside]
    cases readPositive (String.ofList (trim cs)) <;> simp [Functor.map, Except.map]

/-! ## Ranges -/

/-- Two positive distances stand on the sides of the first comma, and the lower one is greater. -/
def IsReversed (text : String) : Prop :=
  ∃ before after lower upper, text.toList = before ++ ',' :: after ∧ ',' ∉ before ∧
    IsPositive before lower ∧ IsPositive after upper ∧ lower.compare? upper = some .gt

theorem IsReversed.comma_mem {text : String} (h : IsReversed text) : ',' ∈ text.toList := by
  obtain ⟨before, after, -, -, htext, -⟩ := h
  simp [htext]

theorem isReversed_iff {text : String} {before after : List Char}
    (h : splitFirst ',' text.toList = some (before, after)) :
    IsReversed text ↔ ∃ lower upper, readSide before = .ok (some lower) ∧
      readSide after = .ok (some upper) ∧ lower.compare? upper = some .gt := by
  simp only [readSide_eq_ok_some_iff]
  constructor
  · rintro ⟨before', after', lower, upper, htext, hfree, hreversed⟩
    rw [htext, splitFirst_append hfree] at h
    obtain ⟨rfl, rfl⟩ := Prod.mk.inj (Option.some.inj h)
    exact ⟨lower, upper, hreversed⟩
  · rintro ⟨lower, upper, hreversed⟩
    obtain ⟨htext, hfree⟩ := splitFirst_eq_some_iff.1 h
    exact ⟨before, after, lower, upper, htext, hfree, hreversed⟩

theorem reports_check (text : String) : Reports (IsReversed text) (check text) := by
  unfold check
  split
  · rename_i hsplit
    have hnot : ¬ IsReversed text := fun h => splitFirst_eq_none_iff.1 hsplit h.comma_mem
    exact .of_not hnot (reports_readPositive text).discard
  · rename_i before after hsplit
    refine Reports.bind (reports_readSide _) (fun lower? hlower => ?_) fun r hr => ?_
    · refine Reports.bind (reports_readSide _) (fun upper? hupper => ?_) fun r hr => ?_
      · have hreversed : IsReversed text ↔ ∃ lower upper, lower? = some lower ∧
            upper? = some upper ∧ lower.compare? upper = some .gt := by
          simp [isReversed_iff hsplit, hlower, hupper]
        split
        · rename_i lower upper
          split
          · rename_i hgt
            exact .range (hreversed.2 ⟨lower, upper, rfl, rfl, hgt⟩) _
          · rename_i hgt
            refine .ok (fun h => ?_) _
            obtain ⟨_, _, hl, hu, hgt'⟩ := hreversed.1 h
            obtain rfl := Option.some.inj hl
            obtain rfl := Option.some.inj hu
            exact hgt hgt'
        · rename_i hopen
          refine .ok (fun h => ?_) _
          obtain ⟨lower, upper, hl, hu, -⟩ := hreversed.1 h
          exact hopen lower upper hl hu
      · rw [isReversed_iff hsplit, hr]
        simp
    · rw [isReversed_iff hsplit, hr]
      simp

end Distance

/-! ## Circles -/

namespace Circle

theorem reports_readCoordinate (cs : List Char) : Reports False (readCoordinate cs) := by
  unfold readCoordinate
  split
  · exact .ok id _
  · exact .value id _

theorem reports_read (text : String) : Reports False (read text) := by
  unfold read
  split
  · exact .value id _
  · split
    · refine Reports.bind_values (reports_readCoordinate _) fun _ => ?_
      refine Reports.bind_values (reports_readCoordinate _) fun _ => ?_
      exact Reports.bind_values (Distance.reports_read _) fun _ => .ok id _
    · exact .value id _

theorem reports_checkCoordinate (bounds : Range Float) (what : String) (x : Float) :
    Reports False (checkCoordinate bounds what x) := .accept ..

theorem reports_readOnGlobe (text : String) : Reports False (readOnGlobe text) := by
  unfold readOnGlobe
  refine Reports.bind_values (reports_read text) fun c => ?_
  refine Reports.bind_values (reports_checkCoordinate ..) fun _ => ?_
  refine Reports.bind_values (reports_checkCoordinate ..) fun _ => ?_
  split
  · exact .value id _
  · exact .ok id _

end Circle

end OccurrenceQuery
