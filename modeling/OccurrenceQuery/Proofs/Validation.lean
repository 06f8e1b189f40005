/-
The kinds of rejection. A check rejects a geometry as an invalid geometry, a reversed range as an
invalid range, and everything else as an invalid value, whichever of its rules it breaks first.
-/
import OccurrenceQuery.Proofs.Calendar.Span
import OccurrenceQuery.Proofs.Distance
import OccurrenceQuery.Proofs.Range.Report
import OccurrenceQuery.Validation

namespace OccurrenceQuery

open OccurrenceQuery.Text OccurrenceQuery.Number

/-! ## Faults of ranges -/

/-- A text is a range in the wrong order, or of too many dates, for the type. -/
def ValueType.HasRangeFault (type : ValueType) (text : String) : Prop :=
  match type with
  | .decimal | .latitude | .longitude => Range.IsReversed readFloat? text
  | .integer | .month | .day => Range.IsReversed readInt32? text
  | .date => Calendar.HasSpanFault text
  | .distance => Distance.IsReversed text
  | _ => False

theorem ValueType.HasRangeFault.comma_mem {type : ValueType} {text : String}
    (h : type.HasRangeFault text) : ',' ∈ text.toList := by
  cases type with
  | decimal | latitude | longitude => exact Range.IsReversed.comma_mem h
  | integer | month | day => exact Range.IsReversed.comma_mem h
  | date => exact Calendar.HasSpanFault.comma_mem h
  | distance => exact Distance.IsReversed.comma_mem h
  | _ => exact h.elim

theorem comma_not_mem_of_isWildcard {text : String} (h : Range.isWildcard text = true) :
    ',' ∉ text.toList := by
  intro hmem
  have htrim := mem_trim_of_mem (by decide) hmem
  rw [beq_iff_eq.1 h] at htrim
  exact absurd htrim (by decide)

/-! ## Checks of single types -/

theorem reports_checkDates (text : String) :
    Reports (Calendar.HasSpanFault text) (checkDates text) := by
  unfold checkDates
  split
  · rename_i hcomma
    exact (Calendar.reports_readSpan (by simpa using hcomma)).discard
  · rename_i hcomma
    refine .of_not (fun h => ?_) (Calendar.reports_readPeriod text).discard
    exact hcomma (by simpa using h.comma_mem)

theorem reports_checkVariant {α : Type} (answer : Except Vocabulary.Fault α) :
    Reports False (checkVariant answer) := by
  unfold checkVariant
  cases answer with
  | error fault => exact .value id _
  | ok a => exact .ok id _

theorem kind_of_mapError {α : Type} {x : Except Geometry.Fault α} {r : Rejection}
    (h : x.mapError .geometry = .error r) : r.kind = .invalidGeometry := by
  cases x with
  | error fault => exact Except.error.inj h ▸ rfl
  | ok a => cases h

theorem kind_of_checkGeometry {bounded : Bool} {text : String} {r : Rejection}
    (h : checkGeometry bounded text = .error r) : r.kind = .invalidGeometry := by
  unfold checkGeometry at h
  cases houtline : (Geometry.checkOutline text).mapError Rejection.geometry with
  | error r' =>
    rw [houtline] at h
    exact Except.error.inj h ▸ kind_of_mapError houtline
  | ok _ =>
    rw [houtline] at h
    cases hread : (Geometry.readSearchable bounded text).mapError Rejection.geometry with
    | error r' =>
      rw [hread] at h
      exact Except.error.inj h ▸ kind_of_mapError hread
    | ok _ =>
      rw [hread] at h
      cases h

/-- The checks of all types but geometries complain about exactly the faults of ranges. -/
theorem reports_checkValue (bounded : Bool) {type : ValueType} (text : String)
    (htype : type ≠ .geometry) :
    Reports (type.HasRangeFault text) (checkValue bounded type text) := by
  cases type with
  | decimal => exact Range.reports_checkDecimals text
  | latitude | longitude => exact Range.reports_checkWithin _ _ text
  | integer => exact (Range.reports_integers text).discard
  | month | day =>
    exact (Range.reports_integers text).bind_values fun _ => Range.reports_checkBetween ..
  | boolean | uuid => exact .accept ..
  | country | language | variant => exact reports_checkVariant _
  | date => exact reports_checkDates text
  | geometry => exact absurd rfl htype
  | distance => exact Distance.reports_check text
  | circle => exact (Circle.reports_readOnGlobe text).discard
  | text => exact .ok id _

theorem reports_check (bounded : Bool) {type : ValueType} (text : String)
    (htype : type ≠ .geometry) : Reports (type.HasRangeFault text) (check bounded type text) := by
  unfold check
  split
  · rename_i hwildcard
    rw [Bool.and_eq_true] at hwildcard
    exact .ok (fun h => comma_not_mem_of_isWildcard hwildcard.2 h.comma_mem) _
  · exact reports_checkValue bounded text htype

/-! ## Kinds -/

/-- A failed check of a geometry is an invalid geometry; any other failed check is an invalid range
exactly when the text has a fault of ranges for the type, and else an invalid value. -/
theorem kind_of_check {bounded : Bool} {type : ValueType} {text : String} {r : Rejection}
    (h : check bounded type text = .error r) :
    (r.kind = .invalidGeometry ↔ type = .geometry) ∧ r.kind ≠ .unknownParameter ∧
      (r.kind = .invalidRange ↔ type.HasRangeFault text) ∧
      (r.kind = .invalidValue ↔ type ≠ .geometry ∧ ¬ type.HasRangeFault text) := by
  by_cases htype : type = .geometry
  · subst htype
    have hkind : r.kind = .invalidGeometry := kind_of_checkGeometry h
    simp [hkind, ValueType.HasRangeFault]
  · have hreports := reports_check bounded text htype
    rw [h] at hreports
    rcases hreports.kind_of_error with ⟨hfault, hkind⟩ | ⟨hfault, hkind⟩ <;>
      simp [hkind, htype, hfault]

theorem kind_of_check_reversed_months :
    check true .month "13,2" = .error (.range (.exceeds "bound" "13,2")) ∧
      ValueType.month.HasRangeFault "13,2" := by
  have hcheck : check true .month "13,2" = .error (.range (.exceeds "bound" "13,2")) := by rfl
  exact ⟨hcheck, (kind_of_check hcheck).2.2.1.1 rfl⟩

end OccurrenceQuery
