/-
The complaints of the checks. For every type of values a check that is given a line complains in a line,
provided that the vocabulary of the type, if it has one, is named in a line.
-/
import OccurrenceQuery.Proofs.Calendar.Span
import OccurrenceQuery.Proofs.Message.Fault

namespace OccurrenceQuery

open OccurrenceQuery.Text OccurrenceQuery.Number

variable {text : String}

/-! ## Numbers -/

namespace Range

theorem lines_readRange {α : Type} [LT α] [DecidableLT α] {what : String}
    (element? : List Char → Option α) (hwhat : OneLine what) (h : OneLine text) :
    Fails Rejection.RepeatsLines (readRange what element? text) := by
  unfold readRange
  dsimp only
  split
  · exact .error ⟨hwhat, h⟩
  · split
    · exact .error ⟨.of (by decide), h⟩
    · exact .ok _

theorem lines_checkDecimals (h : OneLine text) : Fails Rejection.RepeatsLines (checkDecimals text) := by
  unfold checkDecimals
  split
  · exact .error (OneLine.of (by decide))
  split
  · exact .ok _
  · exact (lines_readRange _ (.of (by decide)) h).discard

theorem lines_liesWithin (bounds : Range Float) (h : OneLine text) :
    Fails Rejection.RepeatsLines (liesWithin bounds text) := by
  unfold liesWithin
  split
  · exact .ok _
  split
  · exact (lines_readRange _ (.of (by decide)) h).map _
  · exact .error ⟨.of (by decide), h⟩

theorem lines_checkWithin (bounds : Range Float) {what : String} (hwhat : OneLine what)
    (h : OneLine text) : Fails Rejection.RepeatsLines (checkWithin bounds what text) := by
  unfold checkWithin
  split
  · exact .error hwhat
  · refine (lines_liesWithin bounds h).bind fun lies => ?_
    split
    · exact .ok _
    · exact .error ⟨hwhat, h, oneLine_range bounds⟩

theorem lines_integers (h : OneLine text) : Fails Rejection.RepeatsLines (integers text) := by
  unfold integers
  split
  · exact .error (OneLine.of (by decide))
  split
  · exact .ok _
  · exact (lines_readRange _ (.of (by decide)) h).bind fun _ => .ok _

theorem lines_checkBetween (least greatest : Int) {what : String} (hwhat : OneLine what)
    (values : List Int) : Fails Rejection.RepeatsLines (checkBetween least greatest what values) := by
  unfold checkBetween
  split
  · exact .error hwhat
  · exact .ok _

end Range

/-! ## Dates -/

namespace Calendar

theorem lines_precisionRead (precision : Precision) (h : OneLine text) :
    Fails Rejection.RepeatsLines (precision.read text) := by
  have hpattern : OneLine (precision.pattern ++ " date") := by
    cases precision <;> exact (OneLine.of (by decide)).append (.of (by decide))
  unfold Precision.read
  split
  · exact .ok _
  · exact .error ⟨hpattern, h⟩

theorem lines_readPeriod (h : OneLine text) : Fails Rejection.RepeatsLines (readPeriod text) := by
  unfold readPeriod
  split
  · exact .error (OneLine.of (by decide))
  split
  · exact .ok _
  · have hprecision : Fails Rejection.RepeatsLines (precisionOf text) := by
      unfold precisionOf
      split
      · exact .ok _
      · exact .error ⟨.of (by decide), h⟩
    exact hprecision.bind fun precision =>
      (lines_precisionRead precision h).bind fun _ => .ok _

theorem lines_readSpan (h : OneLine text) : Fails Rejection.RepeatsLines (readSpan text) := by
  have hside : ∀ {before after : List Char}, IsCut text before after →
      '\n' ∉ trim before ∧ '\n' ∉ trim after := by
    rintro before after ⟨hcut, -, -⟩
    rw [OneLine, hcut, List.mem_append, List.mem_cons, not_or, not_or] at h
    exact ⟨fun hmem => h.1 (mem_of_mem_trim hmem), fun hmem => h.2.2 (mem_of_mem_trim hmem)⟩
  unfold readSpan
  cases hsides : readSides text with
  | error r =>
    refine .error ?_
    unfold readSides at hsides
    split at hsides
    · exact Except.error.inj hsides ▸ OneLine.of (by decide)
    split at hsides
    · exact Except.error.inj hsides ▸ h
    split at hsides
    · exact Except.error.inj hsides ▸ h
    · cases hsides
  | ok sides =>
    obtain ⟨hbefore, hafter⟩ := hside (readSides_eq_ok_iff.1 hsides)
    refine (lines_readPeriod (.of hbefore)).bind fun first =>
      (lines_readPeriod (.of hafter)).bind fun last => ?_
    split
    · exact .ok _
    · exact .error ⟨.of (by decide), h⟩

end Calendar

theorem lines_checkDates (h : OneLine text) : Fails Rejection.RepeatsLines (checkDates text) := by
  unfold checkDates
  split
  · exact (Calendar.lines_readSpan h).discard
  · exact (Calendar.lines_readPeriod h).discard

/-! ## Geometries -/

namespace Geometry

theorem lines_checkOutline (h : OneLine text) : Fails Fault.RepeatsLines (checkOutline text) := by
  unfold checkOutline
  split
  · exact .error trivial
  split
  · exact .ok _
  · exact .error ((OneLine.of (by decide)).append h)

theorem lines_readAny (text : String) : Fails Fault.RepeatsLines (readAny text) := by
  unfold readAny
  have hread : ∀ letters, Fails Fault.RepeatsLines ((Wkt.read letters).mapError .unreadable) :=
    fun letters => .mapError (P := (Wkt.isWordless · = true)) (fun _ => Wkt.isWordless_of_read)
      fun _ => Wkt.oneLine_textFault
  refine (hread _).bind fun shape => ?_
  split
  · exact .ite (.bind (.error trivial) fun _ => .ok _) (.ok _)
  · exact .error trivial

theorem lines_read (bounded : Bool) (text : String) : Fails Fault.RepeatsLines (read bounded text) := by
  refine (lines_readAny text).bind fun g => ?_
  cases bounded with
  | false => exact .ok _
  | true =>
    simp only [if_true]
    split
    · exact .error trivial
    · exact .ok _

theorem lines_checkSearchable (g : Geometry Float) : Fails Fault.RepeatsLines (checkSearchable g) := by
  unfold checkSearchable
  split
  · exact .ok _
  · exact .ok _
  · exact .ite (.ok _) (.error trivial)
  · split
    · exact .error trivial
    · split
      · exact .error trivial
      · exact .ok _
  · split
    · exact .error trivial
    · split
      · exact .error trivial
      · exact .ok _
  · exact .error trivial

end Geometry

theorem lines_checkGeometry (bounded : Bool) (h : OneLine text) :
    Fails Rejection.RepeatsLines (checkGeometry bounded text) := by
  refine .bind (.mapError (Geometry.lines_checkOutline h) fun _ => id) fun _ => ?_
  refine .discard (.mapError (P := Geometry.Fault.RepeatsLines) ?_ fun _ => id)
  refine (Geometry.lines_read bounded text).bind fun g => ?_
  exact (Geometry.lines_checkSearchable g).bind fun _ => .ok _

/-! ## Distances and circles -/

namespace Distance

theorem oneLine_text (d : Distance) : OneLine d.text := by
  have hsymbol : OneLine d.unit.symbol := by cases d.unit <;> exact .of (by decide)
  exact (oneLine_number d.value).append hsymbol

theorem lines_read (h : OneLine text) : Fails Rejection.RepeatsLines (read text) := by
  unfold read
  split
  · exact .ok _
  · exact .error ⟨.of (by decide), h.trimmed⟩

theorem lines_readPositive (h : OneLine text) : Fails Rejection.RepeatsLines (readPositive text) := by
  unfold readPositive
  split
  · exact .error (OneLine.of (by decide))
  · refine (lines_read h).bind fun d => ?_
    split
    · exact .error h
    · exact .ok _

theorem lines_readSide {cs : List Char} (h : '\n' ∉ cs) : Fails Rejection.RepeatsLines (readSide cs) := by
  unfold readSide
  split
  · exact .ok _
  · exact (lines_readPositive (.of fun hmem => h (mem_of_mem_trim hmem))).map _

theorem lines_check (h : OneLine text) : Fails Rejection.RepeatsLines (check text) := by
  unfold check
  split
  · exact (lines_readPositive h).discard
  · rename_i before after hsplit
    have hsides : '\n' ∉ before ∧ '\n' ∉ after := by
      rw [OneLine, (splitFirst_eq_some_iff.1 hsplit).1, List.mem_append, List.mem_cons, not_or,
        not_or] at h
      exact ⟨h.1, h.2.2⟩
    refine (lines_readSide hsides.1).bind fun lower =>
      (lines_readSide hsides.2).bind fun upper => ?_
    split
    · split
      · exact .error ⟨.of (by decide), h⟩
      · exact .ok _
    · exact .ok _

end Distance

namespace Circle

theorem lines_readCoordinate {cs : List Char} (h : '\n' ∉ cs) :
    Fails Rejection.RepeatsLines (readCoordinate cs) := by
  unfold readCoordinate
  split
  · exact .ok _
  · exact .error ⟨.of (by decide), .of h⟩

theorem lines_read (h : OneLine text) : Fails Rejection.RepeatsLines (read text) := by
  unfold read
  split
  · exact .error (OneLine.of (by decide))
  split
  · rename_i latitude longitude radius hparts
    have hpart : ∀ part ∈ [latitude, longitude, radius], '\n' ∉ part := by
      rw [← hparts, List.forall_mem_map]
      exact fun part hpart hmem => h (mem_of_mem_splitAll hpart (mem_of_mem_trim hmem))
    simp only [List.forall_mem_cons] at hpart
    exact (lines_readCoordinate hpart.1).bind fun _ =>
      (lines_readCoordinate hpart.2.1).bind fun _ =>
        (Distance.lines_read (.of hpart.2.2.1)).bind fun _ => .ok _
  · exact .error h

theorem lines_checkCoordinate (bounds : Range Float) {what : String}
    (hwhat : OneLine what) (x : Float) : Fails Rejection.RepeatsLines (checkCoordinate bounds what x) :=
  .ite (.ok _) (.error ⟨hwhat, oneLine_number x, oneLine_range bounds⟩)

theorem lines_readOnGlobe (h : OneLine text) : Fails Rejection.RepeatsLines (readOnGlobe text) := by
  refine (lines_read h).bind fun circle => ?_
  refine (lines_checkCoordinate _ (.of (by decide)) _).bind fun _ => ?_
  refine (lines_checkCoordinate _ (.of (by decide)) _).bind fun _ => ?_
  split
  · exact .error (Distance.oneLine_text circle.radius)
  · exact .ok _

end Circle

/-! ## All types -/

/-- The vocabulary that a type names its variants by is named in a line. -/
def ValueType.IsNamedInLine : ValueType → Prop
  | variant vocabulary => OneLine vocabulary.name
  | _ => True

theorem lines_checkVariant {α : Type} {answer : Except Vocabulary.Fault α}
    (h : ∀ fault, answer = .error fault → OneLine fault.message) :
    Fails Rejection.RepeatsLines (checkVariant answer) := by
  unfold checkVariant
  cases answer with
  | error fault => exact .error (h fault rfl)
  | ok a => exact .ok _

theorem lines_lookup {table : Vocabulary.CodeTable} (htable : OneLine table.vocabulary)
    (h : OneLine text) : Fails Rejection.RepeatsLines (checkVariant (table.lookup text)) := by
  refine lines_checkVariant fun fault hfault => ?_
  unfold Vocabulary.CodeTable.lookup at hfault
  split at hfault
  · cases hfault
  · exact Except.error.inj hfault ▸ Vocabulary.oneLine_unknownVariant htable h

theorem lines_parse {vocabulary : Vocabulary} (hname : OneLine vocabulary.name)
    (h : OneLine text) : Fails Rejection.RepeatsLines (checkVariant (vocabulary.parse text)) := by
  refine lines_checkVariant fun fault hfault => ?_
  unfold Vocabulary.parse at hfault
  split at hfault
  · cases hfault
  · exact Except.error.inj hfault ▸ Vocabulary.oneLine_unknownVariant hname h

theorem lines_checkValue (bounded : Bool) {type : ValueType} (htype : type.IsNamedInLine)
    (h : OneLine text) : Fails Rejection.RepeatsLines (checkValue bounded type text) := by
  cases type with
  | decimal => exact Range.lines_checkDecimals h
  | latitude | longitude => exact Range.lines_checkWithin _ (.of (by decide)) h
  | integer => exact (Range.lines_integers h).discard
  | month | day =>
    exact (Range.lines_integers h).bind fun values =>
      Range.lines_checkBetween _ _ (.of (by decide)) values
  | boolean => exact .ite (.ok _) (.error h)
  | uuid => exact .ite (.ok _) (.error ⟨.of (by decide), h⟩)
  | country | language => exact lines_lookup (.of (by decide)) h
  | variant vocabulary => exact lines_parse htype h
  | date => exact lines_checkDates h
  | geometry => exact lines_checkGeometry bounded h
  | distance => exact Distance.lines_check h
  | circle => exact (Circle.lines_readOnGlobe h).discard
  | text => exact .ok _

theorem lines_check (bounded : Bool) {type : ValueType} (htype : type.IsNamedInLine)
    (h : OneLine text) : Fails Rejection.RepeatsLines (check bounded type text) := by
  unfold check
  split
  · exact .ok _
  · exact lines_checkValue bounded htype h

end OccurrenceQuery
