/-
Messages of one line. What a check says about a text repeats it or parts of it, and adds words, numbers
and the names of types; so a complaint about a text of one line is a line itself.
-/
import OccurrenceQuery.Proofs.Geometry.Coordinates
import OccurrenceQuery.Proofs.Geometry.Wkt.Fault
import OccurrenceQuery.Proofs.Range.Report
import OccurrenceQuery.Validation

namespace OccurrenceQuery

open OccurrenceQuery.Text OccurrenceQuery.Number

/-! ## Lines -/

/-- Whether a text has no line feed. -/
def OneLine (text : String) : Prop := '\n' ∉ text.toList

namespace OneLine

variable {a b : String} {cs : List Char}

theorem of (h : '\n' ∉ cs) : OneLine (String.ofList cs) := by
  rwa [OneLine, String.toList_ofList]

theorem append (ha : OneLine a) (hb : OneLine b) : OneLine (a ++ b) := by
  rw [OneLine, String.toList_append, List.mem_append, not_or]
  exact ⟨ha, hb⟩

theorem trimmed (h : OneLine a) : OneLine (String.ofList (trim a.toList)) :=
  of fun hmem => h (mem_of_mem_trim hmem)

end OneLine

theorem oneLine_toString_nat (n : Nat) : OneLine (toString n) := by
  have hdigits : (toString n).toList = numeral n := by
    show (Nat.repr n).toList = _
    simp [Nat.repr, numeral]
  intro hmem
  rw [hdigits] at hmem
  exact absurd (isDigit_of_mem_numeral hmem) (by decide)

theorem oneLine_toString_int (n : Int) : OneLine (toString n) := by
  cases n with
  | ofNat n => exact oneLine_toString_nat n
  | negSucc n => exact
      ((OneLine.of (by decide) : OneLine "-").append (oneLine_toString_nat (n + 1)))

/-! ## Numbers -/

theorem oneLine_of_isNumberLetter {cs : List Char} (h : ∀ c ∈ cs, isNumberLetter c = true) :
    OneLine (String.ofList cs) :=
  .of fun hmem => absurd (h '\n' hmem) (by decide)

theorem isNumberLetter_of_mem_significant {d : Decimal} {c : Char} (hc : c ∈ d.significant.1) :
    isNumberLetter c = true := by
  have hmem : c ∈ numeral d.digits := by
    have hkept := (List.dropWhile_sublist _).mem (List.mem_reverse.1 hc)
    exact List.mem_reverse.1 hkept
  simp [isNumberLetter, Char.isAlphanum, isDigit_of_mem_numeral hmem]

theorem isNumberLetter_of_mem_magnitude {x : Float} {c : Char} (hc : c ∈ plain.magnitude x) :
    isNumberLetter c = true := by
  have hzero : isNumberLetter '0' = true := by decide
  have hpoint : isNumberLetter '.' = true := by decide
  unfold Layout.magnitude at hc
  dsimp only at hc
  split at hc
  · obtain rfl := List.mem_singleton.1 hc
    exact hzero
  · have hfixed : c ∈ plain.fixed ((Binary.ofFloat x).shortest plain.tie).significant.1
        ((Binary.ofFloat x).shortest plain.tie).significant.2 := hc
    generalize hd : ((Binary.ofFloat x).shortest plain.tie) = d at hfixed
    have hdigit : ∀ e ∈ d.significant.1, isNumberLetter e = true := fun e =>
      isNumberLetter_of_mem_significant
    unfold Layout.fixed at hfixed
    split at hfixed
    · simp only [List.mem_append, List.mem_cons, List.not_mem_nil, or_false] at hfixed
      rcases hfixed with ((rfl | rfl) | hmem) | hmem
      · exact hzero
      · exact hpoint
      · rw [List.eq_of_mem_replicate hmem]
        exact hzero
      · exact hdigit c hmem
    split at hfixed
    · simp only [List.mem_append, plain, List.not_mem_nil, or_false] at hfixed
      rcases hfixed with hmem | hmem
      · exact hdigit c hmem
      · rw [List.eq_of_mem_replicate hmem]
        exact hzero
    · rcases List.mem_append.1 hfixed with hmem | hmem
      · exact hdigit c (List.mem_of_mem_take hmem)
      rcases List.mem_cons.1 hmem with rfl | hmem
      · exact hpoint
      · exact hdigit c (List.mem_of_mem_drop hmem)

theorem oneLine_number (x : Float) : OneLine (Number.text x) := by
  unfold Number.text
  split
  · exact .of (by decide)
  split
  · apply oneLine_of_isNumberLetter
    intro c hc
    unfold Layout.finite at hc
    split at hc
    · rcases List.mem_cons.1 hc with rfl | hmem
      · decide
      · exact isNumberLetter_of_mem_magnitude hmem
    · exact isNumberLetter_of_mem_magnitude hc
  split <;> exact .of (by decide)

theorem oneLine_range (r : Range Float) : OneLine (r.text Number.text) := by
  have hbound : ∀ bound : Option Float, OneLine (Range.boundText Number.text bound) := by
    intro bound
    cases bound with
    | none => exact .of (by decide)
    | some x => exact oneLine_number x
  exact (((OneLine.of (by decide)).append (hbound _)).append (.of (by decide))).append (hbound _)
    |>.append (.of (by decide))

/-! ## Faults -/

theorem Vocabulary.oneLine_unknownVariant {vocabulary text : String} (hvocabulary : OneLine vocabulary)
    (htext : OneLine text) : OneLine (Fault.unknownVariant vocabulary text).message :=
  (((OneLine.of (by decide)).append htext).append (.of (by decide))).append hvocabulary

/-- The texts that a fault of a value repeats are lines. -/
def ValueFault.RepeatsLines : ValueFault → Prop
  | empty what => OneLine what
  | notValid what text => OneLine what ∧ OneLine text
  | outside what text bounds => OneLine what ∧ OneLine text ∧ OneLine bounds
  | malformedRange what text => OneLine what ∧ OneLine text
  | notBetween what _ _ _ => OneLine what
  | notBoolean text => OneLine text
  | notTemporal text => OneLine text
  | openInterval text => OneLine text
  | notCircle text => OneLine text
  | notPositive distance => OneLine distance
  | vocabulary fault => OneLine fault.message

theorem ValueFault.RepeatsLines.oneLine_message {fault : ValueFault} (h : fault.RepeatsLines) :
    OneLine fault.message := by
  cases fault with
  | empty what => exact h.append (.of (by decide))
  | notValid what text => exact (h.2.append (.of (by decide))).append h.1
  | outside what text bounds =>
    exact (((h.2.1.append (.of (by decide))).append h.1).append (.of (by decide))).append h.2.2
  | malformedRange what text =>
    exact (((OneLine.of (by decide)).append h.1).append (.of (by decide))).append h.2
  | notBetween what value least greatest =>
    have hvalue : OneLine (what ++ " " ++ toString value) :=
      (OneLine.append h (.of (by decide))).append (oneLine_toString_int value)
    exact (((hvalue.append (.of (by decide))).append (oneLine_toString_int least)).append
      (.of (by decide))).append (oneLine_toString_int greatest)
  | notBoolean text => exact h.append (.of (by decide))
  | notTemporal text => exact h.append (.of (by decide))
  | openInterval text => exact (OneLine.of (by decide)).append h
  | notCircle text => exact h.append (.of (by decide))
  | notPositive distance => exact (OneLine.of (by decide)).append h
  | vocabulary fault => exact h

/-- The texts that a fault of a range repeats are lines. -/
def RangeFault.RepeatsLines : RangeFault → Prop
  | reversed => True
  | exceeds what text => OneLine what ∧ OneLine text
  | notOneOf strict inclusive => OneLine strict ∧ OneLine inclusive
  | notDateRange text => OneLine text
  | tooManyDates text => OneLine text
  | mixedPrecisions first last => OneLine first ∧ OneLine last
  | backwards first last => OneLine first ∧ OneLine last

theorem RangeFault.RepeatsLines.oneLine_message {fault : RangeFault} (h : fault.RepeatsLines) :
    OneLine fault.message := by
  cases fault with
  | reversed => exact .of (by decide)
  | exceeds what text =>
    have hlower : OneLine ("lower " ++ what ++ " exceeds upper ") :=
      ((OneLine.of (by decide)).append h.1).append (.of (by decide))
    exact ((hlower.append h.1).append (.of (by decide))).append h.2
  | notOneOf strict inclusive =>
    exact ((((OneLine.of (by decide)).append h.1).append (.of (by decide))).append h.2).append
      (.of (by decide))
  | notDateRange text => exact h.append (.of (by decide))
  | tooManyDates text => exact h.append (.of (by decide))
  | mixedPrecisions first last =>
    exact (((OneLine.of (by decide)).append h.1).append (.of (by decide))).append h.2
  | backwards first last =>
    exact ((((OneLine.of (by decide)).append h.1).append (.of (by decide))).append h.2).append
      (.of (by decide))

namespace Geometry

theorem Wkt.oneLine_textFault {fault : TextFault} (h : Wkt.isWordless fault = true) :
    OneLine fault.message := by
  cases fault with
  | missingNumber axis =>
    have haxis : OneLine axis.letter := by cases axis <;> exact .of (by decide)
    exact ((OneLine.of (by decide)).append haxis).append (.of (by decide))
  | unsupportedShape text => cases h
  | _ => exact .of (by decide)

theorem oneLine_problem (found : Problem Float) : OneLine (found.message Number.text) := by
  cases found with
  | tooFewPoints ring =>
    exact ((OneLine.of (by decide)).append (oneLine_toString_nat ring)).append (.of (by decide))
  | notClosed ring =>
    exact ((OneLine.of (by decide)).append (oneLine_toString_nat ring)).append (.of (by decide))
  | selfIntersection ring p =>
    have hring : OneLine s!"ring {ring} self-intersects at (" :=
      ((OneLine.of (by decide)).append (oneLine_toString_nat ring)).append (.of (by decide))
    exact (((hring.append (oneLine_number p.x)).append (.of (by decide))).append
      (oneLine_number p.y)).append (.of (by decide))
  | ringsCross first second =>
    exact ((((OneLine.of (by decide)).append (oneLine_toString_nat first)).append
      (.of (by decide))).append (oneLine_toString_nat second)).append (.of (by decide))
  | holeOutsideShell ring =>
    exact ((OneLine.of (by decide)).append (oneLine_toString_nat ring)).append (.of (by decide))
  | nestedHole ring within =>
    exact (((OneLine.of (by decide)).append (oneLine_toString_nat ring)).append
      (.of (by decide))).append (oneLine_toString_nat within)
  | wrongOrientation ring =>
    cases ring with
    | zero => exact .of (by decide)
    | succ ring =>
      exact ((OneLine.of (by decide)).append (oneLine_toString_nat (ring + 1))).append
        (.of (by decide))
  | overlappingPolygons first second =>
    exact ((((OneLine.of (by decide)).append (oneLine_toString_nat first)).append
      (.of (by decide))).append (oneLine_toString_nat second)).append (.of (by decide))

/-- What a fault repeats of a text is a line; only the outline repeats any. -/
def Fault.RepeatsLines : Fault → Prop
  | unreadable fault => OneLine fault.message
  | _ => True

theorem Fault.RepeatsLines.oneLine_message {fault : Fault} (h : fault.RepeatsLines) :
    OneLine fault.message := by
  cases fault with
  | unreadable fault => exact (OneLine.of (by decide)).append h
  | unsupported kind =>
    have hkind : OneLine kind.keyword := by cases kind <;> exact .of (by decide)
    exact (OneLine.of (by decide)).append hkind
  | outOfBounds p =>
    exact ((((OneLine.of (by decide)).append (oneLine_number p.x)).append
      (.of (by decide))).append (oneLine_number p.y)).append (.of (by decide))
  | problem found => exact (OneLine.of (by decide)).append (oneLine_problem found)
  | empty | zeroArea | openRing => exact .of (by decide)

end Geometry

/-- What a rejection repeats of a text is a line. -/
def Rejection.RepeatsLines : Rejection → Prop
  | value fault => fault.RepeatsLines
  | range fault => fault.RepeatsLines
  | geometry fault => fault.RepeatsLines
  | unknownParameter name => OneLine name

theorem Rejection.RepeatsLines.oneLine_message {r : Rejection} (h : r.RepeatsLines) :
    OneLine r.message := by
  cases r with
  | value fault => exact ValueFault.RepeatsLines.oneLine_message h
  | range fault => exact RangeFault.RepeatsLines.oneLine_message h
  | geometry fault => exact Geometry.Fault.RepeatsLines.oneLine_message h
  | unknownParameter name => exact ((OneLine.of (by decide)).append h).append (.of (by decide))

/-! ## Failures -/

/-- A result is a value, or a failure with the property `P`. -/
def Fails {ε α : Type} (P : ε → Prop) (x : Except ε α) : Prop := ∀ e, x = .error e → P e

namespace Fails

variable {ε ε' α β : Type} {P : ε → Prop} {x : Except ε α}

theorem ok (a : α) : Fails P (.ok a) := nofun

theorem error {e : ε} (h : P e) : Fails P (.error e : Except ε α) := by
  intro found heq
  exact Except.error.inj heq ▸ h

theorem bind {f : α → Except ε β} (hx : Fails P x) (hf : ∀ a, Fails P (f a)) :
    Fails P (x >>= f) := by
  cases x with
  | error e => exact .error (hx e rfl)
  | ok a => exact hf a

theorem map (hx : Fails P x) (g : α → β) : Fails P (g <$> x) := by
  cases x with
  | error e => exact .error (hx e rfl)
  | ok a => exact .ok (g a)

theorem discard (hx : Fails P x) : Fails P (discard x) := hx.map _

theorem mapError {Q : ε' → Prop} {f : ε → ε'} (hx : Fails P x) (hf : ∀ e, P e → Q (f e)) :
    Fails Q (x.mapError f) := by
  cases x with
  | error e => exact .error (hf e (hx e rfl))
  | ok a => exact .ok a

theorem ite {c : Prop} [Decidable c] {y : Except ε α} (hx : Fails P x) (hy : Fails P y) :
    Fails P (if c then x else y) := by
  split
  · exact hx
  · exact hy

end Fails

end OccurrenceQuery
