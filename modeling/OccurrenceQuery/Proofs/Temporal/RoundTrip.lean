/-
Writing intervals and reading them again. Without leap seconds an interval is read as it was, whatever
operations it came from. A leap second is written as the second before it, so an end that was accepted
can come to lie before the other one, or to be the same.
-/
import OccurrenceQuery.Proofs.Temporal.Form
import OccurrenceQuery.Proofs.Temporal.History

namespace OccurrenceQuery.Temporal

open OccurrenceQuery.Calendar OccurrenceQuery.Text

/-! ## No slash within a temporal -/

theorem slash_not_mem_padded (width n : Nat) : '/' ∉ padded width n := fun h =>
  absurd (isDigit_of_mem_padded h) (by decide)

theorem slash_not_mem_secondsText (second nanosecond : Nat) : '/' ∉ secondsText second nanosecond := by
  have hfraction : '/' ∉ fractionText nanosecond := by
    unfold fractionText
    split
    · exact List.not_mem_nil
    · split
      · simp [slash_not_mem_padded]
      · split <;> simp [slash_not_mem_padded]
  unfold secondsText
  split
  · exact List.not_mem_nil
  · simp [slash_not_mem_padded, hfraction]

theorem slash_not_mem_offsetText (offset : Int) : '/' ∉ offsetText offset := by
  unfold offsetText
  split
  · decide
  · split <;> simp [slash_not_mem_padded]

theorem slash_not_mem_date (d : Date) : '/' ∉ d.letters := by
  unfold Date.letters monthText yearText
  split
  · simp [slash_not_mem_padded]
  · split <;> simp [slash_not_mem_padded]

theorem slash_not_mem_letters (t : Temporal) : '/' ∉ t.letters := by
  have hyear : ∀ y, '/' ∉ plainYear y := by
    intro y
    unfold plainYear
    split <;> simp [slash_not_mem_padded]
  have htime : ∀ t : DateTime, '/' ∉ t.letters := by
    intro t
    simp [DateTime.letters, slash_not_mem_date, slash_not_mem_padded, slash_not_mem_secondsText]
  cases t with
  | year y => exact hyear y
  | yearMonth y month => simp [letters, hyear, slash_not_mem_padded]
  | date d => exact slash_not_mem_date d
  | localTime t => exact htime t
  | offsetTime t offset => simp [letters, htime, slash_not_mem_offsetText]

/-! ## Texts of temporals -/

theorem read_eq_ok_iff (text : String) (t : Temporal) : read text = .ok t ↔ read? text.toList = some t := by
  unfold read
  cases read? text.toList <;> simp

/-- What is written is read as the same value, with its leap second folded into the second before. -/
theorem read_text {t : Temporal} (h : t.IsWritten) : read t.text = .ok t.folded := by
  rw [read_eq_ok_iff, text, String.toList_ofList]
  exact read?_letters h

theorem letters_ne_nil {t : Temporal} (h : t.IsWritten) : t.letters ≠ [] := by
  intro hnil
  have hread := read?_letters h
  rw [hnil] at hread
  cases hread

/-! ## Texts of intervals -/

namespace Interval

theorem adjustOffset_keep (t : Temporal) : t.adjustOffset .keep = t := by
  cases t <;> rfl

theorem render_keep_same (t : Temporal) (last : Option Temporal) (h : ∀ l, last = some l → l = t) :
    render .keep ⟨some t, last⟩ = some t.text := by
  cases last with
  | none => simp [render, adjustOffset_keep]
  | some l => simp [render, adjustOffset_keep, h l rfl, Option.filter]

theorem render_keep_pair {first last : Temporal} (h : last ≠ first) :
    render .keep ⟨some first, some last⟩ = some (first.text ++ "/" ++ last.text) := by
  simp [render, adjustOffset_keep, h, Option.filter]

theorem toList_pair (first last : Temporal) :
    (first.text ++ "/" ++ last.text).toList = first.letters ++ '/' :: last.letters := by
  simp [Temporal.text]

/-- The text of one value is read as the interval with both ends folded from it. -/
theorem ofText_text {t : Temporal} (h : t.IsWritten) :
    ofText t.text = .ok ⟨some t.folded, some t.folded⟩ := by
  have hsplit : splitFirst '/' t.text.toList = none := by
    rw [Temporal.text, String.toList_ofList]
    exact splitFirst_eq_none (slash_not_mem_letters t)
  rw [ofText_eq_ok_iff, hsplit]
  exact ⟨t.folded, t.folded, inOrder_self _, rfl, read_text h, read_text h⟩

/-- The text of two values is read as the interval between the folded ones, if they are in order. -/
theorem ofText_pair_eq_ok_iff {first last : Temporal} (hf : first.IsWritten) (hl : last.IsWritten)
    (interval : Interval) : ofText (first.text ++ "/" ++ last.text) = .ok interval ↔
      InOrder first.folded last.folded ∧ interval = ⟨some first.folded, some last.folded⟩ := by
  have hfirst : read (String.ofList first.letters) = .ok first.folded := read_text hf
  have hlast : read (String.ofList last.letters) = .ok last.folded := read_text hl
  rw [ofText_eq_ok_iff, toList_pair, splitFirst_append (slash_not_mem_letters first)]
  simp only [hfirst, hlast]
  constructor
  · rintro ⟨a, b, ho, rfl, -, ha, hb⟩
    cases ha; cases hb
    exact ⟨ho, rfl⟩
  · rintro ⟨ho, rfl⟩
    exact ⟨_, _, ho, rfl, letters_ne_nil hl, rfl, rfl⟩

theorem text_eq_of_render {interval : Interval} {s : String} (h : interval.render .keep = some s) :
    interval.text = s := by
  rw [Interval.text, h]; rfl

theorem ofJson_toJson {interval : Interval} {s : String} (h : interval.render .keep = some s) :
    ofJson interval.toJson = (ofText s).mapError .text := by
  simp only [toJson, h, ofJson]

end Interval

/-! ## Without leap seconds -/

/-- Whether a temporal is read from some text whose seconds field is not 60. A text that has the field has
it in the three letters after the minute. -/
def IsPlain (t : Temporal) : Prop :=
  ∃ text : String, read text = .ok t ∧ (text.toList.drop 16).take 3 ≠ leapField

theorem IsPlain.isWritten {t : Temporal} (h : t.IsPlain) : t.IsWritten := by
  obtain ⟨text, hread, -⟩ := h
  exact (read?_spec ((read_eq_ok_iff text t).1 hread)).1

theorem IsPlain.folded_eq {t : Temporal} (h : t.IsPlain) : t.folded = t := by
  obtain ⟨text, hread, hfield⟩ := h
  exact folded_of_not_isLeap fun hleap => hfield ((read?_spec ((read_eq_ok_iff text t).1 hread)).2.1 hleap)

theorem IsPlain.read_text {t : Temporal} (h : t.IsPlain) : read t.text = .ok t := by
  rw [Temporal.read_text h.isWritten, h.folded_eq]

namespace Interval

/-- An interval in order with plain ends is read from its text as it was, and so from its JSON form. -/
theorem ofText_render_of_isPlain {interval : Interval} (ho : interval.Ordered)
    (hp : ∀ t, interval.IsEnd t → t.IsPlain) {first : Temporal} (hf : interval.first = some first) :
    ∃ s y, interval.render .keep = some s ∧ ofText s = .ok y ∧ ofJson interval.toJson = .ok y ∧
      y.first = some first ∧ y.last = some (interval.last.getD first) := by
  have hfirst : first.IsPlain := hp first (.inl hf)
  have settle : ∀ s last, interval.render .keep = some s → interval.last.getD first = last →
      ofText s = .ok ⟨some first, some last⟩ →
      ∃ s y, interval.render .keep = some s ∧ ofText s = .ok y ∧ ofJson interval.toJson = .ok y ∧
        y.first = some first ∧ y.last = some (interval.last.getD first) := by
    rintro s last hr rfl hs
    refine ⟨s, _, hr, hs, ?_, rfl, rfl⟩
    rw [ofJson_toJson hr, hs]
    rfl
  have alone : ofText first.text = .ok ⟨some first, some first⟩ := by
    rw [ofText_text hfirst.isWritten, hfirst.folded_eq]
  obtain ⟨_, l⟩ := interval
  cases hf
  -- a last end that is the same is left out of the text
  by_cases hsame : ∀ last, l = some last → last = first
  · refine settle _ first (render_keep_same first l hsame) ?_ alone
    cases l with
    | none => rfl
    | some last => exact hsame last rfl
  · obtain ⟨last, rfl, hne⟩ : ∃ last, l = some last ∧ last ≠ first := by
      simpa only [Classical.not_forall, exists_prop] using hsame
    have hlast : last.IsPlain := hp last (.inr rfl)
    refine settle _ last (render_keep_pair hne) rfl ?_
    rw [ofText_pair_eq_ok_iff hfirst.isWritten hlast.isWritten, hfirst.folded_eq, hlast.folded_eq]
    exact ⟨ho first last rfl rfl, rfl⟩

end Interval

/-- A value from a text without second 60 is read as it was from what is written of it, so no two such
values are written alike. And an interval that any operations have made of such values is read as it was
from its text and from its JSON form, as long as it has a first end; an absent last end becomes the first. -/
theorem round_trip :
    (∀ t : Temporal, t.IsPlain → read t.text = .ok t) ∧
    (∀ t u : Temporal, t.IsPlain → u.IsPlain → t.text = u.text → t = u) ∧
    ∀ operations : List Operation,
      (∀ operation ∈ operations, ∀ t, operation.Brings t → t.IsPlain) →
      ∀ interval first, interval = Operation.afterAll operations Interval.empty →
        interval.first = some first →
        ∃ s y, interval.render .keep = some s ∧ Interval.ofText s = .ok y ∧
          Interval.ofJson interval.toJson = .ok y ∧
          y.first = some first ∧ y.last = some (interval.last.getD first) := by
  refine ⟨fun t h => h.read_text, fun t u ht hu he => ?_, ?_⟩
  · have hread := ht.read_text
    rw [he, hu.read_text] at hread
    exact (Except.ok.inj hread).symm
  · rintro operations hplain interval first rfl hfirst
    have hempty : Interval.empty.Ordered := by rintro _ _ ⟨⟩
    refine Interval.ofText_render_of_isPlain (Operation.ordered_afterAll operations hempty) ?_ hfirst
    intro t ht
    rcases Operation.isEnd_afterAll ht with (hend | hend) | ⟨operation, hmem, hb⟩
    · cases hend
    · cases hend
    · exact hplain operation hmem t hb

end OccurrenceQuery.Temporal
