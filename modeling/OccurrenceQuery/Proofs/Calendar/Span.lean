/-
The meaning of ranges of dates. A text is a range when it is cut at its only comma into two sides
that name periods or are wildcards, unless the lower period begins after the upper one has ended;
the range then holds the days from the first one of the lower period to the last one of the upper.
-/
import OccurrenceQuery.Calendar.Period
import OccurrenceQuery.Proofs.Calendar.Period

namespace OccurrenceQuery.Calendar

open OccurrenceQuery.Text

/-! ## Sides -/

/-- A text is cut at its only comma. -/
def IsCut (text : String) (before after : List Char) : Prop :=
  text.toList = before ++ ',' :: after ∧ ',' ∉ before ∧ ',' ∉ after

/-- A side names the period that is written in it, and none when it is the wildcard. -/
def Names (side : List Char) : Option Period → Prop
  | none => side = Range.wildcard
  | some p => p.IsWritten side

theorem readSides_eq_ok_iff {text : String} {before after : List Char} :
    readSides text = .ok (before, after) ↔ IsCut text before after := by
  unfold readSides IsCut
  split
  · rename_i hempty
    rw [String.isEmpty_iff] at hempty
    simp [hempty]
  · split
    · rename_i hsplit
      rw [splitFirst_eq_none_iff] at hsplit
      simp only [reduceCtorEq, false_iff]
      rintro ⟨hcut, -, -⟩
      simp [hcut] at hsplit
    · rename_i lower upper hsplit
      obtain ⟨hcut, hfree⟩ := splitFirst_eq_some_iff.1 hsplit
      constructor
      · intro h
        split at h
        · cases h
        · rename_i hcomma
          obtain ⟨rfl, rfl⟩ := Prod.mk.inj (Except.ok.inj h)
          exact ⟨hcut, hfree, by simpa using hcomma⟩
      · rintro ⟨hcut', hfree', hcomma⟩
        obtain ⟨rfl, rfl⟩ := Prod.mk.inj (Option.some.inj
          (hsplit.symm.trans (splitFirst_eq_some_iff.2 ⟨hcut', hfree'⟩)))
        simp [hcomma]

theorem IsCut.count_comma {text : String} {before after : List Char} (h : IsCut text before after) :
    text.toList.count ',' = 1 := by
  obtain ⟨htext, hbefore, hafter⟩ := h
  simp [htext, List.count_eq_zero.2 hbefore, List.count_eq_zero.2 hafter]

theorem IsCut.unique {text : String} {before after before' after' : List Char}
    (h : IsCut text before after) (h' : IsCut text before' after') :
    before = before' ∧ after = after' := by
  simpa using (readSides_eq_ok_iff.2 h).symm.trans (readSides_eq_ok_iff.2 h')

theorem readPeriod_eq_ok_iff_names {side : List Char} {a : Option Period} :
    readPeriod (String.ofList side) = .ok a ↔ Names side a := by
  cases a with
  | none => rw [Period.readPeriod_eq_ok_none_iff, String.toList_ofList, Names]
  | some p => rw [Period.readPeriod_eq_ok_some_iff, String.toList_ofList, Names]

theorem Names.unique {side : List Char} {a b : Option Period} (ha : Names side a)
    (hb : Names side b) : a = b := by
  rw [← readPeriod_eq_ok_iff_names] at ha hb
  exact Except.ok.inj (ha.symm.trans hb)

/-! ## Ranges -/

/-- The first day of the lower period comes after the last day of the upper one. -/
def Reversed (a b : Option Period) : Prop :=
  ∃ p q first last, a = some p ∧ b = some q ∧ IsLeast p.days first ∧ IsGreatest q.days last ∧
    last < first

/-- A day is on or after the first day of a period, if there is one. -/
def NotBefore (a : Option Period) (d : Date) : Prop :=
  ∀ p, a = some p → ∃ first, IsLeast p.days first ∧ first ≤ d

/-- A day is on or before the last day of a period, if there is one. -/
def NotAfter (b : Option Period) (d : Date) : Prop :=
  ∀ q, b = some q → ∃ last, IsGreatest q.days last ∧ d ≤ last

theorem reversed_iff {side : List Char} {a b : Option Period} (h : Names side a) :
    Reversed a b ↔ Range.between? (a.map Period.first) (b.map Period.last) = none := by
  simp only [Range.between?_eq_none_iff, Option.map_eq_some_iff]
  constructor
  · rintro ⟨p, q, first, last, rfl, rfl, hfirst, hlast, hlt⟩
    obtain rfl := hfirst.unique (Period.isLeast_first h)
    obtain rfl := hlast.unique q.isGreatest_last
    exact ⟨_, _, ⟨p, rfl, rfl⟩, ⟨q, rfl, rfl⟩, hlt⟩
  · rintro ⟨_, _, ⟨p, rfl, rfl⟩, ⟨q, rfl, rfl⟩, hlt⟩
    exact ⟨p, q, _, _, rfl, rfl, Period.isLeast_first h, q.isGreatest_last, hlt⟩

theorem atLeast_iff {side : List Char} {a : Option Period} (h : Names side a) (d : Date) :
    Range.atLeast (a.map Period.first) d = true ↔ NotBefore a d := by
  cases a with
  | none => simp [Range.atLeast, NotBefore]
  | some p =>
    have hfirst : ∀ first, IsLeast p.days first ↔ first = p.first := fun first =>
      ⟨fun hf => hf.unique (Period.isLeast_first h), fun hf => hf ▸ Period.isLeast_first h⟩
    simp [Range.atLeast, NotBefore, hfirst]

theorem atMost_iff (b : Option Period) (d : Date) :
    Range.atMost (b.map Period.last) d = true ↔ NotAfter b d := by
  cases b with
  | none => simp [Range.atMost, NotAfter]
  | some q =>
    have hlast : ∀ last, IsGreatest q.days last ↔ last = q.last := fun last =>
      ⟨fun hl => hl.unique q.isGreatest_last, fun hl => hl ▸ q.isGreatest_last⟩
    simp [Range.atMost, NotAfter, hlast]

theorem readSpan_eq_ok_iff {text : String} {r : Range Date} :
    readSpan text = .ok r ↔ ∃ before after a b, IsCut text before after ∧
      Names (trim before) a ∧ Names (trim after) b ∧
      Range.between? (a.map Period.first) (b.map Period.last) = some r := by
  simp only [readSpan, bind_eq_ok_iff, Prod.exists, readSides_eq_ok_iff,
    readPeriod_eq_ok_iff_names]
  constructor
  · rintro ⟨before, after, hcut, a, ha, b, hb, h⟩
    refine ⟨before, after, a, b, hcut, ha, hb, ?_⟩
    split at h
    · rename_i r' hr'
      exact Except.ok.inj h ▸ hr'
    · cases h
  · rintro ⟨before, after, a, b, hcut, ha, hb, hr⟩
    exact ⟨before, after, hcut, a, ha, b, hb, by rw [hr]; rfl⟩

/-- A side is read as what it names. A text is read as a range exactly when each side of its only
comma, without the white space around it, names a period or is the wildcard and the two are not
reversed. The range that is read begins at the first day of the lower period as it stands, and holds
the days that are neither before that day nor after the last day of the upper period. -/
theorem readSpan_spec (text : String) :
    (∀ side a, readPeriod (String.ofList side) = .ok a ↔ Names side a) ∧
    ((∃ r, readSpan text = .ok r) ↔ ∃ before after a b, IsCut text before after ∧
      Names (trim before) a ∧ Names (trim after) b ∧ ¬ Reversed a b) ∧
    ∀ r before after a b, readSpan text = .ok r → IsCut text before after →
      Names (trim before) a → Names (trim after) b →
      r.lower = a.map Period.first ∧
      ∀ d, r.contains d = true ↔ NotBefore a d ∧ NotAfter b d := by
  refine ⟨fun side a => readPeriod_eq_ok_iff_names, ?_, ?_⟩
  · simp only [readSpan_eq_ok_iff]
    constructor
    · rintro ⟨r, before, after, a, b, hcut, ha, hb, hr⟩
      exact ⟨before, after, a, b, hcut, ha, hb, by simp [reversed_iff ha, hr]⟩
    · rintro ⟨before, after, a, b, hcut, ha, hb, hnot⟩
      rw [reversed_iff ha] at hnot
      obtain ⟨r, hr⟩ := Option.ne_none_iff_exists'.1 hnot
      exact ⟨r, before, after, a, b, hcut, ha, hb, hr⟩
  · intro r before after a b h hcut ha hb
    obtain ⟨before', after', a', b', hcut', ha', hb', hr⟩ := readSpan_eq_ok_iff.1 h
    obtain ⟨rfl, rfl⟩ := hcut.unique hcut'
    obtain rfl := ha.unique ha'
    obtain rfl := hb.unique hb'
    rw [Range.eq_of_between? hr]
    refine ⟨rfl, fun d => ?_⟩
    rw [Range.contains, Bool.and_eq_true, atLeast_iff ha, atMost_iff]

example : (readSpan "1999-12, 2000-02").toOption.map (·.upper.map Date.letters) =
    some (some "2000-02-29".toList) := by rfl

/-! ## Reports -/

/-- A text has more than one comma, or its only comma stands between two dates that are reversed. -/
def HasSpanFault (text : String) : Prop :=
  1 < text.toList.count ',' ∨ ∃ before after a b, IsCut text before after ∧
    Names (trim before) a ∧ Names (trim after) b ∧ Reversed a b

theorem HasSpanFault.comma_mem {text : String} (h : HasSpanFault text) : ',' ∈ text.toList := by
  rcases h with hcount | ⟨before, after, -, -, hcut, -⟩
  · exact List.count_pos_iff.1 (by omega)
  · exact List.count_pos_iff.1 (by rw [hcut.count_comma]; decide)

theorem hasSpanFault_iff {text : String} {before after : List Char} (h : IsCut text before after) :
    HasSpanFault text ↔ ∃ a b, Names (trim before) a ∧ Names (trim after) b ∧ Reversed a b := by
  constructor
  · rintro (hcount | ⟨before', after', a, b, hcut, hnames⟩)
    · rw [h.count_comma] at hcount
      omega
    · obtain ⟨rfl, rfl⟩ := h.unique hcut
      exact ⟨a, b, hnames⟩
  · rintro ⟨a, b, hnames⟩
    exact .inr ⟨before, after, a, b, h, hnames⟩

theorem hasSpanFault_iff_reversed {text : String} {before after : List Char} {a b : Option Period}
    (h : IsCut text before after) (ha : Names (trim before) a) (hb : Names (trim after) b) :
    HasSpanFault text ↔ Reversed a b := by
  rw [hasSpanFault_iff h]
  constructor
  · rintro ⟨a', b', ha', hb', hreversed⟩
    rwa [ha.unique ha', hb.unique hb']
  · intro hreversed
    exact ⟨a, b, ha, hb, hreversed⟩

theorem reports_readPeriod (text : String) : Reports False (readPeriod text) := by
  unfold readPeriod
  split
  · exact .value id _
  · split
    · exact .ok id _
    · refine Reports.bind_values ?_ fun precision => Reports.bind_values ?_ fun _ => .ok id _
      · unfold precisionOf
        split
        · exact .ok id _
        · exact .value id _
      · unfold Precision.read
        split
        · exact .ok id _
        · exact .value id _

theorem exists_readSides {text : String} (h : ',' ∈ text.toList) :
    (∃ before after, readSides text = .ok (before, after)) ∨
      1 < text.toList.count ',' ∧ readSides text = .error (.range (.tooManyDates text)) := by
  obtain ⟨before, after, htext, hfree⟩ := List.eq_append_cons_of_mem h
  have hempty : text.isEmpty = false := by
    rw [Bool.eq_false_iff]
    intro hempty
    simp [String.isEmpty_iff.1 hempty] at h
  by_cases hafter : ',' ∈ after
  · refine .inr ⟨?_, ?_⟩
    · have hpos := List.count_pos_iff.2 hafter
      rw [htext, List.count_append, List.count_cons_self]
      omega
    · simp [readSides, hempty, htext, splitFirst_append hfree, hafter]
  · exact .inl ⟨before, after, readSides_eq_ok_iff.2 ⟨htext, hfree, hafter⟩⟩

/-- A text with a comma is an invalid range of dates exactly when it has too many commas or its two
dates are reversed. -/
theorem reports_readSpan {text : String} (h : ',' ∈ text.toList) :
    Reports (HasSpanFault text) (readSpan text) := by
  unfold readSpan
  rcases exists_readSides h with ⟨before, after, hsides⟩ | ⟨hcount, hsides⟩
  · rw [hsides]
    have hcut := readSides_eq_ok_iff.1 hsides
    -- a side that is no date leaves no order to complain about, whatever the other side is
    refine Reports.bind (x := readPeriod (String.ofList (trim before))) (reports_readPeriod _)
      (fun a ha => ?_) fun r hr => ?_
    · refine Reports.bind (reports_readPeriod _) (fun b hb => ?_) fun r hr => ?_
      · rw [readPeriod_eq_ok_iff_names] at ha hb
        have hreversed := (hasSpanFault_iff_reversed hcut ha hb).trans (reversed_iff ha)
        split
        · rename_i found hfound
          refine .ok ?_ found
          rw [hreversed, hfound]
          exact Option.some_ne_none found
        · rename_i hnone
          exact .range (hreversed.2 hnone) _
      · rw [hasSpanFault_iff hcut]
        rintro ⟨a', b', -, hb', -⟩
        rw [← readPeriod_eq_ok_iff_names, hr] at hb'
        cases hb'
    · rw [hasSpanFault_iff hcut]
      rintro ⟨a', b', ha', -, -⟩
      rw [← readPeriod_eq_ok_iff_names, hr] at ha'
      cases ha'
  · rw [hsides]
    exact .range (.inl hcount) _

end OccurrenceQuery.Calendar
