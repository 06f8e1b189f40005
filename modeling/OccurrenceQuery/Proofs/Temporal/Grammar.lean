/-
The grammar of temporals. A text is read as a temporal exactly when it is a date in full width, or such
a date with a time of day behind it, and after the time nothing or an offset; the temporal then has the
fields as they are written. A part of a text is read up to where no character continues it, so each
reader is described by the parts that it takes and by what may follow them.
-/
import OccurrenceQuery.Proofs.Temporal.Dates

namespace OccurrenceQuery.Temporal

open OccurrenceQuery.Calendar OccurrenceQuery.Text

/-! ## Texts of times -/

/-- A fraction of a second in nanoseconds: nothing, or a point and up to nine digits. -/
inductive IsFraction : Nat → List Char → Prop where
  | absent : IsFraction 0 []
  | digits {fs : List Char} (hf : isNumeral fs = true) (hl : fs.length ≤ 9) :
    IsFraction (numeralValue fs * 10 ^ (9 - fs.length)) ('.' :: fs)

/-- A second and its nanoseconds: nothing, or a colon, the second and a fraction. -/
inductive IsSeconds : Nat → Nat → List Char → Prop where
  | absent : IsSeconds 0 0 []
  | present {ss fs : List Char} {s n : Nat} (hs : IsField 2 ss s) (hf : IsFraction n fs) :
    IsSeconds s n (':' :: (ss ++ fs))

/-- Whether a time of day has the fields of a clock. Second 60 is a leap second, which is kept as
the nanoseconds after the end of second 59. -/
def TimeOfDay.IsAt (t : TimeOfDay) (hour minute second nanosecond : Nat) : Prop :=
  hour ≤ 23 ∧ minute ≤ 59 ∧ second ≤ 60 ∧ t.hour = hour ∧ t.minute = minute ∧
    if second = 60 then t.second = 59 ∧ t.nanosecond = nanosPerSecond + nanosecond
    else t.second = second ∧ t.nanosecond = nanosecond

/-- The text of a time of day: hour, minute, and the seconds if they are written. -/
inductive IsTimeText : TimeOfDay → List Char → Prop where
  | fields {hs ms rest : List Char} {h m s n : Nat} {t : TimeOfDay} (hh : IsField 2 hs h)
    (hm : IsField 2 ms m) (hr : IsSeconds s n rest) (ht : t.IsAt h m s n) :
    IsTimeText t (hs ++ ':' :: (ms ++ rest))

/-! ## Texts of offsets -/

/-- Hours and minutes, at most 18:59, in seconds. -/
inductive IsHours : Nat → List Char → Prop where
  | fields {hs ms : List Char} {h m : Nat} (hh : IsField 2 hs h) (hm : IsField 2 ms m)
    (hle : h ≤ 18 ∧ m ≤ 59) : IsHours (h * 3600 + m * 60) (hs ++ ':' :: ms)

/-- The text of an offset: universal time, or hours and minutes to the east or to the west of it. -/
inductive IsOffsetText : Int → List Char → Prop where
  | universal : IsOffsetText 0 ['Z']
  | east {n : Nat} {cs : List Char} (h : IsHours n cs) : IsOffsetText n ('+' :: cs)
  | west {n : Nat} {cs : List Char} (h : IsHours n cs) : IsOffsetText (-(n : Int)) ('-' :: cs)

/-! ## Texts of temporals -/

/-- The text of a temporal: that of a year, a month or a day, or that of a day, a time on it, and the
offset if it has one. -/
inductive IsText : Temporal → List Char → Prop where
  | date {t : Temporal} {cs : List Char} (h : IsDateText t cs) : IsText t cs
  | localTime {day : Date} {time : TimeOfDay} {ds ts : List Char} (hd : IsDateText (.date day) ds)
    (ht : IsTimeText time ts) : IsText (.localTime ⟨day, time⟩) (ds ++ 'T' :: ts)
  | offsetTime {day : Date} {time : TimeOfDay} {offset : Int} {ds ts os : List Char}
    (hd : IsDateText (.date day) ds) (ht : IsTimeText time ts) (ho : IsOffsetText offset os) :
    IsText (.offsetTime ⟨day, time⟩ offset) (ds ++ 'T' :: (ts ++ os))

/-! ## Fields -/

theorem IsField.take {width n : Nat} {field : List Char} (hw : 0 < width) (h : IsField width field n)
    (rest : List Char) : takeNumeral width (field ++ rest) = some (n, rest) :=
  (takeNumeral_eq_some_iff_field hw).2 ⟨field, h, rfl⟩

theorem IsField.lt {width n : Nat} {field : List Char} (hw : 0 < width) (h : IsField width field n) :
    n < 10 ^ width :=
  ((takeNumeral_eq_some_iff hw).1 (h.take hw [])).1

theorem IsFraction.lt {n : Nat} {cs : List Char} (h : IsFraction n cs) : n < nanosPerSecond := by
  cases h with
  | absent => decide
  | @digits fs hf hl =>
    have hpos : 0 < fs.length := List.length_pos_of_ne_nil (by rintro rfl; cases hf)
    have hvalue : numeralValue fs < 10 ^ fs.length := IsField.lt hpos ⟨rfl, hf, rfl⟩
    calc numeralValue fs * 10 ^ (9 - fs.length)
        < 10 ^ fs.length * 10 ^ (9 - fs.length) := Nat.mul_lt_mul_of_pos_right hvalue (by positivity)
      _ = 10 ^ 9 := by rw [← pow_add, Nat.add_sub_cancel' hl]

theorem IsSeconds.lt {s n : Nat} {cs : List Char} (h : IsSeconds s n cs) : n < nanosPerSecond := by
  cases h with
  | absent => decide
  | present hs hf => exact hf.lt

/-! ## Reading times -/

variable {cs rest : List Char} {s n : Nat}

theorem isFraction_of_takeFraction (h : takeFraction cs = some (n, rest)) :
    ∃ fs, IsFraction n fs ∧ cs = fs ++ rest := by
  unfold takeFraction at h
  split at h
  · rename_i ds
    dsimp only at h
    split at h
    · rename_i hl
      obtain ⟨rfl, rfl⟩ := Prod.mk.inj (Option.some.inj h)
      have hne : ds.takeWhile Char.isDigit ≠ [] := List.ne_nil_of_length_pos hl.1
      have hnumeral : isNumeral (ds.takeWhile Char.isDigit) = true := by
        simp [isNumeral, hne, List.all_takeWhile]
      exact ⟨_, .digits hnumeral hl.2, by simp [List.takeWhile_append_dropWhile]⟩
    · cases h
  · cases h
    exact ⟨[], .absent, rfl⟩

theorem IsFraction.take (h : IsFraction n cs) (hr : EndsTime rest) :
    takeFraction (cs ++ rest) = some (n, rest) := by
  cases h with
  | absent => exact takeFraction_fractionText (show 0 < nanosPerSecond by decide) hr
  | @digits fs hf hl =>
    have hne : fs ≠ [] := by rintro rfl; cases hf
    exact takeFraction_digits ⟨List.length_pos_of_ne_nil hne, hl⟩
      (fun c => isDigit_of_isNumeral hf) hr

theorem isSeconds_of_takeSeconds (h : takeSeconds cs = some ((s, n), rest)) :
    ∃ ts, IsSeconds s n ts ∧ cs = ts ++ rest := by
  unfold takeSeconds at h
  split at h
  · obtain ⟨⟨second, ds⟩, hsecond, h⟩ := Option.bind_eq_some_iff.1 h
    obtain ⟨⟨nanosecond, ds'⟩, hfraction, h⟩ := Option.bind_eq_some_iff.1 h
    cases h
    obtain ⟨ss, hs, rfl⟩ := (takeNumeral_eq_some_iff_field (by decide)).1 hsecond
    obtain ⟨fs, hf, rfl⟩ := isFraction_of_takeFraction hfraction
    exact ⟨_, .present hs hf, by simp⟩
  · cases h
    exact ⟨[], .absent, rfl⟩

theorem IsSeconds.take (h : IsSeconds s n cs) (hr : EndsTime rest) :
    takeSeconds (cs ++ rest) = some ((s, n), rest) := by
  cases h with
  | absent =>
    exact takeSeconds_secondsText (show 0 < 60 by decide) (show 0 < nanosPerSecond by decide) hr
  | present hs hf =>
    simp [takeSeconds, hs.take (by decide), hf.take hr]

theorem TimeOfDay.of?_eq_some_iff {hour minute second nanosecond : Nat} {t : TimeOfDay} :
    TimeOfDay.of? hour minute second nanosecond = some t ↔
      t.hour = hour ∧ t.minute = minute ∧ t.second = second ∧ t.nanosecond = nanosecond := by
  obtain ⟨h, m, s, n, ht⟩ := t
  unfold TimeOfDay.of?
  split
  · simp [eq_comm]
  · rename_i hnot
    simp only [reduceCtorEq, false_iff]
    rintro ⟨rfl, rfl, rfl, rfl⟩
    exact hnot ht

theorem writtenTime?_eq_some_iff {h m : Nat} {t : TimeOfDay} (hn : n < nanosPerSecond) :
    writtenTime? h m s n = some t ↔ t.IsAt h m s n := by
  obtain ⟨hhour, hminute, hsecond, -⟩ := t.isTime
  unfold writtenTime? TimeOfDay.IsAt
  rw [if_neg (Nat.not_le.2 hn)]
  split
  · rw [TimeOfDay.of?_eq_some_iff]
    omega
  · rw [TimeOfDay.of?_eq_some_iff]
    omega

theorem isTimeText_of_takeTime {t : TimeOfDay} (h : takeTime cs = some (t, rest)) :
    ∃ ts, IsTimeText t ts ∧ cs = ts ++ rest := by
  unfold takeTime at h
  obtain ⟨⟨hour, ds⟩, hhour, h1⟩ := Option.bind_eq_some_iff.1 h
  split at h1
  · rename_i heq
    cases heq
    obtain ⟨hs, hh, rfl⟩ := (takeNumeral_eq_some_iff_field (by decide)).1 hhour
    obtain ⟨⟨minute, ds⟩, hminute, h2⟩ := Option.bind_eq_some_iff.1 h1
    obtain ⟨ms, hm, rfl⟩ := (takeNumeral_eq_some_iff_field (by decide)).1 hminute
    obtain ⟨⟨⟨second, nanosecond⟩, ds⟩, hseconds, h3⟩ := Option.bind_eq_some_iff.1 h2
    obtain ⟨ts, hts, rfl⟩ := isSeconds_of_takeSeconds hseconds
    obtain ⟨time, htime, h4⟩ := Option.bind_eq_some_iff.1 h3
    cases h4
    exact ⟨_, .fields hh hm hts ((writtenTime?_eq_some_iff hts.lt).1 htime), by simp⟩
  · cases h1

theorem IsTimeText.take {t : TimeOfDay} (h : IsTimeText t cs) (hr : EndsTime rest) :
    takeTime (cs ++ rest) = some (t, rest) := by
  cases h with
  | fields hh hm hs ht =>
    rw [takeTime, List.append_assoc, hh.take (by decide)]
    simp only [List.cons_append, List.append_assoc, Option.bind_eq_bind, Option.bind_some,
      hm.take (show 0 < 2 by decide), hs.take hr, (writtenTime?_eq_some_iff hs.lt).2 ht]
    rfl

/-! ## Reading offsets -/

theorem readHours?_eq_some_iff : readHours? cs = some n ↔ IsHours n cs := by
  constructor
  · intro h
    unfold readHours? at h
    obtain ⟨⟨hours, ds⟩, hhours, h1⟩ := Option.bind_eq_some_iff.1 h
    split at h1
    · rename_i heq
      cases heq
      obtain ⟨hs, hh, rfl⟩ := (takeNumeral_eq_some_iff_field (by decide)).1 hhours
      obtain ⟨⟨minutes, ds⟩, hminutes, h2⟩ := Option.bind_eq_some_iff.1 h1
      split at h2
      · rename_i heq
        cases heq
        obtain ⟨ms, hm, rfl⟩ := (takeNumeral_eq_some_iff_field (by decide)).1 hminutes
        split at h2
        · rename_i hle
          cases h2
          rw [List.append_nil]
          exact .fields hh hm hle
        · cases h2
      · cases h2
    · cases h1
  · rintro ⟨hh, hm, hle⟩
    have hminutes := hm.take (by decide) []
    rw [List.append_nil] at hminutes
    simp [readHours?, hh.take (by decide), hminutes, hle]

theorem readOffset?_eq_some_iff {offset : Int} :
    readOffset? cs = some offset ↔ IsOffsetText offset cs := by
  constructor
  · intro h
    unfold readOffset? at h
    split at h
    · cases h
      exact .universal
    · obtain ⟨_, hcast, rfl⟩ := Option.map_eq_some_iff.1 h
      obtain ⟨seconds, hseconds, h1⟩ := Option.bind_eq_some_iff.1 hcast
      cases h1
      exact .east (readHours?_eq_some_iff.1 hseconds)
    · obtain ⟨_, hcast, rfl⟩ := Option.map_eq_some_iff.1 h
      obtain ⟨seconds, hseconds, h1⟩ := Option.bind_eq_some_iff.1 hcast
      cases h1
      exact .west (readHours?_eq_some_iff.1 hseconds)
    · cases h
  · rintro (_ | hhours | hhours)
    · rfl
    · rw [readOffset?, readHours?_eq_some_iff.2 hhours]
      rfl
    · rw [readOffset?, readHours?_eq_some_iff.2 hhours]
      rfl

/-- An offset begins with a character of its own. -/
theorem IsOffsetText.exists_head {offset : Int} (h : IsOffsetText offset cs) :
    ∃ c ds, cs = c :: ds ∧ (c = 'Z' ∨ c = '+' ∨ c = '-') := by
  cases h with
  | universal => exact ⟨_, _, rfl, .inl rfl⟩
  | east => exact ⟨_, _, rfl, .inr (.inl rfl)⟩
  | west => exact ⟨_, _, rfl, .inr (.inr rfl)⟩

theorem IsOffsetText.endsTime {offset : Int} (h : IsOffsetText offset cs) : EndsTime cs := by
  obtain ⟨c, ds, rfl, hc⟩ := h.exists_head
  rintro _ ⟨⟩
  rcases hc with rfl | rfl | rfl <;> decide

/-! ## Reading temporals -/

/-- A day in full width is read, and the rest goes on to what follows the day. -/
theorem read?_append {day : Date} {ds : List Char} (h : IsDateText (.date day) ds)
    (rest : List Char) : read? (ds ++ rest) = readOnDay? day rest := by
  cases h with
  | day hy hm hd hdate =>
    simp [read?, hy.take (by decide), readInYear?, hm.take (by decide), readInMonth?,
      hd.take (by decide), hdate]

/-- A temporal with a time of day is read behind a day in full width. -/
theorem exists_day_of_read? {t : Temporal} (ht : t.precision = .second) (h : read? cs = some t) :
    ∃ day ds rest, IsDateText (.date day) ds ∧ cs = ds ++ rest ∧ readOnDay? day rest = some t := by
  unfold read? at h
  -- a text that ends at its year or its month has a coarser precision
  obtain ⟨⟨y, rest⟩, hyear, h1⟩ := Option.bind_eq_some_iff.1 h
  obtain ⟨ys, hy, rfl⟩ := (takeNumeral_eq_some_iff_field (by decide)).1 hyear
  simp only [readInYear?] at h1
  split at h1
  · cases h1
    cases ht
  · obtain ⟨⟨m, rest⟩, hmonth, h2⟩ := Option.bind_eq_some_iff.1 h1
    obtain ⟨ms, hm, rfl⟩ := (takeNumeral_eq_some_iff_field (by decide)).1 hmonth
    simp only [readInMonth?] at h2
    split at h2
    · split at h2
      · cases h2
        cases ht
      · cases h2
    · obtain ⟨⟨d, rest⟩, hday, h3⟩ := Option.bind_eq_some_iff.1 h2
      obtain ⟨ds, hd, rfl⟩ := (takeNumeral_eq_some_iff_field (by decide)).1 hday
      obtain ⟨date, hdate, h4⟩ := Option.bind_eq_some_iff.1 h3
      exact ⟨date, _, rest, .day hy hm hd hdate, by simp, h4⟩
    · cases h2
  · cases h1

theorem isText_of_readOnDay? {day : Date} {ds : List Char} {t : Temporal}
    (hd : IsDateText (.date day) ds) (h : readOnDay? day cs = some t) : IsText t (ds ++ cs) := by
  unfold readOnDay? at h
  split at h
  · cases h
    rw [List.append_nil]
    exact .date hd
  · obtain ⟨⟨time, rest⟩, htime, h1⟩ := Option.bind_eq_some_iff.1 h
    obtain ⟨ts, hts, rfl⟩ := isTimeText_of_takeTime htime
    simp only at h1
    by_cases hempty : rest.isEmpty = true
    · rw [if_pos hempty] at h1
      cases h1
      rw [List.isEmpty_iff.1 hempty, List.append_nil]
      exact .localTime hd hts
    · rw [if_neg hempty] at h1
      obtain ⟨offset, hoffset, h2⟩ := Option.bind_eq_some_iff.1 h1
      cases h2
      exact .offsetTime hd hts (readOffset?_eq_some_iff.1 hoffset)
  · cases h

theorem isText_of_read? {t : Temporal} (h : read? cs = some t) : IsText t cs := by
  by_cases ht : t.precision = .second
  · obtain ⟨day, ds, rest, hd, rfl, hrest⟩ := exists_day_of_read? ht h
    exact isText_of_readOnDay? hd hrest
  · exact .date (isDateText_of_read? ht h)

theorem read?_of_isText {t : Temporal} (h : IsText t cs) : read? cs = some t := by
  cases h with
  | date h => exact read?_of_isDateText h
  | localTime hd ht =>
    have htime := ht.take endsTime_nil
    rw [List.append_nil] at htime
    rw [read?_append hd]
    simp [readOnDay?, htime]
  | offsetTime hd ht ho =>
    -- an offset is not empty, so the reader does not stop at the time
    obtain ⟨c, ds, rfl, -⟩ := ho.exists_head
    rw [read?_append hd]
    simp [readOnDay?, ht.take ho.endsTime, readOffset?_eq_some_iff.2 ho]

/-- A text is read as a temporal exactly when it is the text of that temporal. -/
theorem read_eq_ok_iff_isText (text : String) (t : Temporal) :
    read text = .ok t ↔ IsText t text.toList := by
  rw [read_eq_ok_iff]
  exact ⟨isText_of_read?, read?_of_isText⟩

end OccurrenceQuery.Temporal
