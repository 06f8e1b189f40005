/-
The written form of temporals. What is read has a year of four digits, a clock offset, and leap seconds
only after second 59; and what is written is read as the same value with its leap second folded into the
second before it. So a value outside leap seconds survives being written and read.
-/
import OccurrenceQuery.Proofs.Temporal.Order
import OccurrenceQuery.Proofs.Text

namespace OccurrenceQuery.Temporal

open OccurrenceQuery.Calendar OccurrenceQuery.Text

/-! ## Values that are written -/

/-- Whether an offset is one of whole minutes, of at most 18:59. -/
def IsClockOffset (offset : Int) : Prop := offset % 60 = 0 ∧ offset.natAbs ≤ 68340

/-- Whether a year has four digits. -/
def IsFourDigits (year : Int) : Prop := 0 ≤ year ∧ year ≤ 9999

/-- Whether a time can be read: its year has four digits, and a leap second follows second 59. -/
def DateTime.IsWritten (t : DateTime) : Prop :=
  IsFourDigits t.date.year ∧ (t.IsLeap → t.time.second = 59)

/-- Whether a temporal can be read from some text. -/
def IsWritten : Temporal → Prop
  | year y => IsFourDigits y
  | yearMonth y month => IsFourDigits y ∧ 1 ≤ month ∧ month ≤ 12
  | date d => IsFourDigits d.year
  | localTime t => t.IsWritten
  | offsetTime t offset => t.IsWritten ∧ IsClockOffset offset

/-- Whether a temporal lies in a leap second. -/
def IsLeap : Temporal → Prop
  | localTime t => t.IsLeap
  | offsetTime t _ => t.IsLeap
  | _ => False

/-! ## Folding leap seconds -/

/-- The time with its leap second folded into the second before. -/
def TimeOfDay.folded (t : TimeOfDay) : TimeOfDay where
  hour := t.hour
  minute := t.minute
  second := t.second
  nanosecond := t.nanosecond % nanosPerSecond
  isTime := by
    have h := t.isTime
    have hm := Nat.mod_lt t.nanosecond (show 0 < nanosPerSecond by decide)
    unfold IsTime at h ⊢
    omega

/-- The time with its leap second folded into the second before. -/
def DateTime.folded (t : DateTime) : DateTime := ⟨t.date, t.time.folded⟩

/-- The temporal with its leap second folded into the second before. -/
def folded : Temporal → Temporal
  | localTime t => localTime t.folded
  | offsetTime t offset => offsetTime t.folded offset
  | t => t

theorem DateTime.folded_of_not_isLeap {t : DateTime} (h : ¬ t.IsLeap) : t.folded = t := by
  obtain ⟨d, hour, minute, second, nanosecond, ht⟩ := t
  have hn : nanosecond % nanosPerSecond = nanosecond := Nat.mod_eq_of_lt (Nat.lt_of_not_le h)
  simp [DateTime.folded, TimeOfDay.folded, hn]

theorem folded_of_not_isLeap {t : Temporal} (h : ¬ t.IsLeap) : t.folded = t := by
  cases t with
  | localTime t => rw [folded, DateTime.folded_of_not_isLeap h]
  | offsetTime t o => rw [folded, DateTime.folded_of_not_isLeap h]
  | _ => rfl

theorem DateTime.not_isLeap_folded (t : DateTime) : ¬ t.folded.IsLeap :=
  Nat.not_le.2 (Nat.mod_lt _ (by decide))

/-- A leap second is written like the second before it. -/
theorem letters_folded (t : Temporal) : t.folded.letters = t.letters := by
  cases t with
  | localTime t => simp [folded, letters, DateTime.letters, DateTime.folded, TimeOfDay.folded]
  | offsetTime t o => simp [folded, letters, DateTime.letters, DateTime.folded, TimeOfDay.folded]
  | _ => rfl

theorem text_folded (t : Temporal) : t.folded.text = t.text := by
  rw [text, text, letters_folded]

/-! ## Reading the parts that are written -/

/-- Whether a text begins with none of the characters that continue a time of day. -/
def EndsTime (cs : List Char) : Prop := ∀ c ∈ cs.head?, c.isDigit = false ∧ c ≠ '.' ∧ c ≠ ':'

theorem endsTime_nil : EndsTime [] := by rintro c ⟨⟩

theorem endsTime_offsetText (offset : Int) : EndsTime (offsetText offset) := by
  unfold offsetText
  intro c hc
  split at hc
  · cases hc; decide
  · split at hc <;> cases hc <;> decide

theorem takeFraction_digits {digits rest : List Char} (hl : 1 ≤ digits.length ∧ digits.length ≤ 9)
    (hd : ∀ c ∈ digits, c.isDigit = true) (hr : EndsTime rest) :
    takeFraction ('.' :: (digits ++ rest)) =
      some (numeralValue digits * 10 ^ (9 - digits.length), rest) := by
  have hrest : rest.takeWhile Char.isDigit = [] ∧ rest.dropWhile Char.isDigit = rest := by
    cases rest with
    | nil => exact ⟨rfl, rfl⟩
    | cons c cs =>
      have := (hr c rfl).1
      simp [this]
  have htake : (digits ++ rest).takeWhile Char.isDigit = digits := by
    rw [List.takeWhile_append_of_pos hd, hrest.1, List.append_nil]
  have hdrop : (digits ++ rest).dropWhile Char.isDigit = rest := by
    rw [List.dropWhile_append_of_pos hd, hrest.2]
  simp only [takeFraction, htake, hdrop, if_pos hl]
  rfl

theorem takeFraction_fractionText {nanosecond : Nat} (h : nanosecond < nanosPerSecond)
    {rest : List Char} (hr : EndsTime rest) :
    takeFraction (fractionText nanosecond ++ rest) = some (nanosecond, rest) := by
  have padded_read : ∀ width n : Nat, 1 ≤ width ∧ width ≤ 9 → n < 10 ^ width →
      takeFraction ('.' :: padded width n ++ rest) = some (n * 10 ^ (9 - width), rest) := by
    intro width n hw hn
    have hl := length_padded hw.1 hn
    have := takeFraction_digits (by rw [hl]; exact hw) (fun c hc => isDigit_of_mem_padded hc) hr
    rwa [numeralValue_padded, hl] at this
  simp only [nanosPerSecond] at h
  unfold fractionText
  -- no fraction, and then three, six and nine digits
  split
  · subst nanosecond
    cases rest with
    | nil => rfl
    | cons c cs =>
      have hc := (hr c rfl).2.1
      simp [takeFraction, hc]
  · split
    · rw [padded_read 3 _ (by decide) (by omega)]
      congr 2
      omega
    · split
      · rw [padded_read 6 _ (by decide) (by omega)]
        congr 2
        omega
      · rw [padded_read 9 _ (by decide) (by omega), Nat.sub_self, Nat.pow_zero, Nat.mul_one]

theorem takeSeconds_secondsText {second nanosecond : Nat} (hs : second < 60)
    (hn : nanosecond < nanosPerSecond) {rest : List Char} (hr : EndsTime rest) :
    takeSeconds (secondsText second nanosecond ++ rest) = some ((second, nanosecond), rest) := by
  unfold secondsText
  split
  · rename_i h
    obtain ⟨rfl, rfl⟩ := h
    cases rest with
    | nil => rfl
    | cons c cs =>
      have hc := (hr c rfl).2.2
      simp [takeSeconds, hc]
  · simp only [List.cons_append, List.append_assoc, takeSeconds]
    rw [takeNumeral_padded (by decide) (by omega)]
    simp only [Option.bind_eq_bind, Option.bind_some, takeFraction_fractionText hn hr]
    rfl

theorem writtenTime?_folded (t : TimeOfDay) :
    writtenTime? t.hour t.minute t.second (t.nanosecond % nanosPerSecond) = some t.folded := by
  have h : IsTime t.hour t.minute t.second (t.nanosecond % nanosPerSecond) := t.folded.isTime
  have hs : t.second ≠ 60 := by have := t.isTime.2.2.1; omega
  have hn := Nat.mod_lt t.nanosecond (show 0 < nanosPerSecond by decide)
  rw [writtenTime?, if_neg (Nat.not_le.2 hn), if_neg hs, TimeOfDay.of?, dif_pos h]
  rfl

theorem takeTime_written (t : TimeOfDay) {rest : List Char} (hr : EndsTime rest) :
    takeTime (padded 2 t.hour ++ ':' :: (padded 2 t.minute ++
      (secondsText t.second (t.nanosecond % nanosPerSecond) ++ rest))) = some (t.folded, rest) := by
  obtain ⟨hh, hm, hs, -⟩ := t.isTime
  have hn := Nat.mod_lt t.nanosecond (show 0 < nanosPerSecond by decide)
  unfold takeTime
  rw [takeNumeral_padded (by decide) (by omega)]
  simp only [Option.bind_eq_bind, Option.bind_some]
  rw [takeNumeral_padded (by decide) (by omega)]
  simp only [Option.bind_some, takeSeconds_secondsText (Nat.lt_succ_of_le hs) hn hr, writtenTime?_folded]
  rfl

/-! ## Offsets -/

theorem readHours?_padded {hours minutes : Nat} (hh : hours ≤ 18) (hm : minutes ≤ 59) :
    readHours? (padded 2 hours ++ ':' :: padded 2 minutes) = some (hours * 3600 + minutes * 60) := by
  have hend := @takeNumeral_padded 2 minutes (by decide) (by omega) []
  rw [List.append_nil] at hend
  unfold readHours?
  rw [takeNumeral_padded (by decide) (by omega)]
  simp [hend, hh, hm]

theorem readOffset?_offsetText {offset : Int} (h : IsClockOffset offset) :
    readOffset? (offsetText offset) = some offset := by
  obtain ⟨hmod, hle⟩ := h
  have hval : offset.natAbs / 3600 * 3600 + offset.natAbs % 3600 / 60 * 60 = offset.natAbs := by omega
  have hread := @readHours?_padded (offset.natAbs / 3600) (offset.natAbs % 3600 / 60)
    (by omega) (by omega)
  rw [hval] at hread
  by_cases hz : offset = 0
  · subst hz; rfl
  · by_cases hneg : offset < 0
    · have hback : -(offset.natAbs : Int) = offset := by omega
      rw [offsetText, if_neg hz, if_pos hneg, List.cons_append, readOffset?, hread]
      exact congrArg some hback
    · have hback : (offset.natAbs : Int) = offset := by omega
      rw [offsetText, if_neg hz, if_neg hneg, List.cons_append, readOffset?, hread]
      exact congrArg some hback

/-! ## Reading what is written -/

theorem readOnDay?_written (day : Date) (t : TimeOfDay) {rest : List Char} (hr : EndsTime rest) :
    readOnDay? day ('T' :: (padded 2 t.hour ++ ':' :: (padded 2 t.minute ++
      (secondsText t.second (t.nanosecond % nanosPerSecond) ++ rest)))) =
    if rest.isEmpty then some (localTime ⟨day, t.folded⟩)
    else (readOffset? rest).map (offsetTime ⟨day, t.folded⟩) := by
  simp only [readOnDay?, takeTime_written t hr, Option.bind_eq_bind, Option.bind_some]
  split
  · rfl
  · cases readOffset? rest <;> rfl

/-- The letters of a date are read as the date, and the rest goes on to what follows the day. -/
theorem read?_date (d : Date) (h : IsFourDigits d.year) (rest : List Char) :
    read? (d.letters ++ rest) = readOnDay? d rest := by
  obtain ⟨year, month, day, hd⟩ := d
  obtain ⟨hlo, hhi⟩ : 0 ≤ year ∧ year ≤ 9999 := h
  have hmonth : month ≤ 12 := hd.2.1
  have hday : day ≤ 31 := by
    refine Nat.le_trans hd.2.2.2 ?_
    unfold daysInMonth
    split <;> split <;> omega
  have hyear : ((year.toNat : Nat) : Int) = year := Int.toNat_of_nonneg hlo
  simp only [Date.letters, monthText, yearText, if_pos (And.intro hlo hhi), List.append_assoc,
    List.cons_append]
  rw [read?, takeNumeral_padded (by decide) (by omega)]
  simp only [Option.bind_eq_bind, Option.bind_some, readInYear?]
  rw [takeNumeral_padded (by decide) (by omega)]
  simp only [Option.bind_some, readInMonth?]
  rw [takeNumeral_padded (by decide) (by omega)]
  simp only [Option.bind_eq_bind, Option.bind_some, Date.of?, hyear, dif_pos hd]

theorem DateTime.letters_append (t : DateTime) (rest : List Char) :
    t.letters ++ rest = t.date.letters ++ ('T' :: (padded 2 t.time.hour ++ ':' :: (padded 2 t.time.minute ++
      (secondsText t.time.second (t.time.nanosecond % nanosPerSecond) ++ rest)))) := by
  simp only [DateTime.letters, List.append_assoc, List.cons_append]

theorem takeNumeral_plainYear {year : Int} (h : IsFourDigits year) (rest : List Char) :
    takeNumeral 4 (plainYear year ++ rest) = some (year.toNat, rest) := by
  obtain ⟨hlo, hhi⟩ := h
  have hnat : year.natAbs = year.toNat := by omega
  rw [plainYear, if_neg (Int.not_lt.2 hlo), hnat]
  exact takeNumeral_padded (by decide) (by omega) rest

/-- What is written is read as the same value, with its leap second folded into the second before. -/
theorem read?_letters {t : Temporal} (h : t.IsWritten) : read? t.letters = some t.folded := by
  cases t with
  | year y =>
    have hy : ((y.toNat : Nat) : Int) = y := Int.toNat_of_nonneg h.1
    have hread := takeNumeral_plainYear h []
    rw [List.append_nil] at hread
    simp only [read?, letters, hread, Option.bind_eq_bind, Option.bind_some, readInYear?, hy, folded]
  | yearMonth y month =>
    obtain ⟨hyear, hlo, hhi⟩ := h
    have hy : ((y.toNat : Nat) : Int) = y := Int.toNat_of_nonneg hyear.1
    have hread := @takeNumeral_padded 2 month (by decide) (by omega) []
    rw [List.append_nil] at hread
    simp only [read?, letters, takeNumeral_plainYear hyear, Option.bind_eq_bind, Option.bind_some,
      readInYear?, hread, readInMonth?, hy, folded]
    rw [if_pos ⟨hlo, hhi⟩]
  | date d =>
    have hread := read?_date d h []
    rw [List.append_nil] at hread
    rw [letters, hread]
    rfl
  | localTime t =>
    have hread := read?_date t.date h.1 ('T' :: (padded 2 t.time.hour ++ ':' :: (padded 2 t.time.minute ++
      (secondsText t.time.second (t.time.nanosecond % nanosPerSecond) ++ []))))
    rw [← t.letters_append, List.append_nil, readOnDay?_written t.date t.time endsTime_nil] at hread
    rw [letters, hread]
    rfl
  | offsetTime t offset =>
    have hread := read?_date t.date h.1.1 ('T' :: (padded 2 t.time.hour ++ ':' :: (padded 2 t.time.minute ++
      (secondsText t.time.second (t.time.nanosecond % nanosPerSecond) ++ offsetText offset))))
    have hne : (offsetText offset).isEmpty = false := by
      unfold offsetText; split <;> rfl
    rw [← t.letters_append, readOnDay?_written t.date t.time (endsTime_offsetText offset), hne,
      readOffset?_offsetText h.2] at hread
    rw [letters, hread]
    rfl

/-! ## What is read -/

/-- The field of second 60 with the colon before it. -/
def leapField : List Char := [':', '6', '0']

theorem takeSeconds_leap {cs rest : List Char} {second nanosecond : Nat}
    (h : takeSeconds cs = some ((second, nanosecond), rest)) :
    second = 60 ↔ cs.take 3 = leapField := by
  have absent : ∀ cs : List Char, (∀ ds, cs ≠ ':' :: ds) → cs.take 3 ≠ leapField := by
    rintro (_ | ⟨c, ds⟩) hc hl
    · cases hl
    · simp only [List.take_succ_cons, leapField, List.cons.injEq] at hl
      exact hc ds (by rw [hl.1])
  unfold takeSeconds at h
  split at h
  · rename_i ds
    obtain ⟨⟨n, ds'⟩, hn, h⟩ := Option.bind_eq_some_iff.1 h
    obtain ⟨⟨f, ds''⟩, hf, h⟩ := Option.bind_eq_some_iff.1 h
    cases h
    obtain ⟨hlt, rfl⟩ := (takeNumeral_eq_some_iff (by decide)).1 hn
    have hl := length_padded (show 0 < 2 by decide) hlt
    have htake : (':' :: (padded 2 second ++ ds')).take 3 = ':' :: padded 2 second := by
      simp [List.take_left' hl]
    rw [htake]
    -- the numeral of two digits is determined by its value
    constructor
    · rintro rfl; decide
    · intro he
      have hp : padded 2 second = ['6', '0'] := by simpa [leapField] using he
      have hv := numeralValue_padded 2 second
      rw [hp] at hv
      exact hv.symm
  · rename_i hno
    cases h
    simp only [Nat.reduceEqDiff, false_iff]
    exact absent cs fun ds he => hno ds he

theorem writtenTime?_spec {hour minute second nanosecond : Nat} {t : TimeOfDay}
    (h : writtenTime? hour minute second nanosecond = some t) :
    (nanosPerSecond ≤ t.nanosecond ↔ second = 60) ∧ (nanosPerSecond ≤ t.nanosecond → t.second = 59) := by
  unfold writtenTime? TimeOfDay.of? at h
  split at h
  · cases h
  · rename_i hn
    split at h
    · rename_i hs
      split at h
      · cases h
        exact ⟨by simp [hs], fun _ => rfl⟩
      · cases h
    · rename_i hs
      split at h
      · cases h
        exact ⟨by simp [hs]; omega, fun hle => absurd hle hn⟩
      · cases h

theorem takeTime_spec {cs rest : List Char} {t : TimeOfDay} (h : takeTime cs = some (t, rest)) :
    (nanosPerSecond ≤ t.nanosecond ↔ (cs.drop 5).take 3 = leapField) ∧
      (nanosPerSecond ≤ t.nanosecond → t.second = 59) := by
  unfold takeTime at h
  obtain ⟨⟨hour, ds⟩, hh, h1⟩ := Option.bind_eq_some_iff.1 h
  obtain ⟨hlt, hcs⟩ := (takeNumeral_eq_some_iff (by decide)).1 hh
  split at h1
  · rename_i hour' ds' heq
    cases heq
    obtain ⟨⟨minute, ds⟩, hm, h2⟩ := Option.bind_eq_some_iff.1 h1
    obtain ⟨hlt', hds⟩ := (takeNumeral_eq_some_iff (by decide)).1 hm
    obtain ⟨⟨⟨second, nanosecond⟩, ds''⟩, hs, h3⟩ := Option.bind_eq_some_iff.1 h2
    obtain ⟨time, hw, h4⟩ := Option.bind_eq_some_iff.1 h3
    cases h4
    have hspec := writtenTime?_spec hw
    have hdrop : cs.drop 5 = ds := by
      have l1 := length_padded (show 0 < 2 by decide) hlt
      have l2 := length_padded (show 0 < 2 by decide) hlt'
      have hcut : cs = (padded 2 hour ++ ':' :: padded 2 minute) ++ ds := by simp [hcs, hds]
      rw [hcut]
      exact List.drop_left' (by simp [l1, l2])
    rw [hdrop]
    exact ⟨hspec.1.trans (takeSeconds_leap hs), hspec.2⟩
  · cases h1

theorem readHours?_spec {cs : List Char} {seconds : Nat} (h : readHours? cs = some seconds) :
    seconds % 60 = 0 ∧ seconds ≤ 68340 := by
  unfold readHours? at h
  obtain ⟨⟨hours, ds⟩, -, h1⟩ := Option.bind_eq_some_iff.1 h
  split at h1
  · obtain ⟨⟨minutes, ds'⟩, -, h2⟩ := Option.bind_eq_some_iff.1 h1
    split at h2
    · split at h2
      · cases h2; omega
      · cases h2
    · cases h2
  · cases h1

theorem isClockOffset_of_read {cs : List Char} {offset : Int} (h : readOffset? cs = some offset) :
    IsClockOffset offset := by
  have near : ∀ {ds : List Char} {seconds : Nat}, readHours? ds = some seconds →
      IsClockOffset (seconds : Int) ∧ IsClockOffset (-(seconds : Int)) := by
    intro ds seconds hs
    have := readHours?_spec hs
    unfold IsClockOffset
    omega
  unfold readOffset? at h
  split at h
  · cases h; exact ⟨rfl, by decide⟩
  · rename_i ds
    cases hs : readHours? ds with
    | none => rw [hs] at h; cases h
    | some seconds => rw [hs] at h; cases h; exact (near hs).1
  · rename_i ds
    cases hs : readHours? ds with
    | none => rw [hs] at h; cases h
    | some seconds => rw [hs] at h; cases h; exact (near hs).2
  · cases h

/-- What a reader gets from the letters after the day: a written value, in a leap second exactly when
the seconds field, six letters on, is 60. -/
theorem readOnDay?_spec {day : Date} (hday : IsFourDigits day.year) {cs : List Char} {t : Temporal}
    (h : readOnDay? day cs = some t) :
    t.IsWritten ∧ (t.IsLeap ↔ (cs.drop 6).take 3 = leapField) := by
  unfold readOnDay? at h
  split at h
  · cases h
    exact ⟨hday, by simp [IsLeap, leapField]⟩
  · rename_i ds
    obtain ⟨⟨time, rest⟩, ht, h1⟩ := Option.bind_eq_some_iff.1 h
    obtain ⟨hleap, hsecond⟩ := takeTime_spec ht
    simp only at h1
    by_cases hrest : rest.isEmpty = true
    · rw [if_pos hrest] at h1
      cases h1
      exact ⟨⟨hday, hsecond⟩, hleap⟩
    · rw [if_neg hrest] at h1
      obtain ⟨offset, ho, h2⟩ := Option.bind_eq_some_iff.1 h1
      cases h2
      exact ⟨⟨⟨hday, hsecond⟩, isClockOffset_of_read ho⟩, hleap⟩
  · cases h

/-- What is read is a written value, in a leap second exactly when the seconds field is 60. -/
theorem read?_spec {cs : List Char} {t : Temporal} (h : read? cs = some t) :
    t.IsWritten ∧ (t.IsLeap ↔ (cs.drop 16).take 3 = leapField) := by
  have short : ∀ t : Temporal, ¬ t.IsLeap → cs.length ≤ 16 →
      (t.IsLeap ↔ (cs.drop 16).take 3 = leapField) := by
    intro t ht hl
    rw [List.drop_eq_nil_of_le hl]
    simp [ht, leapField]
  -- the fields before the time have ten letters, and the hour and minute with their marks six more
  unfold read? at h
  obtain ⟨⟨y, ds⟩, hy, h1⟩ := Option.bind_eq_some_iff.1 h
  obtain ⟨hlt, hcs⟩ := (takeNumeral_eq_some_iff (by decide)).1 hy
  have hyear : IsFourDigits (y : Int) := ⟨by omega, by omega⟩
  have l1 := length_padded (show 0 < 4 by decide) hlt
  simp only [readInYear?] at h1
  split at h1
  · cases h1
    exact ⟨hyear, short _ (by simp [IsLeap]) (by simp [hcs, l1])⟩
  · rename_i ds'
    obtain ⟨⟨month, ds⟩, hm, h2⟩ := Option.bind_eq_some_iff.1 h1
    obtain ⟨hlt', hds⟩ := (takeNumeral_eq_some_iff (by decide)).1 hm
    have l2 := length_padded (show 0 < 2 by decide) hlt'
    simp only [readInMonth?] at h2
    split at h2
    · split at h2
      · rename_i hmonth
        cases h2
        exact ⟨⟨hyear, hmonth⟩, short _ (by simp [IsLeap]) (by simp [hcs, hds, l1, l2])⟩
      · cases h2
    · rename_i ds''
      obtain ⟨⟨day, ds⟩, hd, h3⟩ := Option.bind_eq_some_iff.1 h2
      obtain ⟨hlt'', hds'⟩ := (takeNumeral_eq_some_iff (by decide)).1 hd
      have l3 := length_padded (show 0 < 2 by decide) hlt''
      obtain ⟨date, hdate, h4⟩ := Option.bind_eq_some_iff.1 h3
      have hof : date.year = (y : Int) := by
        unfold Date.of? at hdate
        split at hdate
        · cases hdate; rfl
        · cases hdate
      have hdrop : cs.drop 16 = ds.drop 6 := by
        have hcut : cs = (padded 4 y ++ '-' :: (padded 2 month ++ '-' :: padded 2 day)) ++ ds := by
          simp [hcs, hds, hds']
        rw [hcut, show 16 = 10 + 6 from rfl, ← List.drop_drop]
        rw [List.drop_left' (by simp [l1, l2, l3])]
      rw [hdrop]
      exact readOnDay?_spec (by rw [hof]; exact hyear) h4
    · cases h2
  · cases h1

end OccurrenceQuery.Temporal
