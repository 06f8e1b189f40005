/-
Numbers that stand in a longer text. A text that is read as a finite number has no white space in it
and ends in a digit or in the point, so that it can be told from a word that follows it.
-/
import OccurrenceQuery.Proofs.Number.Overflow

namespace OccurrenceQuery.Number

open OccurrenceQuery.Text

/-- A text is read, as it stands, as a finite number. -/
def IsLiteral (cs : List Char) (x : Float) : Prop := readFloat? cs = some x ∧ x.isFinite = true

variable {cs : List Char} {x : Float}

theorem IsLiteral.solid (h : IsLiteral cs x) {c : Char} (hc : c ∈ cs) : isWhiteSpace c = false := by
  rw [Bool.eq_false_iff]
  intro hspace
  have hletter := isNumberLetter_of_readFloat? h.1 hc
  rw [isNumberLetter_of_isWhiteSpace hspace] at hletter
  cases hletter

/-! ## The last character -/

/-- Whether a number that is written in digits can end in `c`. -/
def endsNumber (c : Char) : Bool := c.isDigit || c == '.'

/-- The last character of a text, if there is one, can end a number. -/
def EndsNumber (cs : List Char) : Prop := ∀ c ∈ cs.getLast?, endsNumber c = true

theorem EndsNumber.append {ds : List Char} (hcs : EndsNumber cs) (hds : EndsNumber ds) :
    EndsNumber (cs ++ ds) := by
  intro c hc
  rcases List.eq_nil_or_concat ds with rfl | ⟨front, last, rfl⟩
  · exact hcs c (by simpa using hc)
  · exact hds c (by simpa [← List.append_assoc] using hc)

theorem endsNumber_of_isDigit (h : ∀ c ∈ cs, c.isDigit = true) : EndsNumber cs := by
  intro c hc
  simp [endsNumber, h c (List.mem_of_mem_getLast? hc)]

theorem endsNumber_of_readExponent? {e : Int} (h : readExponent? cs = some e) : EndsNumber cs := by
  cases cs with
  | nil => exact endsNumber_of_isDigit (List.forall_mem_nil _)
  | cons mark rest =>
    have hnumeral : isNumeral (takeSign rest).2 = true := by
      unfold readExponent? at h
      dsimp only at h
      split at h
      · rename_i hdigits
        exact (Bool.and_eq_true_iff.1 hdigits).2
      · cases h
    -- the mark and the sign stand in front of a digit at least
    obtain ⟨front, hfront⟩ : ∃ front, mark :: rest = front ++ (takeSign rest).2 := by
      rcases takeSign_cases rest with ⟨digits, rfl, hsign⟩ | ⟨digits, rfl, hsign⟩ | hsign <;>
        rw [hsign]
      · exact ⟨[mark, '-'], rfl⟩
      · exact ⟨[mark, '+'], rfl⟩
      · exact ⟨[mark], rfl⟩
    have hne : (takeSign rest).2 ≠ [] := by
      rintro hnil
      rw [hnil] at hnumeral
      cases hnumeral
    intro c hc
    rw [hfront, List.getLast?_append_of_ne_nil front hne] at hc
    exact endsNumber_of_isDigit (fun c => isDigit_of_isNumeral hnumeral) c hc

theorem endsNumber_of_readDecimal? {d : Decimal} (h : readDecimal? cs = some d) :
    cs ≠ [] ∧ EndsNumber cs := by
  refine ⟨?_, ?_⟩
  · rintro rfl
    cases h
  have hwhole : EndsNumber (cs.takeWhile Char.isDigit) :=
    endsNumber_of_isDigit fun c hc => List.mem_takeWhile_imp hc
  rw [← List.takeWhile_append_dropWhile (p := Char.isDigit) (l := cs)]
  refine hwhole.append ?_
  unfold readDecimal? at h
  generalize cs.dropWhile Char.isDigit = rest at h ⊢
  split at h
  rename_i fraction exponent hparts
  dsimp only at h
  split at h
  · cases h
  obtain ⟨e, hexponent, -⟩ := Option.map_eq_some_iff.1 h
  have hends := endsNumber_of_readExponent? hexponent
  split at hparts
  · rename_i behind
    obtain ⟨rfl, rfl⟩ := Prod.mk.inj hparts
    have hfraction : EndsNumber (behind.takeWhile Char.isDigit) :=
      endsNumber_of_isDigit fun c hc => List.mem_takeWhile_imp hc
    have hpoint : EndsNumber ['.'] := by
      rintro c ⟨⟩
      decide
    have hbehind := hpoint.append (hfraction.append hends)
    rwa [List.takeWhile_append_dropWhile] at hbehind
  · obtain ⟨rfl, rfl⟩ := Prod.mk.inj hparts
    exact hends

/-- The words for numbers that no digits denote stand for no finite number. -/
theorem not_isFinite_of_specialNumber? {word : List Char} (h : specialNumber? word = some x) :
    x.isFinite = false := by
  have hinfinity : infinity.isFinite = false := by decide +kernel
  have hundefined : (0.0 / 0.0 : Float).isFinite = false := by decide +kernel
  unfold specialNumber? at h
  split at h
  · exact Option.some.inj h ▸ hinfinity
  split at h
  · exact Option.some.inj h ▸ hundefined
  · cases h

/-- A finite number is written in digits behind its sign. -/
theorem IsLiteral.exists_decimal (h : IsLiteral cs x) : ∃ d : Decimal,
    readDecimal? (takeSign cs).2 = some d ∧ x = if (takeSign cs).1 then -d.toFloat else d.toFloat := by
  have hread : readFloat? cs = ((specialNumber? (asciiLower (takeSign cs).2)).or
      ((readDecimal? (takeSign cs).2).map Decimal.toFloat)).map
        fun y => if (takeSign cs).1 then -y else y := rfl
  have hfinite := h.2
  rw [IsLiteral, hread] at h
  obtain ⟨y, hy, rfl⟩ := Option.map_eq_some_iff.1 h.1
  have hsign : (if (takeSign cs).1 then -y else y).isFinite = y.isFinite := by
    split
    · exact isFinite_neg y
    · rfl
  rw [hsign] at hfinite
  rcases Option.or_eq_some_iff.1 hy with hspecial | ⟨-, hdecimal⟩
  · rw [not_isFinite_of_specialNumber? hspecial] at hfinite
    cases hfinite
  · obtain ⟨d, hd, rfl⟩ := Option.map_eq_some_iff.1 hdecimal
    exact ⟨d, hd, rfl⟩

/-- A finite number ends in a digit or in the point. -/
theorem IsLiteral.ends (h : IsLiteral cs x) : cs ≠ [] ∧ EndsNumber cs := by
  obtain ⟨d, hd, -⟩ := h.exists_decimal
  obtain ⟨hne, hends⟩ := endsNumber_of_readDecimal? hd
  obtain ⟨front, hfront⟩ : ∃ front, cs = front ++ (takeSign cs).2 := by
    rcases takeSign_cases cs with ⟨rest, rfl, hsign⟩ | ⟨rest, rfl, hsign⟩ | hsign
    · exact ⟨['-'], by rw [hsign]; rfl⟩
    · exact ⟨['+'], by rw [hsign]; rfl⟩
    · exact ⟨[], by rw [hsign]; rfl⟩
  refine ⟨fun hnil => hne ?_, fun c hc => ?_⟩
  · rw [hnil]
    rfl
  · rw [hfront, List.getLast?_append_of_ne_nil front hne] at hc
    exact hends c hc

/-! ## White space around a number -/

theorem IsLiteral.trim_append (h : IsLiteral cs x) {left right : List Char} (hleft : Spaces left)
    (hright : Spaces right) : trim (left ++ cs ++ right) = cs :=
  Text.trim_append hleft hright h.ends.1 (fun _ hc => h.solid (List.mem_of_mem_head? hc))
    fun _ hc => h.solid (List.mem_of_mem_getLast? hc)

theorem readFinite?_trim (cs : List Char) : readFinite? (trim cs) = readFinite? cs := by
  unfold readFinite?
  rw [trim_trim]

theorem readFinite?_eq_some_iff : readFinite? cs = some x ↔ IsLiteral (trim cs) x :=
  Option.filter_eq_some_iff

theorem IsLiteral.readFinite? (h : IsLiteral cs x) {left right : List Char} (hleft : Spaces left)
    (hright : Spaces right) : readFinite? (left ++ cs ++ right) = some x := by
  rw [readFinite?_eq_some_iff, h.trim_append hleft hright]
  exact h

end OccurrenceQuery.Number
