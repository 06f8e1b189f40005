/-
Look-alikes in accepted values. The patterns of values know the digits of every script and letters in
any case, so a text that fits one can hold characters that only look like those of ASCII. Types with a
grammar of their own read the value after that, and the reading refuses them; the words of a truth
value are taken as they stand, and there the long s passes for an s.
-/
import OccurrenceQuery.Proofs.Distance
import OccurrenceQuery.Proofs.Geometry.Coordinates
import OccurrenceQuery.Proofs.Range.Report
import OccurrenceQuery.Proofs.Temporal.Dates

namespace OccurrenceQuery

open OccurrenceQuery.Text OccurrenceQuery.Number

/-! ## Characters of ASCII -/

/-- Whether every character of a text that is not white space belongs to ASCII. -/
def IsAscii (cs : List Char) : Prop := ∀ c ∈ cs, isWhiteSpace c = false → c.toNat < 128

variable {cs : List Char}

theorem isAscii_append_iff {ds : List Char} : IsAscii (cs ++ ds) ↔ IsAscii cs ∧ IsAscii ds :=
  List.forall_mem_append

theorem isAscii_cons_iff {c : Char} :
    IsAscii (c :: cs) ↔ (isWhiteSpace c = false → c.toNat < 128) ∧ IsAscii cs :=
  List.forall_mem_cons

theorem isAscii_of_spaces (h : Spaces cs) : IsAscii cs := by
  intro c hc hsolid
  rw [h c hc] at hsolid
  cases hsolid

theorem isAscii_of_trim (h : IsAscii (trim cs)) : IsAscii cs :=
  fun c hc hsolid => h c (mem_trim_of_mem hsolid hc) hsolid

theorem isAscii_wildcard : IsAscii Range.wildcard := by
  intro c hc _
  obtain rfl := List.mem_singleton.1 hc
  decide

theorem toNat_lt_of_isAlpha {c : Char} (h : c.isAlpha = true) : c.toNat < 128 := by
  have hbounds := toNat_of_isAlpha h
  omega

theorem toNat_lt_of_isDigit {c : Char} (h : c.isDigit = true) : c.toNat < 128 := by
  have hvalue := toNat_of_isDigit h
  omega

/-! ## Numbers -/

theorem toNat_lt_of_isNumberLetter {c : Char} (h : isNumberLetter c = true) : c.toNat < 128 := by
  simp only [isNumberLetter, Char.isAlphanum, Bool.or_eq_true, beq_iff_eq] at h
  rcases h with (((halpha | hdigit) | rfl) | rfl) | rfl
  · exact toNat_lt_of_isAlpha halpha
  · exact toNat_lt_of_isDigit hdigit
  all_goals decide

theorem isAscii_of_readFloat? {x : Float} (h : readFloat? cs = some x) : IsAscii cs :=
  fun _ hc _ => toNat_lt_of_isNumberLetter (isNumberLetter_of_readFloat? h hc)

theorem isAscii_of_readFinite? {x : Float} (h : readFinite? cs = some x) : IsAscii cs :=
  isAscii_of_trim (isAscii_of_readFloat? (Option.eq_some_of_filter_eq_some h))

theorem isAscii_of_readInt32? {n : Int} (h : readInt32? cs = some n) : IsAscii cs := by
  intro c hc _
  apply toNat_lt_of_isNumberLetter
  by_contra hnot
  have hread := Option.eq_some_of_filter_eq_some h
  rw [readInteger?_eq_none_of_mem (Bool.eq_false_iff.2 hnot) hc] at hread
  cases hread

/-! ## Ranges of numbers -/

namespace Range

variable {α : Type} {element? : List Char → Option α} {text : String}

theorem isAscii_of_readBound? (helement : ∀ cs a, element? cs = some a → IsAscii cs)
    {side : List Char} {bound : Option α} (h : readBound? element? side = some bound) :
    IsAscii side := by
  unfold readBound? at h
  split at h
  · rename_i hwildcard
    exact hwildcard ▸ isAscii_wildcard
  · obtain ⟨a, ha, -⟩ := Option.map_eq_some_iff.1 h
    exact helement side a ha

theorem HasSides.isAscii {lower upper : List Char} (h : HasSides cs lower upper)
    (hlower : IsAscii lower) (hupper : IsAscii upper) : IsAscii cs := by
  obtain ⟨-, -, left, right, rfl, hleft, hright⟩ := h
  rw [isAscii_append_iff, isAscii_append_iff, isAscii_cons_iff, isAscii_append_iff]
  exact ⟨⟨hlower, isAscii_of_spaces hleft⟩, fun _ => by decide, isAscii_of_spaces hright, hupper⟩

theorem isAscii_of_readRange [LT α] [DecidableLT α]
    (helement : ∀ cs a, element? cs = some a → IsAscii cs) {what : String} {r : Range α}
    (h : readRange what element? text = .ok r) : IsAscii text.toList := by
  obtain ⟨lower, upper, hsides, hlower, hupper, -⟩ := readRange_eq_ok_iff.1 h
  exact hsides.isAscii (isAscii_of_readBound? helement hlower)
    (isAscii_of_readBound? helement hupper)

theorem isAscii_of_readDecimals {r : Range Float} (h : readDecimals text = .ok r) :
    IsAscii text.toList :=
  isAscii_of_readRange (fun _ _ => isAscii_of_readFloat?) h

theorem isAscii_of_checkDecimals (h : checkDecimals text = .ok ()) : IsAscii text.toList := by
  unfold checkDecimals at h
  split at h
  · cases h
  split at h
  · rename_i hfinite
    obtain ⟨x, hx⟩ := Option.isSome_iff_exists.1 hfinite
    exact isAscii_of_readFinite? hx
  · obtain ⟨r, hr⟩ := discard_eq_ok_iff.1 h
    exact isAscii_of_readDecimals hr

theorem isAscii_of_liesWithin {bounds : Range Float} {lies : Bool}
    (h : liesWithin bounds text = .ok lies) : IsAscii text.toList := by
  unfold liesWithin at h
  split at h
  · rename_i x hx
    exact isAscii_of_readFinite? hx
  split at h
  · cases hread : readDecimals text with
    | error r =>
      rw [hread] at h
      cases h
    | ok r => exact isAscii_of_readDecimals hread
  · cases h

theorem isAscii_of_checkWithin {bounds : Range Float} {what : String}
    (h : checkWithin bounds what text = .ok ()) : IsAscii text.toList := by
  unfold checkWithin at h
  split at h
  · cases h
  · obtain ⟨lies, hlies, -⟩ := bind_eq_ok_iff.1 h
    exact isAscii_of_liesWithin hlies

theorem isAscii_of_integers {values : List Int} (h : integers text = .ok values) :
    IsAscii text.toList := by
  unfold integers at h
  split at h
  · cases h
  split at h
  · rename_i n hn
    exact isAscii_of_readInt32? hn
  · obtain ⟨r, hr, -⟩ := bind_eq_ok_iff.1 h
    exact isAscii_of_readRange (fun _ _ => isAscii_of_readInt32?) hr

end Range

/-! ## Parts between separators -/

theorem isAscii_of_splitAll {sep : Char} (hsep : sep.toNat < 128)
    (h : ∀ part ∈ splitAll sep cs, IsAscii part) : IsAscii cs := by
  intro c hc hsolid
  rcases eq_or_mem_splitAll sep hc with rfl | ⟨part, hpart, hmem⟩
  · exact hsep
  · exact h part hpart c hmem hsolid

theorem isAscii_of_splitFirst {sep : Char} (hsep : sep.toNat < 128) {before after : List Char}
    (h : splitFirst sep cs = some (before, after)) (hbefore : IsAscii before)
    (hafter : IsAscii after) : IsAscii cs := by
  obtain ⟨rfl, -⟩ := splitFirst_eq_some_iff.1 h
  rw [isAscii_append_iff, isAscii_cons_iff]
  exact ⟨hbefore, fun _ => hsep, hafter⟩

/-! ## Identifiers -/

theorem toNat_lt_of_isHexDigit {c : Char} (h : isHexDigit c = true) : c.toNat < 128 := by
  simp only [isHexDigit, Bool.or_eq_true, Bool.and_eq_true, decide_eq_true_eq] at h
  rcases h with (hdigit | ⟨-, hlast⟩) | ⟨-, hlast⟩
  · exact toNat_lt_of_isDigit hdigit
  · have hle : c.toNat ≤ 'f'.toNat := hlast
    exact lt_of_le_of_lt hle (by decide)
  · have hle : c.toNat ≤ 'F'.toNat := hlast
    exact lt_of_le_of_lt hle (by decide)

theorem isAscii_of_isUuid (h : isUuid cs = true) : IsAscii cs := by
  simp only [isUuid, Bool.and_eq_true, List.all_eq_true] at h
  exact isAscii_of_splitAll (by decide) fun part hpart c hc _ =>
    toNat_lt_of_isHexDigit (h.2 part hpart c hc)

/-! ## Dates -/

namespace Calendar

theorem Names.isAscii {side : List Char} {a : Option Period} (h : Names side a) : IsAscii side := by
  intro c hc _
  cases a with
  | none =>
    obtain rfl : side = Range.wildcard := h
    obtain rfl := List.mem_singleton.1 hc
    decide
  | some p =>
    rcases Calendar.Period.isDigit_or_eq_of_mem h hc with hdigit | rfl
    · exact toNat_lt_of_isDigit hdigit
    · decide

end Calendar

theorem isAscii_of_checkDates {text : String} (h : checkDates text = .ok ()) :
    IsAscii text.toList := by
  unfold checkDates at h
  split at h
  · obtain ⟨r, hr⟩ := discard_eq_ok_iff.1 h
    obtain ⟨before, after, a, b, ⟨hcut, -, -⟩, ha, hb, -⟩ := Calendar.readSpan_eq_ok_iff.1 hr
    rw [hcut, isAscii_append_iff, isAscii_cons_iff]
    exact ⟨isAscii_of_trim ha.isAscii, fun _ => by decide, isAscii_of_trim hb.isAscii⟩
  · obtain ⟨a, ha⟩ := discard_eq_ok_iff.1 h
    rw [← String.ofList_toList (s := text), Calendar.readPeriod_eq_ok_iff_names] at ha
    exact ha.isAscii

/-! ## Distances -/

namespace Distance

theorem isAscii_of_mem_unitNames {name : String} {u : LengthUnit} (h : (name, u) ∈ unitNames) :
    IsAscii name.toList := by
  have hall : unitNames.all (fun entry => entry.1.toList.all fun c => decide (c.toNat < 128)) = true := by
    decide
  rw [List.all_eq_true] at hall
  have hname := List.all_eq_true.1 (hall _ h)
  exact fun c hc _ => of_decide_eq_true (hname c hc)

/-- A text is what stands before its unit, and the name of the unit or nothing. -/
theorem isAscii_of_splitUnit (h : IsAscii (splitUnit cs).1) : IsAscii cs := by
  have hfound : ∀ {found : Option (List Char × LengthUnit)}, IsAscii (found.getD (cs, .meters)).1 →
      (∀ parts, found = some parts → IsAscii parts.1 → IsAscii cs) → IsAscii cs := by
    intro found h hsome
    cases found with
    | none => exact h
    | some parts => exact hsome parts rfl h
  refine hfound h fun parts hparts hfront => ?_
  obtain ⟨⟨name, u⟩, hname, hparts⟩ := List.exists_of_findSome?_eq_some hparts
  obtain ⟨number, hnumber, rfl⟩ := Option.map_eq_some_iff.1 hparts
  unfold dropSuffix? at hnumber
  split at hnumber
  · rename_i hsuffix
    obtain ⟨front, rfl⟩ := List.isSuffixOf_iff_suffix.1 hsuffix
    have hnumber : front = number := by simpa using hnumber
    exact isAscii_append_iff.2 ⟨hnumber ▸ hfront, isAscii_of_mem_unitNames hname⟩
  · cases hnumber

theorem isAscii_of_read? {d : Distance} (h : read? cs = some d) : IsAscii cs := by
  obtain ⟨value, hvalue, -⟩ := Option.map_eq_some_iff.1 h
  exact isAscii_of_trim (isAscii_of_splitUnit (isAscii_of_readFinite? hvalue))

theorem isAscii_of_readSide {side : Option Distance} (h : readSide cs = .ok side) :
    IsAscii cs := by
  cases side with
  | none =>
    unfold readSide at h
    split at h
    · rename_i hwildcard
      exact isAscii_of_trim (hwildcard ▸ isAscii_wildcard)
    · cases hread : readPositive (String.ofList (trim cs)) with
      | error r => rw [hread] at h; cases h
      | ok d => rw [hread] at h; cases h
  | some d => exact isAscii_of_read? (readSide_eq_ok_some_iff.1 h).1

theorem isAscii_of_check {text : String} (h : check text = .ok ()) : IsAscii text.toList := by
  unfold check at h
  split at h
  · obtain ⟨d, hd⟩ := discard_eq_ok_iff.1 h
    exact isAscii_of_read? (readPositive_eq_ok_iff.1 hd).1
  · rename_i before after hsplit
    obtain ⟨lower, hlower, hrest⟩ := bind_eq_ok_iff.1 h
    obtain ⟨upper, hupper, -⟩ := bind_eq_ok_iff.1 hrest
    exact isAscii_of_splitFirst (by decide) hsplit (isAscii_of_readSide hlower)
      (isAscii_of_readSide hupper)

end Distance

/-! ## Circles -/

namespace Circle

theorem isAscii_of_readCoordinate {x : Float} (h : readCoordinate cs = .ok x) : IsAscii cs := by
  unfold readCoordinate at h
  split at h
  · rename_i y hy
    exact isAscii_of_readFinite? hy
  · cases h

theorem isAscii_of_read {text : String} {circle : Circle} (h : read text = .ok circle) :
    IsAscii text.toList := by
  unfold read at h
  split at h
  · cases h
  split at h
  · rename_i latitude longitude radius hparts
    obtain ⟨x, hx, h⟩ := bind_eq_ok_iff.1 h
    obtain ⟨y, hy, h⟩ := bind_eq_ok_iff.1 h
    obtain ⟨d, hd, -⟩ := bind_eq_ok_iff.1 h
    rw [Distance.read_eq_ok_iff, String.toList_ofList] at hd
    have hcomma : ','.toNat < 128 := by decide
    apply isAscii_of_splitAll hcomma
    intro part hpart
    have hmem : trim part ∈ (splitAll ',' text.toList).map trim := List.mem_map_of_mem hpart
    rw [hparts] at hmem
    simp only [List.mem_cons, List.not_mem_nil, or_false] at hmem
    rcases hmem with hpart | hpart | hpart
    · exact isAscii_of_trim (hpart ▸ isAscii_of_readCoordinate hx)
    · exact isAscii_of_trim (hpart ▸ isAscii_of_readCoordinate hy)
    · exact isAscii_of_trim (hpart ▸ Distance.isAscii_of_read? hd)
  · cases h

end Circle

/-! ## Geometries -/

namespace Geometry

theorem toNat_lt_of_isPlain {c : Char} (h : Wkt.isPlain c = true) : c.toNat < 128 := by
  simp only [Wkt.isPlain, Char.isAlphanum, Wkt.isBlank, Bool.or_eq_true, beq_iff_eq] at h
  rcases h with ((((((halpha | hdigit) | rfl) | rfl) | rfl) | rfl) | rfl) | ((rfl | rfl) | rfl) | rfl
  · exact toNat_lt_of_isAlpha halpha
  · exact toNat_lt_of_isDigit hdigit
  all_goals decide

theorem exists_readAny_of_read {bounded : Bool} {text : String} {g : Geometry Float}
    (h : read bounded text = .ok g) : readAny text = .ok g := by
  cases bounded with
  | false => rwa [read_eq_readAny] at h
  | true => exact (read_eq_ok_iff.1 h).1

theorem isAscii_of_checkGeometry {bounded : Bool} {text : String}
    (h : checkGeometry bounded text = .ok ()) : IsAscii text.toList := by
  obtain ⟨houtline, g, hread, -⟩ := checkGeometry_eq_ok_iff.1 h
  obtain ⟨o, ho⟩ := exists_isWritten houtline
  have hplain := Outline.plain_of_readAny ho (exists_readAny_of_read hread)
  exact isAscii_of_trim fun c hc _ => toNat_lt_of_isPlain (hplain c hc)

end Geometry

/-! ## Truth values -/

/-- The word false in any case, with a long s. -/
def IsLongFalse (cs : List Char) : Prop :=
  ∃ f a l e : Char, cs = [f, a, l, 'ſ', e] ∧ asciiLower [f, a, l, e] = "fale".toList

theorem isAscii_of_asciiLower (h : ∀ letter ∈ asciiLower cs, letter.isLower = true) :
    IsAscii cs := by
  intro c hc _
  have hlower := h c.toLower (List.mem_map_of_mem hc)
  rw [Char.isLower_toLower_eq_isAlpha] at hlower
  exact toNat_lt_of_isAlpha hlower

theorem takeWord_eq_some_nil_iff : ∀ {word cs : List Char},
    takeWord word cs = some [] ↔ List.Forall₂ (fun letter c => foldsTo letter c = true) word cs
  | [], cs => by simp [takeWord]
  | letter :: word, [] => by simp [takeWord]
  | letter :: word, c :: cs => by
    unfold takeWord
    split
    · rename_i hc
      rw [takeWord_eq_some_nil_iff, List.forall₂_cons, and_iff_right hc]
    · rename_i hc
      simp [hc]

theorem foldsTo_s_iff {c : Char} : foldsTo 's' c = true ↔ c.toLower = 's' ∨ c = 'ſ' := by
  simp [foldsTo]

/-- Apart from `s`, a letter stands for itself only. -/
theorem foldsTo_iff {letter c : Char} (hletter : letter ≠ 's') :
    foldsTo letter c = true ↔ c.toLower = letter := by
  simp [foldsTo, hletter]

/-- A text folds to itself in lower case. -/
theorem forall₂_foldsTo (cs : List Char) :
    List.Forall₂ (fun letter c => foldsTo letter c = true) (asciiLower cs) cs := by
  rw [asciiLower, List.forall₂_map_left_iff, List.forall₂_same]
  exact fun c _ => by simp [foldsTo]

theorem asciiLower_of_forall₂ : ∀ {word cs : List Char}, 's' ∉ word →
    List.Forall₂ (fun letter c => foldsTo letter c = true) word cs → asciiLower cs = word
  | _, _, _, .nil => rfl
  | letter :: word, c :: cs, hs, .cons hc hcs => by
    rw [List.mem_cons, not_or] at hs
    show c.toLower :: asciiLower cs = letter :: word
    rw [(foldsTo_iff (Ne.symm hs.1)).1 hc, asciiLower_of_forall₂ hs.2 hcs]

theorem isLongFalse_iff {f a l e : Char} : IsLongFalse [f, a, l, 'ſ', e] ↔
    f.toLower = 'f' ∧ a.toLower = 'a' ∧ l.toLower = 'l' ∧ e.toLower = 'e' := by
  simp [IsLongFalse, asciiLower, and_assoc]

theorem forall₂_foldsTo_false_iff :
    List.Forall₂ (fun letter c => foldsTo letter c = true) ['f', 'a', 'l', 's', 'e'] cs ↔
      asciiLower cs = ['f', 'a', 'l', 's', 'e'] ∨ IsLongFalse cs := by
  constructor
  · intro h
    simp only [List.forall₂_cons_left_iff, List.forall₂_nil_left_iff] at h
    obtain ⟨f, _, hf, ⟨a, _, ha, ⟨l, _, hl, ⟨s, _, hs, ⟨e, _, he, rfl, rfl⟩, rfl⟩, rfl⟩, rfl⟩, rfl⟩ :=
      h
    rw [foldsTo_iff (by decide)] at hf ha hl he
    rcases foldsTo_s_iff.1 hs with hs | rfl
    · exact .inl (by simp [asciiLower, hf, ha, hl, hs, he])
    · exact .inr (isLongFalse_iff.2 ⟨hf, ha, hl, he⟩)
  · rintro (h | ⟨f, a, l, e, rfl, h⟩)
    · exact h ▸ forall₂_foldsTo cs
    · obtain ⟨hf, ha, hl, he⟩ := isLongFalse_iff.1 ⟨f, a, l, e, rfl, h⟩
      simp [foldsTo, hf, ha, hl, he]

theorem isBoolean_iff : isBoolean cs = true ↔
    asciiLower cs = "true".toList ∨ asciiLower cs = "false".toList ∨ IsLongFalse cs := by
  unfold isBoolean
  rw [Bool.or_eq_true, beq_iff_eq, beq_iff_eq, takeWord_eq_some_nil_iff, takeWord_eq_some_nil_iff]
  apply or_congr ⟨asciiLower_of_forall₂ (by decide), fun h => h ▸ forall₂_foldsTo cs⟩
  exact forall₂_foldsTo_false_iff

theorem IsLongFalse.not_isAscii (h : IsLongFalse cs) : ¬ IsAscii cs := by
  obtain ⟨f, a, l, e, rfl, -⟩ := h
  intro hascii
  exact absurd (hascii 'ſ' (by simp) (by decide)) (by decide)

theorem isAscii_iff_of_isBoolean (h : isBoolean cs = true) : IsAscii cs ↔ ¬ IsLongFalse cs := by
  refine ⟨fun hascii hlong => hlong.not_isAscii hascii, fun hlong => ?_⟩
  rcases isBoolean_iff.1 h with hword | hword | hword
  · exact isAscii_of_asciiLower (hword ▸ List.forall_iff_forall_mem.1 (by decide))
  · exact isAscii_of_asciiLower (hword ▸ List.forall_iff_forall_mem.1 (by decide))
  · exact absurd hword hlong

/-! ## All types with a grammar -/

/-- Whether the values of a type have a grammar of their own. Those of the others are words of a
vocabulary, or any text at all. -/
def ValueType.hasGrammar : ValueType → Bool
  | country | language | variant _ | text => false
  | _ => true

theorem of_rule_eq_ok {c : Prop} [Decidable c] {r : Rejection}
    (h : (if c then .ok () else .error r : Except Rejection Unit) = .ok ()) : c := by
  by_contra hc
  rw [if_neg hc] at h
  cases h

theorem isAscii_of_checkValue {bounded : Bool} {type : ValueType} {text : String}
    (h : checkValue bounded type text = .ok ()) (hgrammar : type.hasGrammar = true)
    (htype : type ≠ .boolean) : IsAscii text.toList := by
  cases type with
  | decimal => exact Range.isAscii_of_checkDecimals h
  | latitude | longitude => exact Range.isAscii_of_checkWithin h
  | integer =>
    obtain ⟨values, hvalues⟩ := discard_eq_ok_iff.1 h
    exact Range.isAscii_of_integers hvalues
  | month | day =>
    obtain ⟨values, hvalues, -⟩ := bind_eq_ok_iff.1 h
    exact Range.isAscii_of_integers hvalues
  | boolean => exact absurd rfl htype
  | uuid =>
    exact isAscii_of_isUuid (of_rule_eq_ok h)
  | date => exact isAscii_of_checkDates h
  | geometry => exact Geometry.isAscii_of_checkGeometry h
  | distance => exact Distance.isAscii_of_check h
  | circle =>
    obtain ⟨circle, hcircle⟩ := discard_eq_ok_iff.1 h
    obtain ⟨_, hread, -⟩ := bind_eq_ok_iff.1 hcircle
    exact Circle.isAscii_of_read hread
  | country | language | variant | text => cases hgrammar

/-- An accepted value of a type with a grammar has no character outside ASCII but white space, unless
it is the word false with a long s. -/
theorem isAscii_iff_of_check {bounded : Bool} {type : ValueType} {text : String}
    (h : check bounded type text = .ok ()) (hgrammar : type.hasGrammar = true) :
    IsAscii text.toList ↔ ¬ (type = .boolean ∧ IsLongFalse text.toList) := by
  unfold check at h
  split at h
  · rename_i hwildcard
    rw [Bool.and_eq_true] at hwildcard
    have hascii : IsAscii text.toList :=
      isAscii_of_trim ((beq_iff_eq.1 hwildcard.2).symm ▸ isAscii_wildcard)
    exact iff_of_true hascii fun hlong => hlong.2.not_isAscii hascii
  by_cases htype : type = .boolean
  · subst htype
    rw [isAscii_iff_of_isBoolean (of_rule_eq_ok h), and_iff_right rfl]
  · exact iff_of_true (isAscii_of_checkValue h hgrammar htype) fun hlong => htype hlong.1

/-- A range of days with a wide space after its comma. -/
theorem isAscii_iff_of_check_days :
    check true .day "1,\u30005" = .ok () ∧ ValueType.day.hasGrammar = true ∧
      (IsAscii "1,\u30005".toList ↔
        ¬ (ValueType.day = .boolean ∧ IsLongFalse "1,\u30005".toList)) := by
  have hcheck : check true .day "1,\u30005" = .ok () := by rfl
  have hgrammar : ValueType.day.hasGrammar = true := by rfl
  exact ⟨hcheck, hgrammar, isAscii_iff_of_check hcheck hgrammar⟩

/-- The long s passes for an s. -/
theorem long_false_accepted : check true .boolean "falſe" = .ok () ∧
    ValueType.boolean.hasGrammar = true ∧ ¬ IsAscii "falſe".toList := by
  refine ⟨by rfl, by rfl, IsLongFalse.not_isAscii ?_⟩
  exact ⟨'f', 'a', 'l', 'e', by decide, by decide⟩

end OccurrenceQuery
