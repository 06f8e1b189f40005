/-
The outline grammar as a relation between outlines and the texts they are written as, whatever the
white space and the case. What is read is written: a text that an outline is read from is one of the
texts of the outline.
-/
import Mathlib
import OccurrenceQuery.Geometry.Wkt.Outline
import OccurrenceQuery.Proofs.Range.Form

namespace OccurrenceQuery.Geometry

open OccurrenceQuery.Text

/-! ## Written parts -/

/-- A position, with white space in front of it and between its two numbers. -/
def PositionText.IsWritten (p : PositionText) (cs : List Char) : Prop :=
  ∃ left between, cs = left ++ p.x ++ between ++ p.y ∧ Spaces left ∧ Spaces between ∧
    between ≠ [] ∧ Range.HasDecimalForm p.x ∧ Range.HasDecimalForm p.y

/-- The position that a text of a position denotes. -/
def PositionText.Denotes (p : PositionText) (q : Position Float) : Prop :=
  Number.readFloat? p.x = some q.x ∧ Number.readFloat? p.y = some q.y

namespace Outline

/-- How the items of a kind are written. -/
abbrev Form (β : Type) := β → List Char → Prop

variable {β : Type} {form : Form β}

/-- One or more items with commas between them, and white space in front of the commas. -/
inductive IsSeparated (form : Form β) : Form (List β) where
  | single {b : β} {cs : List Char} (hb : form b cs) : IsSeparated form [b] cs
  | cons {b : β} {bs : List β} {cs space ds : List Char} (hb : form b cs) (hspace : Spaces space)
    (hbs : IsSeparated form bs ds) : IsSeparated form (b :: bs) (cs ++ space ++ ',' :: ds)

theorem IsSeparated.length_pos {bs : List β} {cs : List Char} (h : IsSeparated form bs cs) :
    0 < bs.length := by
  cases h <;> exact Nat.succ_pos _

/-- An item between parentheses, with white space in front of each of them. -/
def IsEnclosed (form : Form β) (b : β) (cs : List Char) : Prop :=
  ∃ left inner right, cs = left ++ '(' :: (inner ++ right ++ [')']) ∧ Spaces left ∧ Spaces right ∧
    form b inner

/-- Items with commas between them and parentheses around them. -/
def IsGroup (form : Form β) : Form (List β) := IsEnclosed (IsSeparated form)

/-! ## Written outlines -/

/-- The kind of geometry that an outline is of. -/
def kind : Outline → Kind
  | point _ => .point
  | lineString _ => .lineString
  | linearRing _ => .linearRing
  | polygon _ => .polygon
  | multiPolygon _ => .multiPolygon

/-- The text of an outline after its keyword. -/
def IsBody : Outline → List Char → Prop
  | point p => IsEnclosed PositionText.IsWritten p
  | lineString ps => IsGroup PositionText.IsWritten ps
  | linearRing ps => IsGroup PositionText.IsWritten ps
  | polygon rings => IsGroup (IsGroup PositionText.IsWritten) rings
  | multiPolygon polygons => IsGroup (IsGroup (IsGroup PositionText.IsWritten)) polygons

/-- A word in any case: each of its characters stands for the letter in its place. -/
def Folds (letters word : List Char) : Prop :=
  List.Forall₂ (fun letter c => foldsTo letter c = true) letters word

/-- An outline is written as its keyword, in any case, and its body, between white space. -/
def IsWritten (o : Outline) (cs : List Char) : Prop :=
  ∃ left word body right, cs = left ++ word ++ body ++ right ∧ Spaces left ∧ Spaces right ∧
    Folds (asciiLower o.kind.keyword.toList) word ∧ o.IsBody body

/-! ## Meaning -/

/-- The positions of an outline in reading order. -/
def positions : Outline → List PositionText
  | point p => [p]
  | lineString ps => ps
  | linearRing ps => ps
  | polygon rings => rings.flatten
  | multiPolygon polygons => polygons.flatten.flatten

/-- An outline denotes the geometry of its kind with the numbers in the same places. -/
def Denotes : Outline → Geometry Float → Prop
  | point p, .point q => p.Denotes q
  | lineString ps, .lineString qs => List.Forall₂ PositionText.Denotes ps qs
  | linearRing ps, .linearRing qs => List.Forall₂ PositionText.Denotes ps qs
  | polygon rings, .polygon q => List.Forall₂ (List.Forall₂ PositionText.Denotes) rings q.rings
  | multiPolygon polygons, .multiPolygon members =>
    List.Forall₂ (List.Forall₂ (List.Forall₂ PositionText.Denotes)) polygons
      (members.map Polygon.rings)
  | _, _ => False

theorem Denotes.kind_eq {o : Outline} {g : Geometry Float} (h : o.Denotes g) : g.kind = o.kind := by
  cases o <;> cases g <;> first | rfl | exact h.elim

/-- The positions of an outline denote those of the geometry, one by one. -/
theorem Denotes.positions {o : Outline} {g : Geometry Float} (h : o.Denotes g) :
    List.Forall₂ PositionText.Denotes o.positions g.positions := by
  cases o <;> cases g <;> try exact h.elim
  case point.point => exact .cons h .nil
  case lineString.lineString => exact h
  case linearRing.linearRing => exact h
  case polygon.polygon => exact List.rel_flatten h
  case multiPolygon.multiPolygon polygons members =>
    have hrings := List.rel_flatten (List.rel_flatten h)
    rwa [← List.flatMap_def] at hrings

/-! ## What is read -/

theorem exists_mark {c : Char} {cs rest : List Char} (h : mark c cs = some rest) :
    ∃ left, cs = left ++ c :: rest ∧ Spaces left := by
  obtain ⟨left, hcs, hleft⟩ := exists_trimStart cs
  unfold mark at h
  split at h
  · rename_i d rest' htrim
    obtain ⟨rfl, hrest⟩ : d = c ∧ rest' = rest := by
      split at h <;> simp_all
    exact ⟨left, by rw [← hrest, ← htrim, ← hcs], hleft⟩
  · cases h

/-- A step takes items off the front that are written in a form; white space may precede them. -/
def Takes (item : Step β) (form : Form β) : Prop :=
  ∀ {cs rest : List Char} {b : β}, item (trimStart cs) = some (b, rest) →
    ∃ used, cs = used ++ rest ∧ form b used

theorem exists_separated {item : Step β} (h : Takes item form) :
    ∀ {limit : Nat} {cs rest : List Char} {bs : List β},
      separated item limit cs = some (bs, rest) → ∃ used, cs = used ++ rest ∧ IsSeparated form bs used
  | 0, cs, rest, bs, hread => by simp [separated] at hread
  | limit + 1, cs, rest, bs, hread => by
    unfold separated at hread
    obtain ⟨⟨b, after⟩, hitem, hafter⟩ := Option.bind_eq_some_iff.1 hread
    obtain ⟨used, rfl, hb⟩ := h hitem
    dsimp only at hafter
    split at hafter
    · rename_i others hcomma
      obtain ⟨⟨bs', rest'⟩, hothers, heq⟩ := Option.bind_eq_some_iff.1 hafter
      obtain ⟨rfl, rfl⟩ := Prod.mk.inj (Option.some.inj heq)
      obtain ⟨space, rfl, hspace⟩ := exists_mark hcomma
      obtain ⟨used', rfl, hbs⟩ := exists_separated h hothers
      exact ⟨used ++ space ++ ',' :: used', by simp, .cons hb hspace hbs⟩
    · obtain ⟨rfl, rfl⟩ := Prod.mk.inj (Option.some.inj hafter)
      exact ⟨used, rfl, .single hb⟩

theorem exists_group {item : Step β} (h : Takes item form) {cs rest : List Char} {bs : List β}
    (hread : group item cs = some (bs, rest)) : ∃ used, cs = used ++ rest ∧ IsGroup form bs used := by
  obtain ⟨inner, hopening, hinner⟩ := Option.bind_eq_some_iff.1 hread
  obtain ⟨⟨bs', after⟩, hitems, hafter⟩ := Option.bind_eq_some_iff.1 hinner
  obtain ⟨rest', hclosing, heq⟩ := Option.bind_eq_some_iff.1 hafter
  obtain ⟨rfl, rfl⟩ := Prod.mk.inj (Option.some.inj heq)
  obtain ⟨left, rfl, hleft⟩ := exists_mark hopening
  obtain ⟨used, rfl, hused⟩ := exists_separated h hitems
  obtain ⟨right, hrest, hright⟩ := exists_mark hclosing
  subst hrest
  exact ⟨left ++ '(' :: (used ++ right ++ [')']), by simp, left, used, right, rfl, hleft, hright,
    hused⟩

theorem mark_trimStart (c : Char) (cs : List Char) : mark c (trimStart cs) = mark c cs := by
  rw [mark, mark, trimStart, trimStart, List.dropWhile_idempotent]

theorem takes_group {item : Step β} (h : Takes item form) : Takes (group item) (IsGroup form) := by
  intro cs rest bs hread
  rw [group, mark_trimStart] at hread
  exact exists_group h hread

/-! ## Positions -/

theorem areDigits_takeWhile {cs : List Char} (h : ¬ (cs.takeWhile isDecimalDigit).isEmpty = true) :
    Range.AreDigits (cs.takeWhile isDecimalDigit) :=
  ⟨by simpa using h, fun _ hc => List.mem_takeWhile_imp hc⟩

theorem exists_number {cs rest n : List Char} (h : number cs = some (n, rest)) :
    cs = n ++ rest ∧ Range.HasDecimalForm n := by
  unfold number at h
  split at h
  rename_i sign unsigned hsign
  have hcs : cs = sign ++ unsigned ∧ (sign = [] ∨ sign = ['-']) := by
    split at hsign <;> obtain ⟨rfl, rfl⟩ := Prod.mk.inj hsign <;> simp
  have hform : ∀ {body : List Char}, Range.HasUnsignedForm body →
      Range.HasDecimalForm (sign ++ body) := by
    intro body hbody
    rcases hcs.2 with rfl | rfl
    · exact .inl hbody
    · exact .inr ⟨body, rfl, hbody⟩
  have hunsigned := List.takeWhile_append_dropWhile (p := isDecimalDigit) (l := unsigned)
  dsimp only at h
  split at h
  · cases h
  rename_i hwhole
  have hdigits := areDigits_takeWhile hwhole
  split at h
  · rename_i after hpoint
    split at h
    · cases h
    rename_i hfraction
    obtain ⟨rfl, rfl⟩ := Prod.mk.inj (Option.some.inj h)
    rw [hcs.1]
    refine ⟨?_, ?_⟩
    · rw [List.append_assoc, List.append_assoc, List.cons_append,
        List.takeWhile_append_dropWhile, ← hpoint, hunsigned]
    · rw [List.append_assoc]
      exact hform (.inr ⟨_, _, rfl, hdigits, areDigits_takeWhile hfraction⟩)
  · obtain ⟨rfl, rfl⟩ := Prod.mk.inj (Option.some.inj h)
    rw [hcs.1]
    exact ⟨by rw [List.append_assoc, hunsigned], hform (.inl hdigits)⟩

theorem takes_position : Takes position PositionText.IsWritten := by
  intro cs rest p hread
  obtain ⟨⟨x, after⟩, hx, hafter⟩ := Option.bind_eq_some_iff.1 hread
  obtain ⟨_, hspace, hsecond⟩ := Option.bind_eq_some_iff.1 hafter
  obtain ⟨⟨y, rest'⟩, hy, heq⟩ := Option.bind_eq_some_iff.1 hsecond
  obtain ⟨rfl, rfl⟩ := Prod.mk.inj (Option.some.inj heq)
  obtain ⟨hcs, hxForm⟩ := exists_number hx
  obtain ⟨hrest, hyForm⟩ := exists_number hy
  obtain ⟨left, hleft, hleftSpace⟩ := exists_trimStart cs
  obtain ⟨between, hbetween, hbetweenSpace⟩ := exists_trimStart after
  refine ⟨left ++ x ++ between ++ y, ?_, left, between, rfl, hleftSpace, hbetweenSpace, ?_, hxForm, hyForm⟩
  · rw [hleft, hcs, hbetween, hrest]
    simp
  · -- a character that is white space stands between the numbers
    rintro rfl
    rw [List.nil_append] at hbetween
    have hhead := List.dropWhile_eq_self_iff.1 hbetween.symm
    cases after with
    | nil => simp [guard] at hspace
    | cons c after =>
      have hsolid : ¬ isWhiteSpace c = true := hhead (Nat.succ_pos _)
      simp [guard, hsolid] at hspace

theorem exists_pointBody {cs rest : List Char} {p : PositionText}
    (h : pointBody cs = some (p, rest)) :
    ∃ used, cs = used ++ rest ∧ IsEnclosed PositionText.IsWritten p used := by
  obtain ⟨inner, hopening, hinner⟩ := Option.bind_eq_some_iff.1 h
  obtain ⟨⟨p', after⟩, hposition, hafter⟩ := Option.bind_eq_some_iff.1 hinner
  obtain ⟨rest', hclosing, heq⟩ := Option.bind_eq_some_iff.1 hafter
  obtain ⟨rfl, rfl⟩ := Prod.mk.inj (Option.some.inj heq)
  obtain ⟨left, rfl, hleft⟩ := exists_mark hopening
  obtain ⟨used, rfl, hused⟩ := takes_position hposition
  obtain ⟨right, hrest, hright⟩ := exists_mark hclosing
  subst hrest
  exact ⟨left ++ '(' :: (used ++ right ++ [')']), by simp, left, used, right, rfl, hleft, hright,
    hused⟩

/-! ## Shapes -/

theorem exists_takeWord : ∀ {word cs rest : List Char}, takeWord word cs = some rest →
    ∃ used, cs = used ++ rest ∧ Folds word used
  | [], cs, rest, h => ⟨[], by simpa [takeWord] using h, .nil⟩
  | letter :: word, [], rest, h => by simp [takeWord] at h
  | letter :: word, c :: cs, rest, h => by
    unfold takeWord at h
    split at h
    · rename_i hc
      obtain ⟨used, rfl, hused⟩ := exists_takeWord h
      exact ⟨c :: used, rfl, .cons hc hused⟩
    · cases h

theorem exists_shape (kind : Kind) {word cs after rest : List Char} {step : Step β}
    {make : β → Outline} {o : Outline} (hkeyword : asciiLower kind.keyword.toList = word)
    (hkind : ∀ b, (make b).kind = kind)
    (hstep : ∀ {cs rest b}, step cs = some (b, rest) →
      ∃ used, cs = used ++ rest ∧ (make b).IsBody used)
    (hword : takeWord word cs = some after)
    (h : (step after).map (fun (b, rest) => (make b, rest)) = some (o, rest)) :
    ∃ word body, cs = word ++ body ++ rest ∧ Folds (asciiLower o.kind.keyword.toList) word ∧
      o.IsBody body := by
  obtain ⟨⟨b, rest'⟩, hread, heq⟩ := Option.map_eq_some_iff.1 h
  obtain ⟨rfl, rfl⟩ := Prod.mk.inj heq
  obtain ⟨used, rfl, hfolds⟩ := exists_takeWord hword
  obtain ⟨body, rfl, hbody⟩ := hstep hread
  exact ⟨used, body, by simp, by rwa [hkind, hkeyword], hbody⟩

theorem exists_shapeAfter {o : Outline} {cs rest : List Char} (h : shapeAfter cs = some (o, rest)) :
    ∃ word body, cs = word ++ body ++ rest ∧ Folds (asciiLower o.kind.keyword.toList) word ∧
      o.IsBody body := by
  unfold shapeAfter at h
  split at h
  · rename_i hword
    exact exists_shape .point (by decide) (fun _ => rfl) exists_pointBody hword h
  split at h
  · rename_i hword
    exact exists_shape .lineString (by decide) (fun _ => rfl)
      (exists_group takes_position) hword h
  split at h
  · rename_i hword
    exact exists_shape .linearRing (by decide) (fun _ => rfl)
      (exists_group takes_position) hword h
  split at h
  · rename_i hword
    exact exists_shape .polygon (by decide) (fun _ => rfl)
      (exists_group (takes_group takes_position)) hword h
  split at h
  · rename_i hword
    exact exists_shape .multiPolygon (by decide) (fun _ => rfl)
      (exists_group (takes_group (takes_group takes_position))) hword h
  · cases h

/-- A text that an outline is read from is one of the texts of the outline. -/
theorem isWritten_of_read? {o : Outline} {cs : List Char} (h : read? cs = some o) :
    o.IsWritten cs := by
  obtain ⟨⟨o', rest⟩, hshape, hrest⟩ := Option.bind_eq_some_iff.1 h
  obtain ⟨_, hempty, heq⟩ := Option.bind_eq_some_iff.1 hrest
  obtain rfl := Option.some.inj heq
  obtain ⟨left, hcs, hleft⟩ := exists_trimStart cs
  obtain ⟨right, hright, hrightSpace⟩ := exists_trimStart rest
  obtain ⟨word, body, htrim, hword, hbody⟩ := exists_shapeAfter hshape
  refine ⟨left, word, body, right, ?_, hleft, hrightSpace, hword, hbody⟩
  have hnone : trimStart rest = [] := by
    by_contra hne
    simp [guard, hne] at hempty
  rw [hcs, htrim, hright, hnone]
  simp

/-! ## Numerals -/

/-- Whether `c` can stand in a number of the outline grammar. -/
def isDecimalLetter (c : Char) : Bool := isDecimalDigit c || c == '-' || c == '.'

/-- The numbers of a text as they are written: its longest runs of digits, minuses and points. -/
def numerals (cs : List Char) : List (List Char) :=
  (cs.splitOnP fun c => !isDecimalLetter c).filter fun n => !n.isEmpty

theorem numerals_nil : numerals [] = [] := rfl

theorem numerals_append_cons {c : Char} (hc : isDecimalLetter c = false) (cs ds : List Char) :
    numerals (cs ++ c :: ds) = numerals cs ++ numerals ds := by
  rw [numerals, List.splitOnP_append_cons _ _ (by simp [hc]), List.filter_append]
  rfl

theorem numerals_eq_singleton {n : List Char} (hne : n ≠ [])
    (hn : ∀ c ∈ n, isDecimalLetter c = true) : numerals n = [n] := by
  rw [numerals, List.splitOnP_eq_singleton fun c hc => by simp [hn c hc]]
  simp [hne]

theorem numerals_append {cs : List Char} (hcs : ∀ c ∈ cs, isDecimalLetter c = false)
    (ds : List Char) : numerals (cs ++ ds) = numerals ds := by
  induction cs with
  | nil => rfl
  | cons c cs ih =>
    have hskip := numerals_append_cons (hcs c List.mem_cons_self) [] (cs ++ ds)
    rw [List.nil_append, numerals_nil, List.nil_append] at hskip
    rw [List.cons_append, hskip, ih fun d hd => hcs d (List.mem_cons_of_mem c hd)]

theorem append_numerals {cs : List Char} (hcs : ∀ c ∈ cs, isDecimalLetter c = false)
    (ds : List Char) : numerals (ds ++ cs) = numerals ds := by
  cases cs with
  | nil => rw [List.append_nil]
  | cons c cs =>
    have hrest := numerals_append (fun d hd => hcs d (List.mem_cons_of_mem c hd)) []
    rw [List.append_nil, numerals_nil] at hrest
    rw [numerals_append_cons (hcs c List.mem_cons_self), hrest, List.append_nil]

theorem isDecimalLetter_of_isWhiteSpace {c : Char} (hc : isWhiteSpace c = true) :
    isDecimalLetter c = false := by
  rw [Bool.eq_false_iff]
  intro hletter
  simp only [isDecimalLetter, Bool.or_eq_true, beq_iff_eq] at hletter
  rcases hletter with (hdigit | rfl) | rfl
  · rw [isWhiteSpace_of_isDecimalDigit hdigit] at hc
    cases hc
  · exact absurd hc (by decide)
  · exact absurd hc (by decide)

theorem isDecimalLetter_of_mem {n : List Char} (h : Range.HasDecimalForm n) {c : Char}
    (hc : c ∈ n) : isDecimalLetter c = true := by
  rcases h.mem hc with hdigit | rfl | rfl
  · simp [isDecimalLetter, hdigit]
  · decide
  · decide

/-- The texts of a form have the numbers of what they stand for. -/
def Spells (form : Form β) (numbers : β → List (List Char)) : Prop :=
  ∀ b cs, form b cs → numerals cs = numbers b

theorem spells_position : Spells PositionText.IsWritten fun p => [p.x, p.y] := by
  rintro p cs ⟨left, between, rfl, hleft, hbetween, hne, hx, hy⟩
  obtain ⟨c, between, rfl⟩ := List.exists_cons_of_ne_nil hne
  have hc := isDecimalLetter_of_isWhiteSpace (hbetween c List.mem_cons_self)
  have htext : left ++ p.x ++ c :: between ++ p.y = left ++ (p.x ++ c :: (between ++ p.y)) := by
    simp
  rw [htext, numerals_append fun d hd => isDecimalLetter_of_isWhiteSpace (hleft d hd),
    numerals_append_cons hc, numerals_append fun d hd =>
      isDecimalLetter_of_isWhiteSpace (hbetween d (List.mem_cons_of_mem c hd)),
    numerals_eq_singleton hx.ne_nil fun d => isDecimalLetter_of_mem hx,
    numerals_eq_singleton hy.ne_nil fun d => isDecimalLetter_of_mem hy]
  rfl

variable {numbers : β → List (List Char)}

theorem Spells.enclosed (h : Spells form numbers) : Spells (IsEnclosed form) numbers := by
  rintro b cs ⟨left, inner, right, rfl, hleft, hright, hinner⟩
  have htext : left ++ '(' :: (inner ++ right ++ [')']) =
      (left ++ ['(']) ++ (inner ++ (right ++ [')'])) := by simp
  have hspaces : ∀ {spaces : List Char} {mark c : Char}, Spaces spaces →
      isDecimalLetter mark = false → c ∈ spaces ++ [mark] → isDecimalLetter c = false := by
    intro spaces mark c hspaces hmark hc
    rcases List.mem_append.1 hc with hmem | hmem
    · exact isDecimalLetter_of_isWhiteSpace (hspaces c hmem)
    · rwa [List.mem_singleton.1 hmem]
  rw [htext, numerals_append fun c => hspaces hleft (by decide),
    append_numerals fun c => hspaces hright (by decide), h b inner hinner]

theorem Spells.separated (h : Spells form numbers) :
    Spells (IsSeparated form) fun bs => bs.flatMap numbers := by
  intro bs cs hbs
  induction hbs with
  | single hb => simp [h _ _ hb]
  | @cons b bs cs space ds hb hspace _ ih =>
    rw [numerals_append_cons (by decide),
      append_numerals fun c hc => isDecimalLetter_of_isWhiteSpace (hspace c hc), h b cs hb, ih]
    rfl

theorem Spells.group (h : Spells form numbers) :
    Spells (IsGroup form) fun bs => bs.flatMap numbers := h.separated.enclosed

theorem numerals_of_isBody {o : Outline} {cs : List Char} (h : o.IsBody cs) :
    numerals cs = o.positions.flatMap fun p => [p.x, p.y] := by
  have hposition := spells_position
  cases o with
  | point p => simpa [positions] using hposition.enclosed p cs h
  | lineString ps => exact hposition.group ps cs h
  | linearRing ps => exact hposition.group ps cs h
  | polygon rings =>
    rw [hposition.group.group rings cs h, positions, List.flatten_eq_flatMap, List.flatMap_assoc]
    rfl
  | multiPolygon polygons =>
    rw [hposition.group.group.group polygons cs h, positions, List.flatten_eq_flatMap,
      List.flatMap_assoc, List.flatten_eq_flatMap, List.flatMap_assoc]
    rfl

/-! ## Keywords -/

/-- What stands for a letter in a keyword is a letter, too; the long s is the only one that is not of
ASCII. -/
theorem isAlpha_of_foldsTo {letter c : Char} (hletter : letter.isLower = true)
    (h : foldsTo letter c = true) : c.isAlpha = true ∨ c = 'ſ' := by
  simp only [foldsTo, Bool.or_eq_true, Bool.and_eq_true, beq_iff_eq] at h
  rcases h with rfl | ⟨-, rfl⟩
  · rw [Char.isLower_toLower_eq_isAlpha] at hletter
    exact .inl hletter
  · exact .inr rfl

theorem isAlpha_of_folds {kind : Kind} {word : List Char}
    (h : Folds (asciiLower kind.keyword.toList) word) {c : Char} (hc : c ∈ word) :
    c.isAlpha = true ∨ c = 'ſ' := by
  have hlower : ∀ letter ∈ asciiLower kind.keyword.toList, letter.isLower = true := by
    cases kind <;> exact List.forall_iff_forall_mem.1 (by decide)
  generalize asciiLower kind.keyword.toList = letters at h hlower
  induction h with
  | nil => cases hc
  | cons hfold _ ih =>
    rw [List.forall_mem_cons] at hlower
    rcases List.mem_cons.1 hc with rfl | hmem
    · exact isAlpha_of_foldsTo hlower.1 hfold
    · exact ih hmem hlower.2

theorem isDecimalLetter_of_isAlpha {c : Char} (hc : c.isAlpha = true ∨ c = 'ſ') :
    isDecimalLetter c = false := by
  rcases hc with halpha | rfl
  · rw [Bool.eq_false_iff]
    intro hletter
    simp only [isDecimalLetter, isDecimalDigit_of_isAlpha halpha, Bool.false_or, Bool.or_eq_true,
      beq_iff_eq] at hletter
    rcases hletter with rfl | rfl
    · exact absurd halpha (by decide)
    · exact absurd halpha (by decide)
  · decide

theorem isWhiteSpace_of_isAlpha {c : Char} (hc : c.isAlpha = true ∨ c = 'ſ') :
    isWhiteSpace c = false := by
  rcases hc with halpha | rfl
  · exact Bool.eq_false_iff.2 (not_inRanges_of_isAlpha (by decide) halpha)
  · decide

theorem numerals_of_isWritten {o : Outline} {cs : List Char} (h : o.IsWritten cs) :
    numerals cs = o.positions.flatMap fun p => [p.x, p.y] := by
  obtain ⟨left, word, body, right, rfl, hleft, hright, hword, hbody⟩ := h
  rw [append_numerals fun c hc => isDecimalLetter_of_isWhiteSpace (hright c hc), List.append_assoc,
    numerals_append fun c hc => isDecimalLetter_of_isWhiteSpace (hleft c hc),
    numerals_append fun c hc => isDecimalLetter_of_isAlpha (isAlpha_of_folds hword hc),
    numerals_of_isBody hbody]

end Outline

end OccurrenceQuery.Geometry
