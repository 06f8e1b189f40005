/-
How distances are written: a finite number, and the name of a unit or none, with white space around
them and between them. A text is read as a distance exactly when it is written so, and then it is
written so in one way only: of the names that a text ends in the longest one is tried first, and no
number ends in a letter.
-/
import OccurrenceQuery.Proofs.Distance
import OccurrenceQuery.Proofs.Number.Literal

namespace OccurrenceQuery.Distance

open OccurrenceQuery.Text OccurrenceQuery.Number

/-! ## Names -/

theorem mem_unitNames_iff {name : String} {u : LengthUnit} :
    (name, u) ∈ unitNames ↔ name ∈ u.names := by
  have hall : ∀ u : LengthUnit, u ∈ LengthUnit.all := by
    intro u
    cases u <;> decide
  simp [unitNames, hall]

/-- A name is written in letters. -/
theorem isAlpha_of_mem_unitNames {p : String × LengthUnit} (h : p ∈ unitNames) :
    p.1.toList ≠ [] ∧ ∀ c ∈ p.1.toList, c.isAlpha = true := by
  have hall : (unitNames.all fun p => !p.1.toList.isEmpty && p.1.toList.all Char.isAlpha) = true := by
    decide
  simpa using List.all_eq_true.1 hall p h

/-- The first name, in the order in which they are tried, that a text ends in. -/
def lastName? (cs : List Char) : Option (String × LengthUnit) :=
  unitNames.find? fun p => p.1.toList.isSuffixOf cs

theorem exists_of_lastName? {cs : List Char} {p : String × LengthUnit} (h : lastName? cs = some p) :
    p ∈ unitNames ∧ ∃ front, cs = front ++ p.1.toList := by
  have hsuffix : p.1.toList.isSuffixOf cs = true := by
    simpa using List.find?_some (p := fun p : String × LengthUnit => p.1.toList.isSuffixOf cs) h
  obtain ⟨front, hfront⟩ := List.isSuffixOf_iff_suffix.1 hsuffix
  exact ⟨List.mem_of_find?_eq_some h, front, hfront.symm⟩

/-- Every name is tried before the names that it ends in. -/
theorem lastName?_name {p : String × LengthUnit} (h : p ∈ unitNames) :
    lastName? p.1.toList = some p := by
  have hall : ∀ p ∈ unitNames, lastName? p.1.toList = some p := by decide
  exact hall p h

theorem findSome?_dropSuffix? (cs : List Char) : ∀ names : List (String × LengthUnit),
    (names.findSome? fun (name, u) => (dropSuffix? name.toList cs).map fun number => (number, u)) =
      (names.find? fun p => p.1.toList.isSuffixOf cs).map fun p =>
        (cs.take (cs.length - p.1.toList.length), p.2)
  | [] => rfl
  | (name, u) :: names => by
    simp only [List.findSome?_cons, List.find?_cons, dropSuffix?]
    cases name.toList.isSuffixOf cs with
    | true => rfl
    | false => exact findSome?_dropSuffix? cs names

theorem splitUnit_eq (cs : List Char) : splitUnit cs =
    ((lastName? cs).map fun p => (cs.take (cs.length - p.1.toList.length), p.2)).getD
      (cs, .meters) := by
  rw [splitUnit, findSome?_dropSuffix?, lastName?]

theorem splitUnit_of_lastName? {cs : List Char} {name : String} {u : LengthUnit}
    (h : lastName? (cs ++ name.toList) = some (name, u)) :
    splitUnit (cs ++ name.toList) = (cs, u) := by
  simp [splitUnit_eq, h]

theorem splitUnit_of_lastName?_eq_none {cs : List Char} (h : lastName? cs = none) :
    splitUnit cs = (cs, .meters) := by
  simp [splitUnit_eq, h]

/-! ## Names behind a number -/

/-- Behind a text that does not end in a letter, only the names that a word ends in can be found. -/
theorem lastName?_append {front word : List Char} (h : ∀ c ∈ front.getLast?, c.isAlpha = false) :
    lastName? (front ++ word) = lastName? word := by
  refine List.find?_congr fun p hp => ?_
  obtain ⟨-, hletters⟩ := isAlpha_of_mem_unitNames hp
  rw [Bool.eq_iff_iff, List.isSuffixOf_iff_suffix, List.isSuffixOf_iff_suffix]
  refine ⟨fun hsuffix => ?_, fun hsuffix => hsuffix.trans (List.suffix_append front word)⟩
  rcases List.suffix_or_suffix_of_suffix hsuffix (List.suffix_append front word) with hword | hname
  · exact hword
  obtain ⟨rest, hrest⟩ := hsuffix
  obtain ⟨part, hpart⟩ := hname
  rcases List.eq_nil_or_concat part with rfl | ⟨init, c, rfl⟩
  · exact ⟨[], by rw [← hpart]; rfl⟩
  -- a longer name would have a letter at the end of the text in front
  · rw [← hpart, ← List.append_assoc, List.append_cancel_right_eq] at hrest
    have hletter : c.isAlpha = true := hletters c (by rw [← hpart]; simp)
    have hfront := h c (by rw [← hrest]; simp)
    rw [hletter] at hfront
    cases hfront

theorem lastName?_append_name {front : List Char} (h : ∀ c ∈ front.getLast?, c.isAlpha = false)
    {p : String × LengthUnit} (hp : p ∈ unitNames) : lastName? (front ++ p.1.toList) = some p := by
  rw [lastName?_append h, lastName?_name hp]

theorem lastName?_eq_none {front : List Char} (h : ∀ c ∈ front.getLast?, c.isAlpha = false) :
    lastName? front = none := by
  have hnil := @lastName?_append front [] h
  rwa [List.append_nil] at hnil

/-- Neither a number nor white space behind it ends in a letter. -/
theorem isAlpha_of_getLast? {number between : List Char} {x : Float} (h : IsLiteral number x)
    (hbetween : Spaces between) : ∀ c ∈ (number ++ between).getLast?, c.isAlpha = false := by
  intro c hc
  rw [Bool.eq_false_iff]
  intro halpha
  rcases List.eq_nil_or_concat between with rfl | ⟨front, last, rfl⟩
  · rw [List.append_nil] at hc
    have hends := h.ends.2 c hc
    rw [endsNumber, isDigit_of_isAlpha halpha, Bool.false_or, beq_iff_eq] at hends
    rw [hends] at halpha
    exact absurd halpha (by decide)
  · have hlast : last = c := by simpa [← List.append_assoc] using hc
    have hspace := hbetween c (by simp [hlast])
    exact not_inRanges_of_isAlpha (by decide) halpha hspace

/-! ## Readings -/

/-- A way of taking a text apart: a number between white space, or a number and the name of a unit with
white space around them and between them. -/
inductive Reading where
  | bare (before number after : List Char)
  | named (before number between : List Char) (name : String) (after : List Char)

/-- What is taken apart. -/
def Reading.whole : Reading → List Char
  | .bare before number after => before ++ number ++ after
  | .named before number between name after =>
    before ++ (number ++ between ++ name.toList) ++ after

/-- What the parts denote: a number in a unit that has the name, and in meters when there is no name. -/
def Reading.Denotes : Reading → Distance → Prop
  | .bare before number after, d =>
    Spaces before ∧ IsLiteral number d.value ∧ Spaces after ∧ d.unit = .meters
  | .named before number between name after, d =>
    Spaces before ∧ IsLiteral number d.value ∧ Spaces between ∧ name ∈ d.unit.names ∧ Spaces after

theorem trim_bare {before number after : List Char} {d : Distance}
    (h : (Reading.bare before number after).Denotes d) :
    trim (Reading.bare before number after).whole = number :=
  h.2.1.trim_append h.1 h.2.2.1

theorem lastName?_bare {before number after : List Char} {d : Distance}
    (h : (Reading.bare before number after).Denotes d) : lastName? number = none := by
  have hends := isAlpha_of_getLast? h.2.1 spaces_nil
  rw [List.append_nil] at hends
  exact lastName?_eq_none hends

theorem trim_named {before number between after : List Char} {name : String} {d : Distance}
    (h : (Reading.named before number between name after).Denotes d) :
    trim (Reading.named before number between name after).whole = number ++ between ++ name.toList := by
  obtain ⟨hbefore, hnumber, hbetween, hname, hafter⟩ := h
  obtain ⟨hne, hletters⟩ := isAlpha_of_mem_unitNames (mem_unitNames_iff.2 hname)
  refine trim_append hbefore hafter (by simp [hne]) (fun c hc => ?_) fun c hc => ?_
  · rw [List.append_assoc, List.head?_append_of_ne_nil _ hnumber.ends.1] at hc
    exact hnumber.solid (List.mem_of_mem_head? hc)
  · rw [List.getLast?_append_of_ne_nil _ hne] at hc
    have halpha := hletters c (List.mem_of_mem_getLast? hc)
    exact Bool.eq_false_iff.2 (not_inRanges_of_isAlpha (by decide) halpha)

theorem lastName?_named {before number between after : List Char} {name : String} {d : Distance}
    (h : (Reading.named before number between name after).Denotes d) :
    lastName? (number ++ between ++ name.toList) = some (name, d.unit) := by
  obtain ⟨-, hnumber, hbetween, hname, -⟩ := h
  exact lastName?_append_name (isAlpha_of_getLast? hnumber hbetween) (mem_unitNames_iff.2 hname)

/-- A text is read as what its parts denote. -/
theorem read?_of_denotes {r : Reading} {d : Distance} (h : r.Denotes d) : read? r.whole = some d := by
  cases r with
  | bare before number after =>
    have hvalue := h.2.1.readFinite? spaces_nil spaces_nil
    rw [List.nil_append, List.append_nil] at hvalue
    rw [read?, trim_bare h, splitUnit_of_lastName?_eq_none (lastName?_bare h)]
    simp [hvalue, ← h.2.2.2]
  | named before number between name after =>
    have hvalue := h.2.1.readFinite? spaces_nil h.2.2.1
    rw [List.nil_append] at hvalue
    rw [read?, trim_named h, splitUnit_of_lastName? (lastName?_named h)]
    simp [hvalue]

theorem exists_reading {cs : List Char} {d : Distance} (h : read? cs = some d) :
    ∃ r : Reading, r.whole = cs ∧ r.Denotes d := by
  obtain ⟨before, after, hcs, hbefore, hafter⟩ := exists_trim cs
  rw [read?] at h
  generalize trim cs = core at hcs h
  rw [splitUnit_eq] at h
  cases hname : lastName? core with
  | none =>
    rw [hname] at h
    obtain ⟨value, hvalue, rfl⟩ := Option.map_eq_some_iff.1 h
    rw [readFinite?_eq_some_iff] at hvalue
    obtain ⟨left, right, hcore, hleft, hright⟩ := exists_trim core
    refine ⟨.bare (before ++ left) (trim core) (right ++ after), ?_,
      List.forall_mem_append.2 ⟨hbefore, hleft⟩, hvalue, List.forall_mem_append.2 ⟨hright, hafter⟩, rfl⟩
    rw [hcs]
    conv_rhs => rw [hcore]
    simp [Reading.whole]
  | some p =>
    rw [hname] at h
    obtain ⟨value, hvalue, rfl⟩ := Option.map_eq_some_iff.1 h
    rw [readFinite?_eq_some_iff] at hvalue
    obtain ⟨hp, number, rfl⟩ := exists_of_lastName? hname
    have htake : (number ++ p.1.toList).take ((number ++ p.1.toList).length - p.1.toList.length) =
        number := by simp
    rw [htake] at hvalue
    obtain ⟨left, right, hnumber, hleft, hright⟩ := exists_trim number
    refine ⟨.named (before ++ left) (trim number) right p.1 after, ?_,
      List.forall_mem_append.2 ⟨hbefore, hleft⟩, hvalue, hright,
      mem_unitNames_iff.1 hp, hafter⟩
    rw [hcs]
    conv_rhs => rw [hnumber]
    simp [Reading.whole]

/-- The white space around a text is what stands around it. -/
theorem eq_of_spaces {core left right left' right' : List Char} (hne : core ≠ [])
    (hfirst : ∀ c ∈ core.head?, isWhiteSpace c = false) (hleft : Spaces left) (hleft' : Spaces left')
    (h : left ++ core ++ right = left' ++ core ++ right') : left = left' ∧ right = right' := by
  obtain ⟨c, rest, rfl⟩ := List.exists_cons_of_ne_nil hne
  have hsolid := hfirst c rfl
  have htake : ∀ {left : List Char} (right : List Char), Spaces left →
      (left ++ (c :: rest) ++ right).takeWhile isWhiteSpace = left := by
    intro left right hleft
    rw [List.append_assoc, List.takeWhile_append_of_pos hleft]
    simp [hsolid]
  obtain rfl : left = left' := by rw [← htake right hleft, h, htake right' hleft']
  simpa using h

theorem bare_eq_of_whole_eq {before number after before' number' after' : List Char} {d d' : Distance}
    (h : (Reading.bare before number after).Denotes d) (h' : (Reading.bare before' number' after').Denotes d')
    (hwhole : (Reading.bare before number after).whole = (Reading.bare before' number' after').whole) :
    Reading.bare before number after = .bare before' number' after' := by
  obtain rfl : number = number' := by rw [← trim_bare h, hwhole, trim_bare h']
  have hsolid : ∀ c ∈ number.head?, isWhiteSpace c = false := fun c hc =>
    h.2.1.solid (List.mem_of_mem_head? hc)
  obtain ⟨rfl, rfl⟩ := eq_of_spaces h.2.1.ends.1 hsolid h.1 h'.1 hwhole
  rfl

theorem named_eq_of_whole_eq {before number between after before' number' between' after' : List Char}
    {name name' : String} {d d' : Distance} (h : (Reading.named before number between name after).Denotes d)
    (h' : (Reading.named before' number' between' name' after').Denotes d')
    (hwhole : (Reading.named before number between name after).whole =
      (Reading.named before' number' between' name' after').whole) :
    Reading.named before number between name after = .named before' number' between' name' after' := by
  have htrim : number ++ between ++ name.toList = number' ++ between' ++ name'.toList := by
    rw [← trim_named h, hwhole, trim_named h']
  have hname := lastName?_named h
  rw [htrim, lastName?_named h'] at hname
  obtain ⟨rfl, -⟩ := Prod.mk.inj (Option.some.inj hname)
  have hfront := List.append_cancel_right htrim
  obtain ⟨hbefore, hnumber, hbetween, -, -⟩ := h
  -- the numbers are what is left of the fronts without the white space behind
  obtain rfl : number = number' := by
    have hleft := hnumber.trim_append spaces_nil hbetween
    have hright := h'.2.1.trim_append spaces_nil h'.2.2.1
    rw [List.nil_append] at hleft hright
    rw [← hleft, hfront, hright]
  obtain rfl := List.append_cancel_left hfront
  have hsolid : ∀ c ∈ (number ++ between ++ name'.toList).head?, isWhiteSpace c = false := by
    intro c hc
    rw [List.append_assoc, List.head?_append_of_ne_nil _ hnumber.ends.1] at hc
    exact hnumber.solid (List.mem_of_mem_head? hc)
  have hne : number ++ between ++ name'.toList ≠ [] := by simp [hnumber.ends.1]
  obtain ⟨rfl, rfl⟩ := eq_of_spaces hne hsolid hbefore h'.1 hwhole
  rfl

/-- A number without a name is not taken for a number with one. -/
theorem bare_whole_ne_named {before number after before' number' between' after' : List Char}
    {name' : String} {d d' : Distance} (h : (Reading.bare before number after).Denotes d)
    (h' : (Reading.named before' number' between' name' after').Denotes d') :
    (Reading.bare before number after).whole ≠ (Reading.named before' number' between' name' after').whole := by
  intro hwhole
  have hname := lastName?_bare h
  rw [← trim_bare h, hwhole, trim_named h', lastName?_named h'] at hname
  cases hname

/-- A text can be taken apart in one way only. -/
theorem eq_of_whole_eq {r r' : Reading} {d d' : Distance} (h : r.Denotes d) (h' : r'.Denotes d')
    (hwhole : r.whole = r'.whole) : r = r' ∧ d = d' := by
  have hd : d = d' := by
    have hread := read?_of_denotes h
    rw [hwhole, read?_of_denotes h'] at hread
    exact (Option.some.inj hread).symm
  refine ⟨?_, hd⟩
  cases r with
  | bare before number after =>
    cases r' with
    | bare before' number' after' => exact bare_eq_of_whole_eq h h' hwhole
    | named before' number' between' name' after' => exact absurd hwhole (bare_whole_ne_named h h')
  | named before number between name after =>
    cases r' with
    | bare before' number' after' => exact absurd hwhole.symm (bare_whole_ne_named h' h)
    | named before' number' between' name' after' => exact named_eq_of_whole_eq h h' hwhole

/-- A finite number with the name of a unit behind it is read as that number of that unit, and without
a name as so many meters, with white space wherever it may stand. Every text that is read as a distance
can be taken apart into such a number and name in one way only, and they denote what is read. -/
theorem read_unambiguous :
    (∀ (number before between after : List Char) (x : Float), IsLiteral number x → Spaces before →
      Spaces between → Spaces after →
      (∀ (u : LengthUnit) name, name ∈ u.names →
        read (String.ofList (before ++ number ++ between ++ name.toList ++ after)) = .ok ⟨x, u⟩) ∧
      read (String.ofList (before ++ number ++ after)) = .ok ⟨x, .meters⟩) ∧
    ∀ text d, read text = .ok d → ∃ r : Reading, r.whole = text.toList ∧ r.Denotes d ∧
      ∀ (r' : Reading) d', r'.whole = text.toList → r'.Denotes d' → r' = r ∧ d' = d := by
  refine ⟨fun number before between after x hnumber hbefore hbetween hafter => ⟨?_, ?_⟩, ?_⟩
  · intro u name hname
    have hread := read?_of_denotes (r := .named before number between name after) (d := ⟨x, u⟩)
      ⟨hbefore, hnumber, hbetween, hname, hafter⟩
    rw [read_eq_ok_iff, String.toList_ofList]
    simpa [Reading.whole] using hread
  · rw [read_eq_ok_iff, String.toList_ofList]
    exact read?_of_denotes (r := .bare before number after) ⟨hbefore, hnumber, hafter, rfl⟩
  · intro text d h
    obtain ⟨r, hwhole, hd⟩ := exists_reading (read_eq_ok_iff.1 h)
    exact ⟨r, hwhole, hd, fun r' d' hwhole' hd' =>
      eq_of_whole_eq hd' hd (hwhole'.trans hwhole.symm)⟩

/-- Nautical miles, two of whose names end in a name of miles. -/
theorem read_unambiguous_nauticalMiles : IsLiteral "-2.5e1".toList (-25.0) ∧
    read " -2.5e1 nmi" = .ok ⟨-25.0, .nauticalMiles⟩ ∧
    read " -2.5e1nauticalmiles" = .ok ⟨-25.0, .nauticalMiles⟩ ∧
    ∃ r : Reading, r.whole = "-2.5e1 mi".toList ∧ r.Denotes ⟨-25.0, .miles⟩ ∧
      ∀ (r' : Reading) d', r'.whole = "-2.5e1 mi".toList → r'.Denotes d' →
        r' = r ∧ d' = ⟨-25.0, .miles⟩ := by
  have hnumber : IsLiteral "-2.5e1".toList (-25.0) := ⟨by decide +kernel, by decide +kernel⟩
  have hspace : Spaces " ".toList := by
    intro c hc
    obtain rfl := List.mem_singleton.1 hc
    decide
  have hread := (read_unambiguous.1 _ " ".toList " ".toList [] _ hnumber hspace hspace spaces_nil).1
  have hdense := (read_unambiguous.1 _ " ".toList [] [] _ hnumber hspace spaces_nil spaces_nil).1
  have hmiles := (read_unambiguous.1 _ [] " ".toList [] _ hnumber spaces_nil hspace spaces_nil).1
    .miles "mi" (by decide)
  exact ⟨hnumber, hread .nauticalMiles "nmi" (by decide), hdense .nauticalMiles "nauticalmiles" (by decide),
    read_unambiguous.2 "-2.5e1 mi" _ hmiles⟩

end OccurrenceQuery.Distance
