/-
Distances and circles survive their text. The symbol of a unit stands right behind the number, and the
parts of a circle are cut at their commas, so that all numbers come back as they were and the checks of
the text and of what it is written as agree.
-/
import OccurrenceQuery.Proofs.Distance.Unit
import OccurrenceQuery.Proofs.Number.ReadBack

namespace OccurrenceQuery

open OccurrenceQuery.Text OccurrenceQuery.Number

namespace Distance

/-- A distance is written as its number and the symbol of its unit, without white space. -/
theorem toList_text (d : Distance) :
    d.text.toList = (Number.text d.value).toList ++ d.unit.symbol.toList := by
  rw [text, String.toList_append]

theorem read?_text {d : Distance} (h : d.value.isFinite = true) {left : List Char}
    (hleft : Spaces left) : read? (left ++ d.text.toList) = some d := by
  have hread := @read?_of_denotes (.named left (Number.text d.value).toList [] d.unit.symbol []) d
    ⟨hleft, isLiteral_text h, spaces_nil, List.mem_cons_self, spaces_nil⟩
  rwa [Reading.whole, List.append_nil, List.append_nil, ← toList_text] at hread

theorem read_text {d : Distance} (h : d.value.isFinite = true) : read d.text = .ok d := by
  have hread := read?_text h spaces_nil
  rw [List.nil_append] at hread
  exact read_eq_ok_iff.2 hread

theorem isFinite_of_read? {cs : List Char} {d : Distance} (h : read? cs = some d) :
    d.value.isFinite = true := by
  obtain ⟨value, hvalue, rfl⟩ := Option.map_eq_some_iff.1 h
  exact (readFinite?_eq_some_iff.1 hvalue).2

theorem comma_not_mem_number {cs : List Char} {x : Float} (h : IsLiteral cs x) : ',' ∉ cs := fun hmem =>
  absurd (isNumberLetter_of_readFloat? h.1 hmem) (by decide)

theorem comma_not_mem_text {d : Distance} (h : d.value.isFinite = true) : ',' ∉ d.text.toList := by
  rw [toList_text, List.mem_append, not_or]
  refine ⟨comma_not_mem_number (isLiteral_text h), ?_⟩
  cases d.unit <;> decide

end Distance

namespace Circle

theorem readCoordinate_eq_ok_iff {cs : List Char} {x : Float} :
    readCoordinate cs = .ok x ↔ readFinite? cs = some x := by
  unfold readCoordinate
  split <;> rename_i h <;> simp [h]

theorem trim_ne_nil_of_comma {cs : List Char} (h : ',' ∈ cs) : (trim cs).isEmpty = false := by
  rw [List.isEmpty_eq_false_iff]
  exact List.ne_nil_of_mem (mem_trim_of_mem (by decide) h)

/-- A text is read as a circle when it has three parts, two numbers and a distance. -/
theorem read_eq_ok_iff {text : String} {c : Circle} : read text = .ok c ↔
    ∃ latitude longitude radius, splitAll ',' text.toList = [latitude, longitude, radius] ∧
      readFinite? latitude = some c.latitude ∧ readFinite? longitude = some c.longitude ∧
      Distance.read? radius = some c.radius := by
  constructor
  · intro h
    unfold read at h
    split at h
    · cases h
    split at h
    · rename_i hsplit
      obtain ⟨latitude, rest, hparts, rfl, hrest⟩ := List.map_eq_cons_iff.1 hsplit
      obtain ⟨longitude, rest', rfl, rfl, hrest'⟩ := List.map_eq_cons_iff.1 hrest
      obtain ⟨radius, last, rfl, rfl, hlast⟩ := List.map_eq_cons_iff.1 hrest'
      obtain rfl := List.map_eq_nil_iff.1 hlast
      simp only [bind_eq_ok_iff, readCoordinate_eq_ok_iff, readFinite?_trim, Distance.read_eq_ok_iff,
        String.toList_ofList, Distance.read?_trim] at h
      obtain ⟨x, hx, y, hy, r, hr, hc⟩ := h
      obtain rfl := Except.ok.inj hc
      exact ⟨latitude, longitude, radius, hparts, hx, hy, hr⟩
    · cases h
  · rintro ⟨latitude, longitude, radius, hparts, hx, hy, hr⟩
    have hcomma : ',' ∈ text.toList := by
      by_contra hfree
      rw [splitAll_eq_singleton hfree] at hparts
      simp at hparts
    unfold read
    rw [trim_ne_nil_of_comma hcomma, if_neg Bool.false_ne_true, hparts]
    simp only [List.map_cons, List.map_nil, bind_eq_ok_iff, readCoordinate_eq_ok_iff, readFinite?_trim,
      Distance.read_eq_ok_iff, String.toList_ofList, Distance.read?_trim]
    exact ⟨_, hx, _, hy, _, hr, rfl⟩

theorem isFinite_of_read {text : String} {c : Circle} (h : read text = .ok c) :
    c.latitude.isFinite = true ∧ c.longitude.isFinite = true ∧ c.radius.value.isFinite = true := by
  obtain ⟨latitude, longitude, radius, -, hlatitude, hlongitude, hradius⟩ := read_eq_ok_iff.1 h
  exact ⟨(readFinite?_eq_some_iff.1 hlatitude).2, (readFinite?_eq_some_iff.1 hlongitude).2,
    Distance.isFinite_of_read? hradius⟩

/-- The parts of a written circle, a blank in front of the second and the third one. -/
theorem splitAll_text {c : Circle} (hlatitude : c.latitude.isFinite = true)
    (hlongitude : c.longitude.isFinite = true) (hradius : c.radius.value.isFinite = true) :
    splitAll ',' c.text.toList = [(Number.text c.latitude).toList, ' ' :: (Number.text c.longitude).toList,
      ' ' :: c.radius.text.toList] := by
  have htext : c.text.toList = (Number.text c.latitude).toList ++ ',' ::
      (' ' :: (Number.text c.longitude).toList ++ ',' :: (' ' :: c.radius.text.toList)) := by
    simp [text]
  have hblank : ∀ {cs : List Char}, ',' ∉ cs → ',' ∉ ' ' :: cs := fun h => by simp [h]
  rw [htext, splitAll_append (Distance.comma_not_mem_number (isLiteral_text hlatitude)),
    splitAll_append (hblank (Distance.comma_not_mem_number (isLiteral_text hlongitude))),
    splitAll_eq_singleton (hblank (Distance.comma_not_mem_text hradius))]

theorem read_text {c : Circle} (hlatitude : c.latitude.isFinite = true)
    (hlongitude : c.longitude.isFinite = true) (hradius : c.radius.value.isFinite = true) :
    read c.text = .ok c := by
  have hblank : Spaces [' '] := List.forall_mem_singleton.2 rfl
  have hx := (isLiteral_text hlatitude).readFinite? spaces_nil spaces_nil
  have hy := (isLiteral_text hlongitude).readFinite? hblank spaces_nil
  have hr := Distance.read?_text hradius hblank
  rw [List.nil_append, List.append_nil] at hx
  rw [List.append_nil] at hy
  exact read_eq_ok_iff.2 ⟨_, _, _, splitAll_text hlatitude hlongitude hradius, hx, hy, hr⟩

/-- The checks see the circle that is read, and nothing else of the text. -/
theorem readOnGlobe_congr {text text' : String} (h : read text = read text') :
    readOnGlobe text = readOnGlobe text' := by
  unfold readOnGlobe
  rw [h]

/-- A distance with a finite number is read back from its text, and a circle that some text denotes from
what it is written as. The checks see no difference between a text and what it is written as. -/
theorem read_rendered :
    (∀ d : Distance, d.value.isFinite = true → Distance.read d.text = .ok d) ∧
    (∀ text d, Distance.read text = .ok d → ∀ d',
      Distance.readPositive d.text = .ok d' ↔ Distance.readPositive text = .ok d') ∧
    ∀ text c, read text = .ok c → read c.text = .ok c ∧ readOnGlobe c.text = readOnGlobe text := by
  refine ⟨fun d h => Distance.read_text h, fun text d h d' => ?_, fun text c h => ?_⟩
  · have hread := Distance.read_eq_ok_iff.1 h
    have hback := Distance.read_eq_ok_iff.1 (Distance.read_text (Distance.isFinite_of_read? hread))
    rw [Distance.readPositive_eq_ok_iff, Distance.readPositive_eq_ok_iff, Distance.IsPositive,
      Distance.IsPositive, hread, hback]
  · obtain ⟨hlatitude, hlongitude, hradius⟩ := isFinite_of_read h
    have hback := read_text hlatitude hlongitude hradius
    exact ⟨hback, readOnGlobe_congr (hback.trans h.symm)⟩

/-- A zero keeps its sign, and signs, exponents and white space of the original text do not matter. -/
theorem read_rendered_signs :
    Distance.read (Distance.text ⟨-0.0, .nauticalMiles⟩) = .ok ⟨-0.0, .nauticalMiles⟩ ∧
    (Distance.readPositive (Distance.text ⟨0.5, .miles⟩) = .ok ⟨0.5, .miles⟩ ↔
      Distance.readPositive " +5e-1 miles" = .ok ⟨0.5, .miles⟩) ∧
    read " +4.02e1,-0 ,.5E-3 nmi" = .ok ⟨40.2, -0.0, 0.0005, .nauticalMiles⟩ ∧
    read (text ⟨40.2, -0.0, 0.0005, .nauticalMiles⟩) = .ok ⟨40.2, -0.0, 0.0005, .nauticalMiles⟩ := by
  have hmiles : Distance.read " +5e-1 miles" = .ok ⟨0.5, .miles⟩ := rfl
  have hcircle : read " +4.02e1,-0 ,.5E-3 nmi" = .ok ⟨40.2, -0.0, 0.0005, .nauticalMiles⟩ := rfl
  exact ⟨read_rendered.1 _ (by decide +kernel), read_rendered.2.1 _ _ hmiles _, hcircle,
    (read_rendered.2.2 _ _ hcircle).1⟩

end Circle

end OccurrenceQuery
