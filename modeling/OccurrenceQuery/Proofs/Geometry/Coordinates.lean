/-
The coordinates of accepted geometries. Latitudes lie on the globe and so are finite; a longitude is
whatever its number is rounded to, and a number of many digits is rounded to an infinity.
-/
import OccurrenceQuery.Proofs.Geometry.Wkt.Refusal
import OccurrenceQuery.Proofs.Number.Overflow
import OccurrenceQuery.Validation

namespace OccurrenceQuery.Geometry

open OccurrenceQuery.Text

/-! ## Acceptance -/

theorem checkGeometry_eq_ok_iff {bounded : Bool} {text : String} :
    checkGeometry bounded text = .ok () ↔
      checkOutline text = .ok () ∧ ∃ g, read bounded text = .ok g ∧ checkSearchable g = .ok () := by
  constructor
  · intro h
    obtain ⟨_, houtline, hrest⟩ := bind_eq_ok_iff.1 h
    obtain ⟨found, hfound⟩ := discard_eq_ok_iff.1 hrest
    obtain ⟨g, hread, hsearchable⟩ := bind_eq_ok_iff.1 (mapError_eq_ok_iff.1 hfound)
    obtain ⟨_, hsearch, -⟩ := bind_eq_ok_iff.1 hsearchable
    exact ⟨mapError_eq_ok_iff.1 houtline, g, hread, hsearch⟩
  · rintro ⟨houtline, g, hread, hsearch⟩
    have hfound : readSearchable bounded text = .ok g :=
      bind_eq_ok_iff.2 ⟨g, hread, bind_eq_ok_iff.2 ⟨(), hsearch, rfl⟩⟩
    exact bind_eq_ok_iff.2 ⟨(), mapError_eq_ok_iff.2 houtline,
      discard_eq_ok_iff.2 ⟨g, mapError_eq_ok_iff.2 hfound⟩⟩

theorem read_eq_ok_iff {text : String} {g : Geometry Float} :
    read true text = .ok g ↔ readAny text = .ok g ∧ ∀ p ∈ g.positions, hasLatitude p = true := by
  cases hread : readAny text with
  | error fault => simp [read, hread, bind, Except.bind]
  | ok found =>
    rw [read_of_readAny hread]
    cases hfind : found.positions.find? fun p => !hasLatitude p with
    | none =>
      have hall : ∀ p ∈ found.positions, hasLatitude p = true := by simpa using hfind
      constructor
      · rintro ⟨⟩
        exact ⟨rfl, hall⟩
      · exact fun h => h.1
    | some p =>
      refine iff_of_false (by simp) ?_
      rintro ⟨⟨⟩, hall⟩
      have hoff := List.find?_some hfind
      simp [hall p (List.mem_of_find?_eq_some hfind)] at hoff

/-! ## Latitudes -/

theorem hasLatitude_iff {p : Position Float} : hasLatitude p = true ↔ -90.0 ≤ p.y ∧ p.y ≤ 90.0 := by
  rw [hasLatitude, Bool.and_eq_true, decide_eq_true_eq, decide_eq_true_eq]

theorem isFinite_of_hasLatitude {p : Position Float} (h : hasLatitude p = true) :
    p.y.isFinite = true := by
  obtain ⟨hlow, hhigh⟩ := hasLatitude_iff.1 h
  exact Number.isFinite_of_between (by decide +kernel) (by decide +kernel) hlow hhigh

/-! ## All coordinates -/

namespace Outline

/-- Every position of an outline is written somewhere in its body. -/
theorem IsBody.forall_positions {o : Outline} {cs : List Char} (h : o.IsBody cs) :
    ∀ p ∈ o.positions, ∃ used, p.IsWritten used := by
  intro p hp
  cases o with
  | point q =>
    obtain rfl := List.mem_singleton.1 hp
    obtain ⟨_, inner, _, -, -, -, hinner⟩ := h
    exact ⟨inner, hinner⟩
  | lineString ps => exact IsGroup.forall_form h p hp
  | linearRing ps => exact IsGroup.forall_form h p hp
  | polygon rings =>
    obtain ⟨ring, hring, hp⟩ := List.mem_flatten.1 hp
    obtain ⟨_, hused⟩ := IsGroup.forall_form h ring hring
    exact hused.forall_form p hp
  | multiPolygon polygons =>
    obtain ⟨ring, hring, hp⟩ := List.mem_flatten.1 hp
    obtain ⟨rings, hrings, hring⟩ := List.mem_flatten.1 hring
    obtain ⟨_, hused⟩ := IsGroup.forall_form h rings hrings
    obtain ⟨_, hused⟩ := hused.forall_form ring hring
    exact hused.forall_form p hp

/-- Of the numbers of an outline, those below the bound become finite coordinates, and the others
infinite ones. -/
theorem IsWritten.forall₂_isFinite_iff {o : Outline} {cs : List Char} {g : Geometry Float}
    (h : o.IsWritten cs) (hdenotes : o.Denotes g) :
    List.Forall₂ (fun n x => x.isFinite = true ↔ Number.magnitude n < Number.overflowBound)
      (numerals cs) (g.positions.flatMap fun q => [q.x, q.y]) := by
  have hforms : ∀ p ∈ o.positions, Range.HasDecimalForm p.x ∧ Range.HasDecimalForm p.y := by
    intro p hp
    obtain ⟨_, _, _, _, -, -, -, -, hbody⟩ := h
    obtain ⟨_, _, _, -, -, -, -, hx, hy⟩ := hbody.forall_positions p hp
    exact ⟨hx, hy⟩
  have hpositions := hdenotes.positions
  rw [numerals_of_isWritten h]
  generalize o.positions = ps at hforms hpositions
  generalize g.positions = qs at hpositions
  induction hpositions with
  | nil => exact .nil
  | cons hp _ ih =>
    obtain ⟨hform, hforms⟩ := List.forall_mem_cons.1 hforms
    exact .cons (Number.isFinite_readFloat?_iff hform.1 hp.1)
      (.cons (Number.isFinite_readFloat?_iff hform.2 hp.2) (ih hforms))

end Outline

theorem forall_mem_iff_of_forall₂ {α β : Type} {p : α → Prop} {q : β → Prop} {as : List α}
    {bs : List β} (h : List.Forall₂ (fun a b => q b ↔ p a) as bs) :
    (∀ b ∈ bs, q b) ↔ ∀ a ∈ as, p a := by
  induction h with
  | nil => simp
  | cons hab _ ih => rw [List.forall_mem_cons, List.forall_mem_cons, hab, ih]

/-- Of an accepted geometry, all latitudes lie on the globe and are finite. A coordinate is finite if
and only if the number in its place is below the bound of rounding; so all coordinates are if and only
if all numbers of the text are. -/
theorem coordinates_of_check {text : String} (h : check true .geometry text = .ok ()) :
    ∃ g, read true text = .ok g ∧
      (∀ p ∈ g.positions, (-90.0 ≤ p.y ∧ p.y ≤ 90.0) ∧ p.y.isFinite = true) ∧
      List.Forall₂ (fun n x => x.isFinite = true ↔ Number.magnitude n < Number.overflowBound)
        (Outline.numerals text.toList) (g.positions.flatMap fun p => [p.x, p.y]) ∧
      ((∀ p ∈ g.positions, p.x.isFinite = true ∧ p.y.isFinite = true) ↔
        ∀ n ∈ Outline.numerals text.toList, Number.magnitude n < Number.overflowBound) := by
  obtain ⟨houtline, g, hread, -⟩ := checkGeometry_eq_ok_iff.1 h
  obtain ⟨o, ho⟩ := exists_isWritten houtline
  obtain ⟨hany, hlatitudes⟩ := read_eq_ok_iff.1 hread
  have hcoordinates := ho.forall₂_isFinite_iff (Outline.denotes_of_readAny ho hany)
  refine ⟨g, hread, fun p hp => ?_, hcoordinates, ?_⟩
  · exact ⟨hasLatitude_iff.1 (hlatitudes p hp), isFinite_of_hasLatitude (hlatitudes p hp)⟩
  · rw [← forall_mem_iff_of_forall₂ hcoordinates]
    refine Iff.trans (forall₂_congr fun p _ => ?_) List.forall_mem_flatMap.symm
    simp

/-- A point with short numbers. -/
theorem coordinates_of_check_point :
    check true .geometry "POINT (-190.5 60)" = .ok () ∧
    ∃ g, read true "POINT (-190.5 60)" = .ok g ∧
      (∀ p ∈ g.positions, (-90.0 ≤ p.y ∧ p.y ≤ 90.0) ∧ p.y.isFinite = true) ∧
      List.Forall₂ (fun n x => x.isFinite = true ↔ Number.magnitude n < Number.overflowBound)
        (Outline.numerals "POINT (-190.5 60)".toList) (g.positions.flatMap fun p => [p.x, p.y]) ∧
      ((∀ p ∈ g.positions, p.x.isFinite = true ∧ p.y.isFinite = true) ↔
        ∀ n ∈ Outline.numerals "POINT (-190.5 60)".toList,
          Number.magnitude n < Number.overflowBound) := by
  have hcheck : check true .geometry "POINT (-190.5 60)" = .ok () := by decide +kernel
  exact ⟨hcheck, coordinates_of_check hcheck⟩

theorem isWritten_point {x y : List Char} (hx : Range.HasDecimalForm x)
    (hy : Range.HasDecimalForm y) :
    (Outline.point ⟨x, y⟩).IsWritten ("POINT (".toList ++ x ++ ' ' :: y ++ [')']) := by
  have hkeyword : Outline.Folds (asciiLower "POINT".toList) "POINT".toList := by
    rw [Outline.Folds, show asciiLower "POINT".toList = ['p', 'o', 'i', 'n', 't'] by decide]
    repeat constructor
  have hblank : Spaces [' '] := List.forall_mem_singleton.2 (by decide)
  refine ⟨[], "POINT".toList, [' '] ++ '(' :: (x ++ [' '] ++ y ++ [] ++ [')']), [], by simp,
    spaces_nil, spaces_nil, hkeyword, [' '], x ++ [' '] ++ y, [], rfl, hblank, spaces_nil, ?_⟩
  exact ⟨[], [' '], by simp, spaces_nil, hblank, List.cons_ne_nil _ _, hx, hy⟩

/-- A point with a longitude of 310 digits. -/
def farPoint : String :=
  String.ofList ("POINT (".toList ++ List.replicate 310 '1' ++ [' ', '0'] ++ [')'])

theorem toList_farPoint :
    farPoint.toList = "POINT (".toList ++ List.replicate 310 '1' ++ [' ', '0'] ++ [')'] :=
  String.toList_ofList

/-- Its longitude is past the bound of rounding. -/
theorem overflowBound_le_longitude :
    (Number.overflowBound : ℚ) ≤ Number.magnitude (List.replicate 310 '1') := by
  have hdigits : ∀ c ∈ List.replicate 310 '1', c.isDigit = true := by
    intro c hc
    rw [List.eq_of_mem_replicate hc]
    decide
  exact Number.overflowBound_le_magnitude hdigits (by decide) List.length_replicate.ge

/-- It is accepted, and its longitude is infinite. -/
theorem farPoint_infinite : check true .geometry farPoint = .ok () ∧
    ∃ g, read true farPoint = .ok g ∧ ∃ p ∈ g.positions, p.x.isFinite = false := by
  have hfar : Range.HasDecimalForm (List.replicate 310 '1') :=
    .inl (.inl ⟨mt (List.replicate_eq_nil_iff _).1 (by norm_num),
      fun c hc => by rw [List.eq_of_mem_replicate hc]; decide⟩)
  have hzero : Range.HasDecimalForm ['0'] :=
    .inl (.inl ⟨List.cons_ne_nil _ _, List.forall_mem_singleton.2 (by decide)⟩)
  have houtline : checkOutline farPoint = .ok () := by
    unfold checkOutline
    rw [toList_farPoint]
    decide +kernel
  have hplain : Wkt.Plain (trim farPoint.toList) := by
    rw [toList_farPoint]
    exact List.forall_iff_forall_mem.1 (by decide +kernel)
  have hwritten := isWritten_point hfar hzero
  rw [← toList_farPoint] at hwritten
  obtain ⟨g, hany, hdenotes⟩ := Outline.exists_readAny hwritten hplain
  obtain ⟨q, rfl, hx, hy⟩ : ∃ q, g = .point q ∧
      Number.readFloat? (List.replicate 310 '1') = some q.x ∧
      Number.readFloat? ['0'] = some q.y := by
    cases g with
    | point q => exact ⟨q, rfl, hdenotes⟩
    | _ => exact hdenotes.elim
  have hlatitude : hasLatitude q = true := by
    have hequator : Number.readFloat? ['0'] = some 0.0 := by rfl
    rw [hequator] at hy
    rw [hasLatitude, ← Option.some.inj hy]
    decide +kernel
  have hread : read true farPoint = .ok (.point q) :=
    read_eq_ok_iff.2 ⟨hany, List.forall_mem_singleton.2 hlatitude⟩
  refine ⟨checkGeometry_eq_ok_iff.2 ⟨houtline, _, hread, rfl⟩, _, hread, q, List.mem_cons_self, ?_⟩
  rw [Bool.eq_false_iff, Ne, Number.isFinite_readFloat?_iff hfar hx]
  exact overflowBound_le_longitude.not_gt

end OccurrenceQuery.Geometry
