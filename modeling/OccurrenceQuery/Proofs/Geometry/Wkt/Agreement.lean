/-
The outline check and the reader agree. A plain text that is written in the outline grammar is read as
the geometry that its outline denotes, with the numbers of the text as the coordinates, in their order;
and what is read after the keyword of an outline is plain.
-/
import OccurrenceQuery.Proofs.Geometry.Wkt.Shape
import OccurrenceQuery.Proofs.Rejection

namespace OccurrenceQuery.Geometry

open OccurrenceQuery.Text

/-! ## Lists that are written -/

namespace Outline

variable {β : Type} {form : Form β}

theorem IsSeparated.forall_form {bs : List β} {cs : List Char} (h : IsSeparated form bs cs) :
    ∀ b ∈ bs, ∃ used, form b used := by
  induction h with
  | single hb => exact List.forall_mem_singleton.2 ⟨_, hb⟩
  | cons hb _ _ ih => exact List.forall_mem_cons.2 ⟨⟨_, hb⟩, ih⟩

theorem IsGroup.forall_form {bs : List β} {cs : List Char} (h : IsGroup form bs cs) :
    ∀ b ∈ bs, ∃ used, form b used := by
  obtain ⟨_, _, _, -, -, -, hinner⟩ := h
  exact hinner.forall_form

theorem IsGroup.exists_cons {bs : List β} {cs : List Char} (h : IsGroup form bs cs) :
    ∃ b others, bs = b :: others := by
  obtain ⟨_, _, _, -, -, -, hinner⟩ := h
  exact List.exists_cons_of_ne_nil (List.length_pos_iff.1 hinner.length_pos)

end Outline

/-- Polygons with a shell have the rings they are made of. -/
theorem map_rings_ofRings {β : Type} {denotes : β → Ring Float → Prop} {polygons : List (List β)}
    {members : List (List (Ring Float))}
    (h : List.Forall₂ (List.Forall₂ denotes) polygons members) (hne : ∀ b ∈ polygons, b ≠ []) :
    (members.map Polygon.ofRings).map Polygon.rings = members := by
  induction h with
  | nil => rfl
  | @cons b member _ _ hb _ ih =>
    obtain ⟨hfirst, hothers⟩ := List.forall_mem_cons.1 hne
    rw [List.map_cons, List.map_cons, ih hothers]
    cases hb with
    | nil => exact absurd rfl hfirst
    | cons _ _ => rfl

/-! ## From shapes to geometries -/

/-- The geometry that a shape that was read becomes; a line string becomes a ring if it is one. -/
def finish (isRing : Bool) (shape : Wkt.Shape) : Except Fault (Geometry Float) := do
  let some found := shape.geometry? | throw .empty
  let found := match found with
    | .lineString ps => if isRing then .linearRing ps else found
    | _ => found
  if found.isEmpty then throw .empty
  return found

namespace Outline

/-- Whether an outline is that of a linear ring. -/
def isRing (o : Outline) : Bool := o.kind == .linearRing

/-- The keyword that is read for an outline. A linear ring is read as a line string. -/
def shapeKeyword (o : Outline) : List Char :=
  if o.isRing then "LINESTRING".toList else o.kind.keyword.toList

/-- A written outline is read as its keyword and its body. -/
theorem readAny_eq {o : Outline} {text : String} {word body : List Char}
    (htrim : trim text.toList = word ++ body) (hword : asciiUpper word = o.kind.keyword.toList)
    (hbody : o.IsBody body) :
    readAny text =
      (Wkt.read (o.shapeKeyword ++ body)).mapError .unreadable >>= finish o.isRing := by
  have hupper : asciiUpper (trim text.toList) = o.kind.keyword.toList ++ body := by
    rw [htrim, asciiUpper_append, hword, asciiUpper_body hbody]
  have hring : dropLeading? "LINEARRING".toList (o.kind.keyword.toList ++ body) =
      if o.isRing then some body else none := by
    cases o <;> simp [dropLeading?, Kind.keyword, kind, isRing]
  unfold readAny
  rw [hupper]
  dsimp only
  rw [hring]
  cases o <;> rfl

/-- The body of an outline as it is read. -/
theorem exists_finish {o : Outline} {body : List Char} (hbody : o.IsBody body)
    (hplain : Wkt.Plain body) :
    ∃ shape g, Wkt.read (o.shapeKeyword ++ body) = .ok shape ∧ finish o.isRing shape = .ok g ∧
      o.Denotes g := by
  cases o with
  | point p =>
    obtain ⟨v, hread, a, rfl, hdenotes⟩ := Wkt.exists_read Wkt.isKeyword_point
      (Wkt.reads_position.inside.map_some.enclosed none) hbody hplain
    exact ⟨_, .point a, hread, rfl, hdenotes⟩
  | lineString ps =>
    obtain ⟨v, hread, hdenotes⟩ :=
      Wkt.exists_read Wkt.isKeyword_lineString Wkt.reads_position.group hbody hplain
    obtain ⟨p, others, rfl⟩ := hbody.exists_cons
    cases hdenotes with
    | cons hp hothers => exact ⟨_, .lineString _, hread, rfl, .cons hp hothers⟩
  | linearRing ps =>
    obtain ⟨v, hread, hdenotes⟩ :=
      Wkt.exists_read Wkt.isKeyword_lineString Wkt.reads_position.group hbody hplain
    obtain ⟨p, others, rfl⟩ := hbody.exists_cons
    cases hdenotes with
    | cons hp hothers => exact ⟨_, .linearRing _, hread, rfl, .cons hp hothers⟩
  | polygon rings =>
    obtain ⟨v, hread, hdenotes⟩ :=
      Wkt.exists_read Wkt.isKeyword_polygon Wkt.reads_position.group.group hbody hplain
    obtain ⟨shell, holes, rfl⟩ := hbody.exists_cons
    obtain ⟨used, hshell⟩ := hbody.forall_form shell List.mem_cons_self
    obtain ⟨p, ps, rfl⟩ := hshell.exists_cons
    cases hdenotes with
    | cons hring hholes =>
      cases hring with
      | cons hp hps => exact ⟨_, .polygon _, hread, rfl, .cons (.cons hp hps) hholes⟩
  | multiPolygon polygons =>
    obtain ⟨v, hread, hdenotes⟩ :=
      Wkt.exists_read Wkt.isKeyword_multiPolygon Wkt.reads_position.group.group.group hbody hplain
    have hrings := map_rings_ofRings hdenotes fun b hb => by
      obtain ⟨used, hrings⟩ := hbody.forall_form b hb
      obtain ⟨ring, others, rfl⟩ := hrings.exists_cons
      exact List.cons_ne_nil ring others
    refine ⟨_, .multiPolygon (v.map Polygon.ofRings), hread, ?_, by rwa [← hrings] at hdenotes⟩
    obtain ⟨member, members, rfl⟩ := hbody.exists_cons
    obtain ⟨used, hmember⟩ := hbody.forall_form member List.mem_cons_self
    obtain ⟨shell, holes, rfl⟩ := hmember.exists_cons
    obtain ⟨used', hshell⟩ := hmember.forall_form shell List.mem_cons_self
    obtain ⟨p, ps, rfl⟩ := hshell.exists_cons
    cases hdenotes with
    | cons hpolygon _ =>
      cases hpolygon with
      | cons hring _ =>
        cases hring with
        | cons _ _ => rfl

/-- What follows the keyword of an outline that is read is plain. -/
theorem plain_of_read {o : Outline} {body : List Char} {shape : Wkt.Shape} (hbody : o.IsBody body)
    (h : Wkt.read (o.shapeKeyword ++ body) = .ok shape) : Wkt.Plain body := by
  cases o with
  | point p =>
    exact Wkt.plain_of_read Wkt.isKeyword_point
      (Wkt.reads_position.inside.map_some.enclosed none) hbody h
  | lineString ps =>
    exact Wkt.plain_of_read Wkt.isKeyword_lineString Wkt.reads_position.group hbody h
  | linearRing ps =>
    exact Wkt.plain_of_read Wkt.isKeyword_lineString Wkt.reads_position.group hbody h
  | polygon rings =>
    exact Wkt.plain_of_read Wkt.isKeyword_polygon Wkt.reads_position.group.group hbody h
  | multiPolygon polygons =>
    exact Wkt.plain_of_read Wkt.isKeyword_multiPolygon Wkt.reads_position.group.group.group hbody h

/-! ## Texts -/

theorem IsEnclosed.exists_concat {b : β} {cs : List Char} (h : IsEnclosed form b cs) :
    ∃ rest, cs = rest ++ [')'] := by
  obtain ⟨left, inner, right, rfl, -⟩ := h
  exact ⟨left ++ '(' :: (inner ++ right), by simp⟩

theorem IsBody.exists_concat {o : Outline} {cs : List Char} (h : o.IsBody cs) :
    ∃ rest, cs = rest ++ [')'] := by
  cases o <;> exact IsEnclosed.exists_concat h

theorem Folds.exists_cons {kind : Kind} {word : List Char}
    (h : Folds (asciiLower kind.keyword.toList) word) : ∃ c cs, word = c :: cs := by
  refine List.exists_cons_of_ne_nil fun hnil => ?_
  have hlength : (asciiLower kind.keyword.toList).length = word.length := List.Forall₂.length_eq h
  rw [hnil] at hlength
  cases kind <;> exact absurd hlength (by decide)

/-- A text is written as its keyword and its body, and white space around them is no part of it. -/
theorem IsWritten.exists_trim {o : Outline} {cs : List Char} (h : o.IsWritten cs) :
    ∃ word body, trim cs = word ++ body ∧ Folds (asciiLower o.kind.keyword.toList) word ∧
      o.IsBody body := by
  obtain ⟨left, word, body, right, rfl, hleft, hright, hword, hbody⟩ := h
  have htext : left ++ word ++ body ++ right = left ++ (word ++ body) ++ right := by simp
  refine ⟨word, body, ?_, hword, hbody⟩
  rw [htext]
  obtain ⟨c, cs, rfl⟩ := hword.exists_cons
  obtain ⟨rest, rfl⟩ := hbody.exists_concat
  refine trim_append hleft hright (List.cons_ne_nil _ _) ?_ ?_
  · rintro d ⟨⟩
    exact isWhiteSpace_of_isAlpha (isAlpha_of_folds hword List.mem_cons_self)
  · intro d hd
    rw [← List.append_assoc, List.getLast?_concat] at hd
    cases hd
    decide

/-- A plain text of an outline is read as the geometry that the outline denotes. -/
theorem exists_readAny {o : Outline} {text : String} (h : o.IsWritten text.toList)
    (hplain : Wkt.Plain (trim text.toList)) : ∃ g, readAny text = .ok g ∧ o.Denotes g := by
  obtain ⟨word, body, htrim, hword, hbody⟩ := h.exists_trim
  rw [htrim] at hplain
  obtain ⟨hplainWord, hplainBody⟩ := Wkt.plain_append_iff.1 hplain
  have hlong : 'ſ' ∉ word := fun hc => absurd (hplainWord 'ſ' hc) (by decide)
  obtain ⟨shape, g, hread, hfinish, hdenotes⟩ := exists_finish hbody hplainBody
  refine ⟨g, ?_, hdenotes⟩
  rw [readAny_eq htrim (asciiUpper_keyword hword hlong) hbody, hread]
  exact hfinish

end Outline

/-! ## Agreement -/

theorem read_eq_readAny (text : String) : read false text = readAny text := by
  unfold read
  cases readAny text <;> rfl

/-- Of a geometry that is read only the latitudes are checked. -/
theorem read_of_readAny {text : String} {g : Geometry Float} (hread : readAny text = .ok g) :
    read true text = match g.positions.find? fun p => !hasLatitude p with
      | some p => .error (.outOfBounds p)
      | none => .ok g := by
  unfold read
  rw [hread]
  simp only [bind, Except.bind]
  cases g.positions.find? fun p => !hasLatitude p <;> rfl

/-- The only complaint about a geometry that is read is about a position off the globe. -/
theorem exists_of_read_eq_error {text : String} {g : Geometry Float} {fault : Fault}
    (hread : readAny text = .ok g) (h : read true text = .error fault) :
    ∃ p ∈ g.positions, hasLatitude p = false ∧ fault = .outOfBounds p := by
  rw [read_of_readAny hread] at h
  split at h
  · rename_i p hfind
    cases h
    exact ⟨p, List.mem_of_find?_eq_some hfind, by simpa using List.find?_some hfind, rfl⟩
  · cases h

/-- The numbers of texts of positions are read as the coordinates of the positions. -/
theorem map_readFloat? {ps : List PositionText} {qs : List (Position Float)}
    (h : List.Forall₂ PositionText.Denotes ps qs) :
    (ps.flatMap fun p => [p.x, p.y]).map Number.readFloat? =
      qs.flatMap fun q => [some q.x, some q.y] := by
  induction h with
  | nil => rfl
  | cons hp _ ih =>
    rw [List.flatMap_cons, List.flatMap_cons, List.map_append, ih, List.map_cons, List.map_cons,
      hp.1, hp.2]
    rfl

theorem exists_isWritten {text : String} (h : checkOutline text = .ok ()) :
    ∃ o : Outline, o.IsWritten text.toList := by
  unfold checkOutline at h
  split at h
  · cases h
  split at h
  · rename_i hsome
    obtain ⟨o, hread⟩ := Option.isSome_iff_exists.1 hsome
    exact ⟨o, Outline.isWritten_of_read? hread⟩
  · cases h

/-- A plain text that passes the outline check is read. What is read is the geometry that the outline
denotes: it is of the kind of the keyword, and its coordinates are the numbers of the text in their
order and grouping. When latitudes are checked, only they can be refused. -/
theorem read_of_checkOutline {text : String} (hplain : Wkt.Plain text.toList)
    (h : checkOutline text = .ok ()) :
    ∃ o g, Outline.IsWritten o text.toList ∧ read false text = .ok g ∧ o.Denotes g ∧
      g.kind = o.kind ∧
      (Outline.numerals text.toList).map Number.readFloat? =
        g.positions.flatMap (fun q => [some q.x, some q.y]) ∧
      ∀ fault, read true text = .error fault →
        ∃ p ∈ g.positions, hasLatitude p = false ∧ fault = .outOfBounds p := by
  obtain ⟨o, ho⟩ := exists_isWritten h
  obtain ⟨g, hread, hdenotes⟩ := Outline.exists_readAny ho fun c hc => hplain c (mem_of_mem_trim hc)
  refine ⟨o, g, ho, (read_eq_readAny text).trans hread, hdenotes, hdenotes.kind_eq, ?_,
    fun fault => exists_of_read_eq_error hread⟩
  rw [Outline.numerals_of_isWritten ho, map_readFloat? hdenotes.positions]

/-- A ring with a keyword in lower case and blanks wherever they can stand. -/
theorem read_of_checkOutline_ring :
    Wkt.Plain "linearring ( 0 0,10 -0.5 ,\t10 10,0 0 )\n".toList ∧
    checkOutline "linearring ( 0 0,10 -0.5 ,\t10 10,0 0 )\n" = .ok () ∧
    ∃ o g, Outline.IsWritten o "linearring ( 0 0,10 -0.5 ,\t10 10,0 0 )\n".toList ∧
      read false "linearring ( 0 0,10 -0.5 ,\t10 10,0 0 )\n" = .ok g ∧ o.Denotes g ∧
      g.kind = o.kind ∧
      (Outline.numerals "linearring ( 0 0,10 -0.5 ,\t10 10,0 0 )\n".toList).map Number.readFloat? =
        g.positions.flatMap (fun q => [some q.x, some q.y]) ∧
      ∀ fault, read true "linearring ( 0 0,10 -0.5 ,\t10 10,0 0 )\n" = .error fault →
        ∃ p ∈ g.positions, hasLatitude p = false ∧ fault = .outOfBounds p := by
  have hplain : Wkt.Plain "linearring ( 0 0,10 -0.5 ,\t10 10,0 0 )\n".toList :=
    List.forall_iff_forall_mem.1 (by decide)
  have hcheck : checkOutline "linearring ( 0 0,10 -0.5 ,\t10 10,0 0 )\n" = .ok () := by rfl
  exact ⟨hplain, hcheck, read_of_checkOutline hplain hcheck⟩

end OccurrenceQuery.Geometry
