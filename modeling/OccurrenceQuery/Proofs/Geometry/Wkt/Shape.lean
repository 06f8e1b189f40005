/-
Reading a keyword and its body. A text that is written in the outline grammar is read as the shape that
its keyword names if its body is plain, and is refused otherwise.
-/
import OccurrenceQuery.Proofs.Geometry.Wkt.Reader
import OccurrenceQuery.Proofs.Geometry.Wkt.UpperCase

namespace OccurrenceQuery.Geometry.Wkt

open OccurrenceQuery.Text

/-! ## Keywords and dimensions -/

section

variable {ls rest : List Lexeme} {letters : List Char} {c : Char}

theorem not_isWhiteSpace_mark {mark : String} {d : Dimension} (h : (mark, d) ∈ dimensionMarks) :
    ∀ c ∈ asciiLower mark.toList, isWhiteSpace c = false := by
  simp only [dimensionMarks, List.mem_cons, Prod.mk.injEq, List.not_mem_nil, or_false] at h
  rcases h with ⟨rfl, -⟩ | ⟨rfl, -⟩ | ⟨rfl, -⟩ <;> exact List.forall_iff_forall_mem.1 (by decide)

theorem not_isWhiteSpace_keyword (kind : Kind) :
    ∀ c ∈ asciiLower kind.keyword.toList, isWhiteSpace c = false := by
  cases kind <;> exact List.forall_iff_forall_mem.1 (by decide)

/-- A word with white space in it is no keyword. -/
theorem keyword?_eq_none (hc : isWhiteSpace c = true) (hmem : c ∈ letters) :
    keyword? letters = none := by
  have hring := isWord_eq_false (not_isWhiteSpace_keyword .linearRing) hc hmem
  unfold keyword?
  rw [if_neg (by simp [hring]), List.findSome?_eq_none_iff]
  intro kind _
  rw [if_neg (by simp [isWord_eq_false (not_isWhiteSpace_keyword kind) hc hmem]),
    List.findSome?_eq_none_iff]
  rintro ⟨mark, d⟩ hmark
  have hname : ∀ e ∈ asciiLower (kind.keyword ++ mark).toList, isWhiteSpace e = false := by
    rw [String.toList_append, asciiLower, List.map_append]
    exact List.forall_mem_append.2 ⟨not_isWhiteSpace_keyword kind, not_isWhiteSpace_mark hmark⟩
  simp [isWord_eq_false hname hc hmem]

theorem markedDimension?_eq_none (hc : isWhiteSpace c = true) (hmem : c ∈ letters) :
    markedDimension? letters = none := by
  rw [markedDimension?, List.findSome?_eq_none_iff]
  rintro ⟨mark, d⟩ hmark
  simp [isWord_eq_false (not_isWhiteSpace_mark hmark) hc hmem]

theorem takes_dimension_opening_iff {d : Dimension} :
    Takes dimension (.opening :: ls) d rest ↔ d = .xy ∧ rest = .opening :: ls := by
  have hrun : outcome dimension (.opening :: ls) = (.ok .xy, .opening :: ls) := rfl
  rw [Takes, hrun]
  simp [eq_comm]

theorem not_takes_dimension_word {d : Dimension} (hc : isWhiteSpace c = true) (hmem : c ∈ letters) :
    ¬ Takes dimension (.word letters :: ls) d rest := by
  have hpeek : Takes peek (.word letters :: ls) (some (.word letters)) (.word letters :: ls) := rfl
  unfold dimension
  rw [takes_bind_iff]
  rintro ⟨l, mid, hl, htakes⟩
  obtain ⟨rfl, rfl⟩ := hpeek.unique hl
  dsimp only at htakes
  rw [markedDimension?_eq_none hc hmem] at htakes
  dsimp only at htakes
  rw [isWord_eq_false (List.forall_iff_forall_mem.1 (by decide)) hc hmem] at htakes
  exact not_takes_throw htakes

theorem takes_firstShape_iff {s : Shape} :
    Takes firstShape (.word letters :: ls) s rest ↔
      (∀ c ∈ letters, c.toNat < 0x80) ∧ Takes (shape (ls.length + 1) letters) ls s rest := by
  have hrun : outcome firstShape (.word letters :: ls) =
      outcome (if letters.all fun c => decide (c.toNat < 0x80) then do
        shape ((← get).length + 1) letters
        else throw .nonAsciiWord) ls := rfl
  have hascii : (letters.all fun c => decide (c.toNat < 0x80)) = true ↔
      ∀ c ∈ letters, c.toNat < 0x80 := by simp
  rw [Takes, hrun, ← hascii]
  cases letters.all fun c => decide (c.toNat < 0x80) with
  | true => exact ⟨fun h => ⟨rfl, h⟩, fun h => h.2⟩
  | false =>
    simp only [Bool.false_eq_true, false_and, iff_false]
    exact not_takes_throw

theorem read_eq_ok_iff {cs : List Char} {s : Shape} :
    read cs = .ok s ↔ ∃ rest, Takes firstShape (lexemes cs) s rest := by
  have hread : read cs = (outcome firstShape (lexemes cs)).1 := rfl
  rw [hread]
  constructor
  · intro h
    exact ⟨_, Prod.ext h rfl⟩
  · rintro ⟨rest, h⟩
    rw [show outcome firstShape (lexemes cs) = (.ok s, rest) from h]

theorem not_takes_shape {limit : Nat} {s : Shape} (h : keyword? letters = none) :
    ¬ Takes (shape limit letters) ls s rest := by
  cases limit with
  | zero => exact not_takes_throw
  | succ limit =>
    have hshape : shape (limit + 1) letters = throw .unknownKeyword := by
      simp [shape, h]
    rw [hshape]
    exact not_takes_throw

end

/-- A keyword stands for the shapes that are made of what a reader takes. -/
structure IsKeyword {γ : Type} (letters : List Char) (reader : Dimension → Reader γ)
    (make : γ → Shape) : Prop where
  ne_nil : letters ≠ []
  isAlpha : ∀ c ∈ letters, c.isAlpha = true
  shape_eq : ∀ limit, shape (limit + 1) letters = dimension >>= fun d => make <$> reader d

theorem isKeyword_point : IsKeyword "POINT".toList
    (fun d => body none (some <$> position d)) .point :=
  ⟨by decide, List.forall_iff_forall_mem.1 (by decide), fun _ => rfl⟩

theorem isKeyword_lineString : IsKeyword "LINESTRING".toList
    (fun d => body [] (line d)) .lineString :=
  ⟨by decide, List.forall_iff_forall_mem.1 (by decide), fun _ => rfl⟩

theorem isKeyword_polygon : IsKeyword "POLYGON".toList
    (fun d => body [] (lines d)) .polygon :=
  ⟨by decide, List.forall_iff_forall_mem.1 (by decide), fun _ => rfl⟩

theorem isKeyword_multiPolygon : IsKeyword "MULTIPOLYGON".toList
    (fun d => body [] (polygons d)) .multiPolygon :=
  ⟨by decide, List.forall_iff_forall_mem.1 (by decide), fun _ => rfl⟩

/-! ## Shapes -/

section

variable {β γ : Type} {letters : List Char} {reader : Dimension → Reader γ} {make : γ → Shape}
  {form : Outline.Form β} {denotes : β → γ → Prop}

theorem ofText_of_isAlpha {c : Char} (hc : c.isAlpha = true) (cs : List Char) :
    Lexeme.ofText c cs = .word (c :: cs) := by
  have hstart : startsNumber c = false := by
    rw [Bool.eq_false_iff]
    intro hstart
    simp only [startsNumber, Bool.or_eq_true, beq_iff_eq] at hstart
    rcases hstart with ((rfl | rfl) | rfl) | hdigit
    · exact absurd hc (by decide)
    · exact absurd hc (by decide)
    · exact absurd hc (by decide)
    · rw [isDigit_of_isAlpha hc] at hdigit
      cases hdigit
  rw [Lexeme.ofText, if_neg (by simp [hstart])]

theorem continues_of_isAlpha {c : Char} (hc : c.isAlpha = true) : continues c = true :=
  continues_of_forall Char.isAlpha (List.forall_iff_forall_mem.1 (by decide)) hc

/-- The first lexeme of a text that begins with a letter is the word that goes on up to the next mark
or blank. -/
theorem lexemes_word {c : Char} {cs : List Char} (hc : c.isAlpha = true)
    (hcs : ∀ d ∈ cs, continues d = true) (rest : List Char) :
    lexemes (c :: cs ++ rest) =
      .word (c :: cs ++ rest.takeWhile continues) :: lexemes (rest.dropWhile continues) := by
  rw [List.cons_append, lexemes_cons_of_continues (continues_of_isAlpha hc), ofText_of_isAlpha hc,
    List.takeWhile_append_of_pos hcs, List.dropWhile_append_of_pos hcs, List.cons_append]

theorem lexemes_keyword (hk : IsKeyword letters reader make) (body : List Char) :
    lexemes (letters ++ body) =
      .word (letters ++ body.takeWhile continues) :: lexemes (body.dropWhile continues) := by
  obtain ⟨c, cs, rfl⟩ := List.exists_cons_of_ne_nil hk.ne_nil
  obtain ⟨hc, hcs⟩ := List.forall_mem_cons.1 hk.isAlpha
  exact lexemes_word hc (fun d hd => continues_of_isAlpha (hcs d hd)) body

theorem exists_read (hk : IsKeyword letters reader make)
    (hreads : Reads (reader .xy) (Outline.IsEnclosed form) denotes) {b : β} {cs : List Char}
    (hcs : Outline.IsEnclosed form b cs) (hplain : Plain cs) :
    ∃ v, read (letters ++ cs) = .ok (make v) ∧ denotes b v := by
  obtain ⟨v, htakes, hdenotes⟩ := hreads.takes hcs hplain
    (show Delimited [] by simp [Delimited])
  refine ⟨v, read_eq_ok_iff.2 ⟨[], ?_⟩, hdenotes⟩
  rw [List.append_nil] at htakes
  obtain ⟨left, inner, right, rfl, hleft, -, -⟩ := hcs
  have hblanks := blanks_of_plain hleft (plain_append_iff.1 hplain).1
  have hdelimited := delimited_of_blanks_cons hblanks (c := '(') (by decide) (inner ++ right ++ [')'])
  rw [lexemes_keyword hk, hdelimited.takeWhile_eq_nil, hdelimited.dropWhile_eq_self,
    List.append_nil, takes_firstShape_iff]
  refine ⟨fun c hc => ?_, ?_⟩
  · have hletter := toNat_of_isAlpha (hk.isAlpha c hc)
    omega
  · rw [hk.shape_eq, takes_bind_iff]
    refine ⟨.xy, _, ?_, takes_map_iff.2 ⟨v, htakes, rfl⟩⟩
    rw [lexemes_blanks_append hblanks, lexemes_opening]
    exact takes_dimension_opening_iff.2 ⟨rfl, rfl⟩

/-- What follows a keyword that is read is plain: white space that is no blank would belong to the
keyword, or stand as a word in front of the parenthesis. -/
theorem plain_of_read (hk : IsKeyword letters reader make)
    (hreads : Reads (reader .xy) (Outline.IsEnclosed form) denotes) {b : β} {cs : List Char}
    {s : Shape} (hcs : Outline.IsEnclosed form b cs) (h : read (letters ++ cs) = .ok s) :
    Plain cs := by
  obtain ⟨rest, htakes⟩ := read_eq_ok_iff.1 h
  rw [lexemes_keyword hk, takes_firstShape_iff] at htakes
  obtain ⟨left, inner, right, rfl, hleft, hright, hinner⟩ := hcs
  have hdelimited : Delimited (left ++ '(' :: (inner ++ right ++ [')'])) := by
    intro c hc
    by_contra hgoes
    rw [Bool.not_eq_false] at hgoes
    cases left with
    | nil =>
      cases hc
      exact absurd hgoes (by decide)
    | cons d left =>
      cases hc
      have hmem : c ∈ letters ++
          (c :: left ++ '(' :: (inner ++ right ++ [')'])).takeWhile continues := by
        simp [hgoes]
      exact not_takes_shape (keyword?_eq_none (hleft c List.mem_cons_self) hmem) htakes.2
  rw [hdelimited.takeWhile_eq_nil, hdelimited.dropWhile_eq_self, List.append_nil, hk.shape_eq,
    takes_bind_iff] at htakes
  obtain ⟨-, d, mid, hdimension, hmake⟩ := htakes
  obtain ⟨v, hv, rfl⟩ := takes_map_iff.1 hmake
  rcases lexemes_spaces_append hleft ('(' :: (inner ++ right ++ [')'])) with
    hblanks | ⟨c, word, others, hc, hword⟩
  · have hlexemes := lexemes_blanks_append hblanks ('(' :: (inner ++ right ++ [')']))
    rw [hlexemes, lexemes_opening] at hdimension
    obtain ⟨rfl, rfl⟩ := takes_dimension_opening_iff.1 hdimension
    rw [← lexemes_opening, ← hlexemes, ← List.append_nil (left ++ _)] at hv
    exact (hreads.plain ⟨left, inner, right, rfl, hleft, hright, hinner⟩ (by simp [Apart]) hv).1
  · rw [hword] at hdimension
    exact absurd hdimension (not_takes_dimension_word hc List.mem_cons_self)

end

end OccurrenceQuery.Geometry.Wkt
