/-
What the reader of well-known text takes off the front of the lexemes of a text that is written in
the outline grammar.
-/
import OccurrenceQuery.Geometry.Search
import OccurrenceQuery.Proofs.Geometry.Wkt.Lexeme
import OccurrenceQuery.Proofs.Geometry.Wkt.Outline
import OccurrenceQuery.Proofs.Number.Magnitude

namespace OccurrenceQuery.Geometry.Wkt

open OccurrenceQuery.Text

/-! ## Readers -/

/-- What comes of a reader, and the lexemes it leaves. -/
def outcome {γ : Type} (reader : Reader γ) (ls : List Lexeme) : Except TextFault γ × List Lexeme :=
  reader.run ls

/-- A reader takes a value off the front of some lexemes and leaves the rest. -/
def Takes {γ : Type} (reader : Reader γ) (ls : List Lexeme) (v : γ) (rest : List Lexeme) : Prop :=
  outcome reader ls = (.ok v, rest)

section

variable {γ δ : Type} {ls rest : List Lexeme}

theorem Takes.unique {reader : Reader γ} {v w : γ} {rest' : List Lexeme}
    (h : Takes reader ls v rest) (h' : Takes reader ls w rest') : v = w ∧ rest = rest' := by
  simpa using h.symm.trans h'

theorem takes_pure_iff {a v : γ} : Takes (pure a) ls v rest ↔ v = a ∧ rest = ls := by
  constructor
  · intro h
    cases h
    exact ⟨rfl, rfl⟩
  · rintro ⟨rfl, rfl⟩
    rfl

theorem not_takes_throw {fault : TextFault} {v : γ} : ¬ Takes (throw fault) ls v rest := by
  intro h
  cases h

theorem outcome_bind (reader : Reader γ) (next : γ → Reader δ) (ls : List Lexeme) :
    outcome (reader >>= next) ls = match outcome reader ls with
      | (.ok a, mid) => outcome (next a) mid
      | (.error fault, mid) => (.error fault, mid) := by
  show (ExceptT.bindCont next (outcome reader ls).1 : StateM _ _) (outcome reader ls).2 = _
  rcases outcome reader ls with ⟨fault | a, mid⟩ <;> rfl

theorem takes_bind_iff {reader : Reader γ} {next : γ → Reader δ} {v : δ} :
    Takes (reader >>= next) ls v rest ↔
      ∃ a mid, Takes reader ls a mid ∧ Takes (next a) mid v rest := by
  unfold Takes
  rw [outcome_bind]
  rcases outcome reader ls with ⟨fault | a, mid⟩
  · simp
  · simp

theorem takes_map_iff {reader : Reader γ} {f : γ → δ} {v : δ} :
    Takes (f <$> reader) ls v rest ↔ ∃ a, Takes reader ls a rest ∧ v = f a := by
  rw [map_eq_pure_bind, takes_bind_iff]
  simp only [takes_pure_iff]
  constructor
  · rintro ⟨a, _, h, rfl, rfl⟩
    exact ⟨a, h, rfl⟩
  · rintro ⟨a, h, rfl⟩
    exact ⟨a, _, h, rfl, rfl⟩

/-- Content that can fail is tried: what comes of it is kept, and so are the lexemes it leaves. -/
theorem outcome_tryCatch (content : Reader γ) (ls : List Lexeme) :
    outcome (tryCatch (Except.ok <$> content) fun fault => return Except.error fault) ls =
      (.ok (outcome content ls).1, (outcome content ls).2) := by
  rcases h : outcome content ls with ⟨fault | a, mid⟩
  all_goals
    simp only [outcome, ExceptT.run, tryCatch, tryCatchThe, MonadExceptOf.tryCatch, ExceptT.tryCatch,
      ExceptT.mk, bind, StateT.bind, Functor.map, ExceptT.map] at h ⊢
    rw [h]
    rfl

/-- Content is enclosed when it ends in front of a closing parenthesis. -/
theorem takes_enclosed_iff {content : Reader γ} {v : γ} :
    Takes (enclosed content) ls v rest ↔ Takes content ls v (.closing :: rest) := by
  unfold Takes enclosed
  rw [outcome_bind, outcome_tryCatch]
  rcases outcome content ls with ⟨result, mid⟩
  cases mid with
  | nil => exact iff_of_false nofun nofun
  | cons l mid =>
    cases l with
    | closing =>
      -- what came of the content is given back behind the parenthesis
      have hclosing : outcome (ofExcept result : Reader γ) mid = (result, mid) := by
        cases result <;> rfl
      exact (Eq.congr_left hclosing).trans (by simp)
    | _ => exact iff_of_false nofun nofun

theorem takes_body_opening_iff {empty v : γ} {content : Reader γ} :
    Takes (body empty content) (.opening :: ls) v rest ↔ Takes content ls v (.closing :: rest) := by
  have hrun : outcome (body empty content) (.opening :: ls) = outcome (enclosed content) ls := rfl
  rw [← takes_enclosed_iff, Takes, hrun, Takes]

theorem not_takes_body_word {empty v : γ} {content : Reader γ} {letters : List Char}
    (h : isWord "EMPTY" letters = false) :
    ¬ Takes (body empty content) (.word letters :: ls) v rest := by
  have hrun : outcome (body empty content) (.word letters :: ls) =
      outcome (if isWord "EMPTY" letters then pure empty else throw .missingOpening) ls := rfl
  rw [Takes, hrun, h]
  exact not_takes_throw

theorem takes_coordinate_iff {axis : Axis} {l : Lexeme} {x : Float} :
    Takes (coordinate axis) (l :: ls) x rest ↔ l = .number x ∧ rest = ls := by
  cases l with
  | number value =>
    have hrun : outcome (coordinate axis) (.number value :: ls) = (.ok value, ls) := rfl
    rw [Takes, hrun]
    simp [eq_comm]
  | _ =>
    simp only [reduceCtorEq, false_and, iff_false]
    intro h
    cases h

theorem takes_position_iff {p : Position Float} :
    Takes (position .xy) ls p rest ↔
      ∃ mid, Takes (coordinate .x) ls p.x mid ∧ Takes (coordinate .y) mid p.y rest := by
  simp only [position, takes_bind_iff, Dimension.furtherAxes]
  constructor
  · rintro ⟨x, mid, hx, y, mid', hy, _, _, hnone, hp⟩
    obtain ⟨-, rfl⟩ := takes_pure_iff.1 hnone
    obtain ⟨rfl, rfl⟩ := takes_pure_iff.1 hp
    exact ⟨mid, hx, hy⟩
  · rintro ⟨mid, hx, hy⟩
    exact ⟨p.x, mid, hx, p.y, rest, hy, (), rest, takes_pure_iff.2 ⟨rfl, rfl⟩,
      takes_pure_iff.2 ⟨rfl, rfl⟩⟩

/-! ## Items -/

theorem takes_nextComma_comma (ls : List Lexeme) : Takes nextComma (.comma :: ls) true ls := rfl

/-- Without a comma everything is left as it is. -/
theorem takes_nextComma_closing (ls : List Lexeme) :
    Takes nextComma (.closing :: ls) false (.closing :: ls) := rfl

theorem eq_of_takes_nextComma (h : Takes nextComma ls true rest) : ls = .comma :: rest := by
  cases ls with
  | nil => cases h
  | cons l ls =>
    cases l with
    | comma => cases h; rfl
    | _ => cases h

theorem eq_of_not_takes_nextComma (h : Takes nextComma ls false rest) : ls = rest := by
  cases ls with
  | nil => cases h; rfl
  | cons l ls =>
    cases l with
    | comma => cases h
    | _ => cases h; rfl

theorem takes_go_zero_iff {item : Reader γ} {vs : List γ} :
    Takes (commaSeparated.go item 0) ls vs rest ↔ ∃ v, Takes item ls v rest ∧ vs = [v] := by
  simp only [commaSeparated.go, takes_bind_iff, takes_pure_iff]
  constructor
  · rintro ⟨v, _, hv, rfl, rfl⟩
    exact ⟨v, hv, rfl⟩
  · rintro ⟨v, hv, rfl⟩
    exact ⟨v, rest, hv, rfl, rfl⟩

theorem takes_go_succ_iff {item : Reader γ} {limit : Nat} {vs : List γ} :
    Takes (commaSeparated.go item (limit + 1)) ls vs rest ↔ ∃ v mid, Takes item ls v mid ∧
      ((∃ mid' ws, Takes nextComma mid true mid' ∧ Takes (commaSeparated.go item limit) mid' ws rest ∧
        vs = v :: ws) ∨ Takes nextComma mid false rest ∧ vs = [v]) := by
  simp only [commaSeparated.go, takes_bind_iff]
  constructor
  · rintro ⟨v, mid, hv, more, mid', hcomma, h⟩
    refine ⟨v, mid, hv, ?_⟩
    cases more with
    | true =>
      simp only [if_true, takes_bind_iff, takes_pure_iff] at h
      obtain ⟨ws, _, hws, rfl, rfl⟩ := h
      exact .inl ⟨mid', ws, hcomma, hws, rfl⟩
    | false =>
      obtain ⟨rfl, rfl⟩ := takes_pure_iff.1 h
      exact .inr ⟨hcomma, rfl⟩
  · rintro ⟨v, mid, hv, ⟨mid', ws, hcomma, hws, rfl⟩ | ⟨hcomma, rfl⟩⟩
    · refine ⟨v, mid, hv, true, mid', hcomma, ?_⟩
      simp only [if_true, takes_bind_iff, takes_pure_iff]
      exact ⟨ws, rest, hws, rfl, rfl⟩
    · exact ⟨v, mid, hv, false, rest, hcomma, takes_pure_iff.2 ⟨rfl, rfl⟩⟩

/-- Items that are taken begin with a first one. After it nothing else is taken, or a comma and other
items. -/
theorem exists_first_of_takes_go {item : Reader γ} {limit : Nat} {vs : List γ}
    (h : Takes (commaSeparated.go item limit) ls vs rest) :
    ∃ v mid, Takes item ls v mid ∧ (mid = rest ∨ ∃ ls' ws limit', mid = .comma :: ls' ∧
      Takes (commaSeparated.go item limit') ls' ws rest) := by
  cases limit with
  | zero =>
    obtain ⟨v, hv, -⟩ := takes_go_zero_iff.1 h
    exact ⟨v, rest, hv, .inl rfl⟩
  | succ limit =>
    obtain ⟨v, mid, hv, ⟨ls', ws, hcomma, hws, -⟩ | ⟨hcomma, -⟩⟩ := takes_go_succ_iff.1 h
    · exact ⟨v, mid, hv, .inr ⟨ls', ws, limit, eq_of_takes_nextComma hcomma, hws⟩⟩
    · exact ⟨v, mid, hv, .inl (eq_of_not_takes_nextComma hcomma)⟩

theorem takes_commaSeparated_iff {item : Reader γ} {vs : List γ} :
    Takes (commaSeparated item) ls vs rest ↔ Takes (commaSeparated.go item ls.length) ls vs rest :=
  Iff.rfl

end

/-! ## Plain texts -/

/-- Whether `c` is an ASCII letter or digit, a minus, a point, a comma, a parenthesis or a blank. -/
def isPlain (c : Char) : Bool :=
  c.isAlphanum || c == '-' || c == '.' || c == ',' || c == '(' || c == ')' || isBlank c

/-- Whether all characters of a text are plain. -/
def Plain (cs : List Char) : Prop := ∀ c ∈ cs, isPlain c = true

/-- Whether a text begins with nothing that could belong to a number in front of it. -/
def Apart (cs : List Char) : Prop := ∀ c ∈ cs.head?, isWhiteSpace c = true ∨ isMark c = true

theorem isBlank_of_isPlain {c : Char} (hspace : isWhiteSpace c = true) (hc : isPlain c = true) :
    isBlank c = true := by
  simp only [isPlain, Char.isAlphanum, Bool.or_eq_true, beq_iff_eq] at hc
  rcases hc with ((((((halpha | hdigit) | rfl) | rfl) | rfl) | rfl) | rfl) | hblank
  · rw [Outline.isWhiteSpace_of_isAlpha (.inl halpha)] at hspace
    cases hspace
  · rw [isWhiteSpace_of_isDecimalDigit (by simp [isDecimalDigit, hdigit])] at hspace
    cases hspace
  all_goals first | exact hblank | exact absurd hspace (by decide)

theorem plain_append_iff {cs ds : List Char} : Plain (cs ++ ds) ↔ Plain cs ∧ Plain ds :=
  List.forall_mem_append

theorem plain_cons_iff {c : Char} {cs : List Char} : Plain (c :: cs) ↔ isPlain c = true ∧ Plain cs :=
  List.forall_mem_cons

theorem Blanks.plain {cs : List Char} (h : Blanks cs) : Plain cs := by
  intro c hc
  simp [isPlain, h c hc]

theorem blanks_of_plain {cs : List Char} (h : Spaces cs) (hplain : Plain cs) : Blanks cs :=
  fun c hc => isBlank_of_isPlain (h c hc) (hplain c hc)

/-- A decimal has the characters of a number if and only if it is plain. -/
theorem plain_iff_of_hasDecimalForm {n : List Char} (h : Range.HasDecimalForm n) :
    Plain n ↔ ∀ c ∈ n, Number.isNumberLetter c = true := by
  refine forall₂_congr fun c hc => ?_
  rcases h.mem hc with hdigit | rfl | rfl
  · constructor
    · intro hplain
      simp only [isPlain, isBlank, Bool.or_eq_true, beq_iff_eq] at hplain
      rcases hplain with (((((halphanum | rfl) | rfl) | rfl) | rfl) | rfl) | ((rfl | rfl) | rfl) | rfl
      · simp [Number.isNumberLetter, halphanum]
      all_goals exact absurd hdigit (by decide)
    · intro hletter
      simp [isPlain, Char.isAlphanum, Number.isDigit_of_isNumberLetter hdigit hletter]
  · decide
  · decide

/-- A reader reads a form when it takes each plain text that is written in the form off the front, and
no other text of the form. -/
structure Reads {β γ : Type} (reader : Reader γ) (form : Outline.Form β) (denotes : β → γ → Prop) :
    Prop where
  takes : ∀ {b : β} {cs rest : List Char}, form b cs → Plain cs → Delimited rest →
    ∃ v, Takes reader (lexemes (cs ++ rest)) v (lexemes rest) ∧ denotes b v
  plain : ∀ {b : β} {cs rest : List Char} {v : γ} {ls : List Lexeme}, form b cs → Apart rest →
    Takes reader (lexemes (cs ++ rest)) v ls → Plain cs ∧ ls = lexemes rest

/-! ## Numbers -/

/-- A number, with white space in front of it. -/
def IsNumber : Outline.Form (List Char) := fun n cs =>
  ∃ left, cs = left ++ n ∧ Spaces left ∧ Range.HasDecimalForm n

theorem continues_of_mem {n : List Char} (h : Range.HasDecimalForm n) :
    ∀ c ∈ n, continues c = true := fun _ hc =>
  continues_of_forall Outline.isDecimalLetter (List.forall_iff_forall_mem.1 (by decide))
    (Outline.isDecimalLetter_of_mem h hc)

theorem ofText_eq_number_iff {c : Char} {cs : List Char} {x : Float} (hc : c ≠ '+') :
    Lexeme.ofText c cs = .number x ↔
      startsNumber c = true ∧ Number.readFloat? (c :: cs) = some x := by
  unfold Lexeme.ofText
  rw [if_neg hc]
  cases startsNumber c with
  | false => simp
  | true => cases Number.readFloat? (c :: cs) <;> simp

/-- The first character of a decimal in ASCII digits is one that a number starts with. -/
theorem exists_head_of_hasDecimalForm {n : List Char} (h : Range.HasDecimalForm n) :
    ∃ c cs, n = c :: cs ∧ c ≠ '+' ∧ (Number.isNumberLetter c = true → startsNumber c = true) := by
  rcases h with h | ⟨unsigned, rfl, -⟩
  · obtain ⟨c, cs, rfl, hdigit⟩ := h.exists_head
    refine ⟨c, cs, rfl, ?_, fun hletter => ?_⟩
    · rintro rfl
      exact absurd hdigit (by decide)
    · simp [startsNumber, Number.isDigit_of_isNumberLetter hdigit hletter]
  · exact ⟨'-', unsigned, rfl, by decide, fun _ => by decide⟩

theorem reads_coordinate (axis : Axis) :
    Reads (coordinate axis) IsNumber fun n x => Number.readFloat? n = some x where
  takes := by
    rintro n cs rest ⟨left, rfl, hleft, hn⟩ hplain hrest
    obtain ⟨hplainLeft, hplainNumber⟩ := plain_append_iff.1 hplain
    have hletters := (plain_iff_of_hasDecimalForm hn).1 hplainNumber
    obtain ⟨d, -, hread⟩ := Number.readFloat?_of_hasDecimalForm hn hletters
    obtain ⟨c, cs, rfl, hplus, hstart⟩ := exists_head_of_hasDecimalForm hn
    refine ⟨_, ?_, hread⟩
    rw [List.append_assoc, lexemes_blanks_append (blanks_of_plain hleft hplainLeft),
      lexemes_cons_append (continues_of_mem hn) hrest, takes_coordinate_iff]
    exact ⟨(ofText_eq_number_iff hplus).2 ⟨hstart (hletters c List.mem_cons_self), hread⟩, rfl⟩
  plain := by
    rintro n cs rest x ls ⟨left, rfl, hleft, hn⟩ hapart htakes
    rw [List.append_assoc] at htakes
    rcases lexemes_spaces_append hleft (n ++ rest) with hblanks | ⟨c, letters, others, -, hword⟩
    · obtain ⟨c, cs, rfl, hplus, -⟩ := exists_head_of_hasDecimalForm hn
      have hcontinues := List.forall_mem_cons.1 (continues_of_mem hn)
      rw [lexemes_blanks_append hblanks, List.cons_append, lexemes_cons_of_continues hcontinues.1,
        takes_coordinate_iff, List.takeWhile_append_of_pos hcontinues.2,
        List.dropWhile_append_of_pos hcontinues.2] at htakes
      obtain ⟨htext, rfl⟩ := htakes
      have hread := ((ofText_eq_number_iff hplus).1 htext).2
      have hletters : ∀ d ∈ c :: (cs ++ rest.takeWhile continues), Number.isNumberLetter d = true :=
        fun d hd => Number.isNumberLetter_of_readFloat? hread hd
      -- what follows the number is white space or a mark, so the lexeme ends with the number
      have hrest : Delimited rest := by
        intro d hd
        by_contra hgoes
        rw [Bool.not_eq_false] at hgoes
        obtain ⟨others, rfl⟩ := List.head?_eq_some_iff.1 hd
        have hletter : Number.isNumberLetter d = true := hletters d (by simp [hgoes])
        rcases hapart d rfl with hspace | hmark
        · rw [Number.isNumberLetter_of_isWhiteSpace hspace] at hletter
          cases hletter
        · simp [continues, hmark] at hgoes
      refine ⟨plain_append_iff.2 ⟨hblanks.plain, ?_⟩, ?_⟩
      · rw [plain_iff_of_hasDecimalForm hn]
        intro d hd
        exact hletters d (List.mem_append_left (rest.takeWhile continues) hd)
      · rw [hrest.dropWhile_eq_self]
    · rw [hword, takes_coordinate_iff] at htakes
      cases htakes.1

/-! ## Positions -/

theorem apart_of_spaces {cs : List Char} (h : Spaces cs) (hne : cs ≠ []) (rest : List Char) :
    Apart (cs ++ rest) := by
  obtain ⟨c, cs, rfl⟩ := List.exists_cons_of_ne_nil hne
  rintro d ⟨⟩
  exact .inl (h c List.mem_cons_self)

theorem delimited_of_blanks {cs : List Char} (h : Blanks cs) (hne : cs ≠ []) (rest : List Char) :
    Delimited (cs ++ rest) := by
  obtain ⟨c, cs, rfl⟩ := List.exists_cons_of_ne_nil hne
  exact delimited_cons (by simp [continues, h c List.mem_cons_self]) _

theorem reads_position : Reads (position .xy) PositionText.IsWritten PositionText.Denotes where
  takes := by
    rintro p cs rest ⟨left, between, rfl, hleft, hbetween, hne, hx, hy⟩ hplain hrest
    simp only [plain_append_iff, and_assoc] at hplain
    obtain ⟨hplainLeft, hplainX, hplainBetween, hplainY⟩ := hplain
    have hblanks := blanks_of_plain hbetween hplainBetween
    obtain ⟨x, htakesX, hreadX⟩ := (reads_coordinate .x).takes ⟨left, rfl, hleft, hx⟩
      (plain_append_iff.2 ⟨hplainLeft, hplainX⟩) (delimited_of_blanks hblanks hne (p.y ++ rest))
    obtain ⟨y, htakesY, hreadY⟩ := (reads_coordinate .y).takes ⟨between, rfl, hbetween, hy⟩
      (plain_append_iff.2 ⟨hplainBetween, hplainY⟩) hrest
    refine ⟨⟨x, y⟩, takes_position_iff.2 ⟨_, ?_, htakesY⟩, hreadX, hreadY⟩
    simpa using htakesX
  plain := by
    rintro p cs rest q ls ⟨left, between, rfl, hleft, hbetween, hne, hx, hy⟩ hapart htakes
    obtain ⟨mid, htakesX, htakesY⟩ := takes_position_iff.1 htakes
    have htext : left ++ p.x ++ between ++ p.y ++ rest =
        left ++ p.x ++ (between ++ (p.y ++ rest)) := by simp
    rw [htext] at htakesX
    obtain ⟨hplainX, rfl⟩ := (reads_coordinate .x).plain ⟨left, rfl, hleft, hx⟩
      (apart_of_spaces hbetween hne _) htakesX
    rw [← List.append_assoc] at htakesY
    obtain ⟨hplainY, rfl⟩ := (reads_coordinate .y).plain ⟨between, rfl, hbetween, hy⟩ hapart htakesY
    exact ⟨by rw [List.append_assoc]; exact plain_append_iff.2 ⟨hplainX, hplainY⟩, rfl⟩

/-! ## Groups -/

/-- A reader reads the content of parentheses when it takes each plain text of a form off the front of
the closing parenthesis, and no other text of the form. -/
structure ReadsInside {β γ : Type} (reader : Reader γ) (form : Outline.Form β)
    (denotes : β → γ → Prop) : Prop where
  takes : ∀ {b : β} {cs right : List Char} (rest : List Char), form b cs → Plain cs →
    Blanks right → ∃ v, Takes reader (lexemes (cs ++ (right ++ ')' :: rest))) v
      (.closing :: lexemes rest) ∧ denotes b v
  plain : ∀ {b : β} {cs right rest : List Char} {v : γ} {ls : List Lexeme}, form b cs →
    Spaces right → Takes reader (lexemes (cs ++ (right ++ ')' :: rest))) v (.closing :: ls) →
    Plain cs ∧ Blanks right ∧ ls = lexemes rest

variable {β γ : Type} {reader : Reader γ} {form : Outline.Form β} {denotes : β → γ → Prop}

/-- A word with white space in it is none of those that have a meaning. -/
theorem isWord_eq_false {name : String} {letters : List Char} {c : Char}
    (hname : ∀ d ∈ asciiLower name.toList, isWhiteSpace d = false) (hc : isWhiteSpace c = true)
    (hmem : c ∈ letters) : isWord name letters = false := by
  rw [Bool.eq_false_iff]
  intro hword
  have hlower : c ∈ asciiLower name.toList := by
    rw [eq_of_beq hword]
    exact List.mem_map.2 ⟨c, hmem, Number.toLower_eq_self (Number.isNumberLetter_of_isWhiteSpace hc)⟩
  rw [hname c hlower] at hc
  cases hc

/-- Content that is read is read between parentheses. -/
theorem ReadsInside.enclosed (h : ReadsInside reader form denotes) (empty : γ) :
    Reads (body empty reader) (Outline.IsEnclosed form) denotes where
  takes := by
    rintro b cs rest ⟨left, inner, right, rfl, hleft, hright, hinner⟩ hplain -
    simp only [plain_append_iff, plain_cons_iff] at hplain
    obtain ⟨hplainLeft, -, ⟨hplainInner, hplainRight⟩, -⟩ := hplain
    obtain ⟨v, htakes, hdenotes⟩ := h.takes rest hinner hplainInner
      (blanks_of_plain hright hplainRight)
    refine ⟨v, ?_, hdenotes⟩
    rw [List.append_assoc, lexemes_blanks_append (blanks_of_plain hleft hplainLeft),
      List.cons_append, lexemes_opening, takes_body_opening_iff]
    simpa using htakes
  plain := by
    rintro b cs rest v ls ⟨left, inner, right, rfl, hleft, hright, hinner⟩ - htakes
    rw [List.append_assoc] at htakes
    rcases lexemes_spaces_append hleft ('(' :: (inner ++ right ++ [')']) ++ rest) with
      hblanks | ⟨c, letters, others, hc, hword⟩
    · rw [lexemes_blanks_append hblanks, List.cons_append, lexemes_opening,
        takes_body_opening_iff] at htakes
      have htext : inner ++ right ++ [')'] ++ rest = inner ++ (right ++ ')' :: rest) := by simp
      rw [htext] at htakes
      obtain ⟨hplain, hrightBlanks, hrest⟩ := h.plain hinner hright htakes
      simp only [plain_append_iff, plain_cons_iff]
      exact ⟨⟨hblanks.plain, by decide, ⟨hplain, hrightBlanks.plain⟩, by decide, by simp [Plain]⟩,
        hrest⟩
    · rw [hword] at htakes
      exact absurd htakes (not_takes_body_word
        (isWord_eq_false (List.forall_iff_forall_mem.1 (by decide)) hc List.mem_cons_self))

/-! ## Items -/

theorem delimited_of_blanks_cons {cs : List Char} (h : Blanks cs) {c : Char}
    (hc : continues c = false) (rest : List Char) : Delimited (cs ++ c :: rest) := by
  cases cs with
  | nil => exact delimited_cons hc rest
  | cons d cs => exact delimited_of_blanks h (List.cons_ne_nil d cs) _

theorem apart_of_spaces_cons {cs : List Char} (h : Spaces cs) {c : Char} (hc : isMark c = true)
    (rest : List Char) : Apart (cs ++ c :: rest) := by
  cases cs with
  | nil =>
    rintro d ⟨⟩
    exact .inr hc
  | cons d cs => exact apart_of_spaces h (List.cons_ne_nil d cs) _

/-- White space in front of a lexeme that is no word has only blanks in it. -/
theorem blanks_of_lexemes {cs rest : List Char} {l : Lexeme} {ls : List Lexeme} (h : Spaces cs)
    (hls : lexemes (cs ++ rest) = l :: ls) (hl : ∀ letters, l ≠ .word letters) : Blanks cs := by
  rcases lexemes_spaces_append h rest with hblanks | ⟨c, letters, others, -, hword⟩
  · exact hblanks
  · rw [hword] at hls
    exact absurd (List.cons.inj hls).1.symm (hl _)

theorem blanks_of_closing {right rest : List Char} {ls : List Lexeme} (h : Spaces right)
    (hls : lexemes (right ++ ')' :: rest) = .closing :: ls) : Blanks right ∧ ls = lexemes rest := by
  have hblanks := blanks_of_lexemes h hls nofun
  rw [lexemes_blanks_append hblanks, lexemes_closing] at hls
  exact ⟨hblanks, (List.cons.inj hls).2.symm⟩

theorem Reads.inside (h : Reads reader form denotes) : ReadsInside reader form denotes where
  takes := by
    intro b cs right rest hb hplain hright
    obtain ⟨v, htakes, hdenotes⟩ :=
      h.takes hb hplain (delimited_of_blanks_cons hright (c := ')') (by decide) rest)
    rw [lexemes_blanks_append hright, lexemes_closing] at htakes
    exact ⟨v, htakes, hdenotes⟩
  plain := by
    intro b cs right rest v ls hb hright htakes
    obtain ⟨hplain, hls⟩ := h.plain hb (apart_of_spaces_cons hright (by decide) rest) htakes
    exact ⟨hplain, blanks_of_closing hright hls.symm⟩

theorem ReadsInside.map_some (h : ReadsInside reader form denotes) :
    ReadsInside (some <$> reader) form fun b v => ∃ a, v = some a ∧ denotes b a where
  takes := by
    intro b cs right rest hb hplain hright
    obtain ⟨a, htakes, hdenotes⟩ := h.takes rest hb hplain hright
    exact ⟨some a, takes_map_iff.2 ⟨a, htakes, rfl⟩, a, rfl, hdenotes⟩
  plain := by
    intro b cs right rest v ls hb hright htakes
    obtain ⟨a, htakes, -⟩ := takes_map_iff.1 htakes
    exact h.plain hb hright htakes

theorem append_comma_append (cs space ds rest : List Char) :
    cs ++ space ++ ',' :: ds ++ rest = cs ++ (space ++ ',' :: (ds ++ rest)) := by
  simp

/-- Reading items one by one takes as many as there are, as long as the limit allows it. -/
theorem exists_takes_go (h : Reads reader form denotes) {bs : List β} {cs right rest : List Char}
    (hbs : Outline.IsSeparated form bs cs) (hplain : Plain cs) (hright : Blanks right) :
    ∀ {limit : Nat}, bs.length ≤ limit + 1 →
      ∃ vs, Takes (commaSeparated.go reader limit) (lexemes (cs ++ (right ++ ')' :: rest))) vs
        (.closing :: lexemes rest) ∧ List.Forall₂ denotes bs vs := by
  induction hbs with
  | single hb =>
    intro limit _
    obtain ⟨v, htakes, hdenotes⟩ := h.inside.takes rest hb hplain hright
    refine ⟨[v], ?_, .cons hdenotes .nil⟩
    cases limit with
    | zero => exact takes_go_zero_iff.2 ⟨v, htakes, rfl⟩
    | succ limit =>
      exact takes_go_succ_iff.2 ⟨v, _, htakes, .inr ⟨takes_nextComma_closing _, rfl⟩⟩
  | @cons b bs cs space ds hb hspace hbs ih =>
    intro limit hlimit
    have hone := hbs.length_pos
    obtain ⟨limit, rfl⟩ : ∃ l, limit = l + 1 := ⟨limit - 1, by simp at hlimit; omega⟩
    have hothers : bs.length ≤ limit + 1 := by simpa using hlimit
    simp only [plain_append_iff, plain_cons_iff] at hplain
    obtain ⟨⟨hplainItem, hplainSpace⟩, -, hplainItems⟩ := hplain
    have hblanks := blanks_of_plain hspace hplainSpace
    obtain ⟨v, htakes, hdenotes⟩ := h.takes hb hplainItem
      (delimited_of_blanks_cons hblanks (c := ',') (by decide) (ds ++ (right ++ ')' :: rest)))
    rw [lexemes_blanks_append hblanks, lexemes_comma] at htakes
    obtain ⟨vs, htakesItems, hdenotesItems⟩ := ih hplainItems hothers
    refine ⟨v :: vs, ?_, .cons hdenotes hdenotesItems⟩
    rw [append_comma_append]
    exact takes_go_succ_iff.2
      ⟨v, _, htakes, .inl ⟨_, vs, takes_nextComma_comma _, htakesItems, rfl⟩⟩

/-- Items that are read up to a closing parenthesis are plain, because white space that is no blank
ends the items and is left in front of the parenthesis. -/
theorem plain_of_takes_go (h : Reads reader form denotes) {bs : List β} {cs right rest : List Char}
    (hbs : Outline.IsSeparated form bs cs) (hright : Spaces right) :
    ∀ {limit : Nat} {vs : List γ} {ls : List Lexeme},
      Takes (commaSeparated.go reader limit) (lexemes (cs ++ (right ++ ')' :: rest))) vs
        (.closing :: ls) → Plain cs ∧ Blanks right ∧ ls = lexemes rest := by
  induction hbs with
  | single hb =>
    intro limit vs ls htakes
    obtain ⟨v, mid, hv, hmid⟩ := exists_first_of_takes_go htakes
    obtain ⟨hplain, rfl⟩ := h.plain hb (apart_of_spaces_cons hright (by decide) rest) hv
    refine ⟨hplain, ?_⟩
    rcases hmid with hclosing | ⟨ls', ws, limit', hcomma, -⟩
    · exact blanks_of_closing hright hclosing
    · have hblanks := blanks_of_lexemes hright hcomma nofun
      rw [lexemes_blanks_append hblanks, lexemes_closing] at hcomma
      cases hcomma
  | @cons b bs cs space ds hb hspace hbs ih =>
    intro limit vs ls htakes
    rw [append_comma_append] at htakes
    obtain ⟨v, mid, hv, hmid⟩ := exists_first_of_takes_go htakes
    obtain ⟨hplain, rfl⟩ := h.plain hb (apart_of_spaces_cons hspace (by decide) _) hv
    rcases hmid with hclosing | ⟨ls', ws, limit', hcomma, hws⟩
    · have hblanks := blanks_of_lexemes hspace hclosing nofun
      rw [lexemes_blanks_append hblanks, lexemes_comma] at hclosing
      cases hclosing
    · have hblanks := blanks_of_lexemes hspace hcomma nofun
      rw [lexemes_blanks_append hblanks, lexemes_comma] at hcomma
      obtain ⟨-, rfl⟩ := List.cons.inj hcomma
      obtain ⟨hplainItems, hrest⟩ := ih hws
      simp only [plain_append_iff, plain_cons_iff]
      exact ⟨⟨⟨hplain, hblanks.plain⟩, by decide, hplainItems⟩, hrest⟩

theorem length_le_count_comma {bs : List β} {cs : List Char} (h : Outline.IsSeparated form bs cs) :
    bs.length ≤ cs.count ',' + 1 := by
  induction h with
  | single => simp
  | cons _ _ _ ih => simp; omega

/-- Where items are read, so are lists of them with commas between them. -/
theorem Reads.separated (h : Reads reader form denotes) :
    ReadsInside (commaSeparated reader) (Outline.IsSeparated form) (List.Forall₂ denotes) where
  takes := by
    intro bs cs right rest hbs hplain hright
    have hlimit : bs.length ≤ (lexemes (cs ++ (right ++ ')' :: rest))).length + 1 := by
      have hcommas := count_comma_le (cs ++ (right ++ ')' :: rest))
      have hlength := length_le_count_comma hbs
      rw [List.count_append] at hcommas
      omega
    obtain ⟨vs, htakes, hdenotes⟩ := exists_takes_go h hbs hplain hright hlimit
    exact ⟨vs, takes_commaSeparated_iff.2 htakes, hdenotes⟩
  plain := by
    intro bs cs right rest vs ls hbs hright htakes
    exact plain_of_takes_go h hbs hright (takes_commaSeparated_iff.1 htakes)

theorem Reads.group (h : Reads reader form denotes) :
    Reads (body [] (commaSeparated reader)) (Outline.IsGroup form) (List.Forall₂ denotes) :=
  h.separated.enclosed []

end OccurrenceQuery.Geometry.Wkt
