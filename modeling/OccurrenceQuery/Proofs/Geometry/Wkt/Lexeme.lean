/-
The lexemes of a text, from its front. A blank has none, a mark is one of its own, and the characters
up to the next blank or mark are one. White space that is no blank begins a word.
-/
import OccurrenceQuery.Geometry.Wkt.Reader
import OccurrenceQuery.Proofs.Number.Letters

namespace OccurrenceQuery.Geometry.Wkt

open OccurrenceQuery.Text

variable {c : Char} {cs rest : List Char}

/-! ## The first lexeme -/

/-- A character of a kind without marks and blanks is one that words and numbers go on with. -/
theorem continues_of_forall (p : Char → Bool)
    (hp : ∀ d ∈ ['(', ')', ',', '\x00', ' ', '\n', '\r', '\t'], p d = false) (hc : p c = true) :
    continues c = true := by
  by_contra hstops
  have hmem : c ∈ ['(', ')', ',', '\x00', ' ', '\n', '\r', '\t'] := by
    simpa [continues, isMark, isBlank, or_assoc, imp_iff_not_or] using hstops
  rw [hp c hmem] at hc
  cases hc

theorem lexemesAfter_eq (letters cs : List Char) :
    lexemesAfter letters cs =
      gathered ((cs.takeWhile continues).reverse ++ letters) ++ lexemes (cs.dropWhile continues) := by
  induction cs generalizing letters with
  | nil => simp [lexemesAfter, lexemes, gathered]
  | cons c cs ih =>
    cases hc : continues c with
    | true => simp [lexemesAfter, hc, ih (c :: letters)]
    | false => simp [lexemesAfter, lexemes, hc, gathered]

/-- A character that goes on begins a lexeme that reaches up to the next one that does not. -/
theorem lexemes_cons_of_continues (hc : continues c = true) (cs : List Char) :
    lexemes (c :: cs) =
      Lexeme.ofText c (cs.takeWhile continues) :: lexemes (cs.dropWhile continues) := by
  rw [lexemes, lexemesAfter, if_pos hc, lexemesAfter_eq]
  simp [gathered]

theorem lexemes_cons_of_not_continues (hc : continues c = false) (cs : List Char) :
    lexemes (c :: cs) = markLexeme c ++ lexemes cs := by
  simp [lexemes, lexemesAfter, hc, gathered]

/-- Whether a text begins with none of the characters that a word or number goes on with. -/
def Delimited (cs : List Char) : Prop := ∀ c ∈ cs.head?, continues c = false

theorem delimited_cons (hc : continues c = false) (cs : List Char) : Delimited (c :: cs) := by
  rintro d ⟨⟩
  exact hc

theorem Delimited.takeWhile_eq_nil (h : Delimited cs) : cs.takeWhile continues = [] := by
  cases cs with
  | nil => rfl
  | cons c cs => simp [h c rfl]

theorem Delimited.dropWhile_eq_self (h : Delimited cs) : cs.dropWhile continues = cs := by
  cases cs with
  | nil => rfl
  | cons c cs => simp [h c rfl]

theorem lexemes_cons_append (hcs : ∀ d ∈ c :: cs, continues d = true) (hrest : Delimited rest) :
    lexemes (c :: cs ++ rest) = Lexeme.ofText c cs :: lexemes rest := by
  obtain ⟨hc, hcs⟩ := List.forall_mem_cons.1 hcs
  rw [List.cons_append, lexemes_cons_of_continues hc, List.takeWhile_append_of_pos hcs,
    List.dropWhile_append_of_pos hcs, hrest.takeWhile_eq_nil, hrest.dropWhile_eq_self,
    List.append_nil]

@[simp]
theorem lexemes_opening (cs : List Char) : lexemes ('(' :: cs) = .opening :: lexemes cs :=
  lexemes_cons_of_not_continues (by decide) cs

@[simp]
theorem lexemes_closing (cs : List Char) : lexemes (')' :: cs) = .closing :: lexemes cs :=
  lexemes_cons_of_not_continues (by decide) cs

@[simp]
theorem lexemes_comma (cs : List Char) : lexemes (',' :: cs) = .comma :: lexemes cs :=
  lexemes_cons_of_not_continues (by decide) cs

theorem lexemes_blank (hc : isBlank c = true) (cs : List Char) : lexemes (c :: cs) = lexemes cs := by
  have hmark : markLexeme c = [] := by
    simp only [isBlank, Bool.or_eq_true, beq_iff_eq] at hc
    rcases hc with ((rfl | rfl) | rfl) | rfl <;> rfl
  rw [lexemes_cons_of_not_continues (by simp [continues, hc]), hmark, List.nil_append]

/-! ## White space -/

/-- Blanks only. -/
def Blanks (cs : List Char) : Prop := ∀ c ∈ cs, isBlank c = true

theorem lexemes_blanks_append (hcs : Blanks cs) (rest : List Char) :
    lexemes (cs ++ rest) = lexemes rest := by
  induction cs with
  | nil => rfl
  | cons c cs ih =>
    rw [List.cons_append, lexemes_blank (hcs c List.mem_cons_self),
      ih fun d hd => hcs d (List.mem_cons_of_mem c hd)]

theorem continues_of_isWhiteSpace (hc : isWhiteSpace c = true) (hblank : isBlank c = false) :
    continues c = true := by
  have hmark : isMark c = false := by
    rw [Bool.eq_false_iff]
    intro hmark
    simp only [isMark, Bool.or_eq_true, beq_iff_eq] at hmark
    rcases hmark with ((rfl | rfl) | rfl) | rfl <;> exact absurd hc (by decide)
  simp [continues, hmark, hblank]

theorem startsNumber_of_isWhiteSpace (hc : isWhiteSpace c = true) : startsNumber c = false := by
  rw [Bool.eq_false_iff]
  intro hstart
  simp only [startsNumber, Bool.or_eq_true, beq_iff_eq] at hstart
  rcases hstart with ((rfl | rfl) | rfl) | hdigit
  · exact absurd hc (by decide)
  · exact absurd hc (by decide)
  · exact absurd hc (by decide)
  · have hspace := isWhiteSpace_of_isDecimalDigit (c := c) (by simp [isDecimalDigit, hdigit])
    rw [hc] at hspace
    cases hspace

/-- White space in front of a text is blanks, or begins a word with a character of its own. -/
theorem lexemes_spaces_append (hcs : Spaces cs) (rest : List Char) :
    Blanks cs ∨ ∃ c letters others, isWhiteSpace c = true ∧
      lexemes (cs ++ rest) = .word (c :: letters) :: others := by
  induction cs with
  | nil => exact .inl (by simp [Blanks])
  | cons c cs ih =>
    have hspace := hcs c List.mem_cons_self
    cases hblank : isBlank c with
    | false =>
      refine .inr ⟨c, (cs ++ rest).takeWhile continues, lexemes ((cs ++ rest).dropWhile continues),
        hspace, ?_⟩
      rw [List.cons_append, lexemes_cons_of_continues (continues_of_isWhiteSpace hspace hblank),
        Lexeme.ofText, if_neg (by simp [startsNumber_of_isWhiteSpace hspace])]
    | true =>
      rw [List.cons_append, lexemes_blank hblank]
      rcases ih fun d hd => hcs d (List.mem_cons_of_mem c hd) with hblanks | hword
      · exact .inl (List.forall_mem_cons.2 ⟨hblank, hblanks⟩)
      · exact .inr hword

/-! ## Commas -/

theorem count_comma_le_after (letters cs : List Char) :
    cs.count ',' ≤ (lexemesAfter letters cs).length := by
  induction cs generalizing letters with
  | nil => simp
  | cons c cs ih =>
    unfold lexemesAfter
    by_cases hcomma : c = ','
    · have hafter := ih []
      subst hcomma
      rw [if_neg (by decide), List.count_cons_self]
      simp only [markLexeme, List.length_append, Char.reduceEq, if_false, if_true,
        List.length_singleton]
      omega
    · rw [List.count_cons_of_ne hcomma]
      split
      · exact ih _
      · have hafter := ih []
        simp only [List.length_append]
        omega

/-- There are no more commas in a text than lexemes. -/
theorem count_comma_le (cs : List Char) : cs.count ',' ≤ (lexemes cs).length :=
  count_comma_le_after [] cs

end OccurrenceQuery.Geometry.Wkt
