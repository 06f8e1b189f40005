/-
The lines about values. A line says that a value is valid exactly when the value is accepted, whatever
characters the value and the name of the parameter have: in a line of data their quotation marks are
escaped, so that neither can look like the field that says so.
-/
import OccurrenceQuery.Command.Run
import OccurrenceQuery.Proofs.Message.Check

namespace OccurrenceQuery

open OccurrenceQuery.Text

/-! ## Quoted strings -/

namespace Json

/-- A character is written as itself or behind a backslash; only a quotation mark is then written with
one. -/
theorem escape_cases (c : Char) : (escape c = [c] ∧ c ≠ '"' ∧ c ≠ '\\' ∧ c ≠ '\n') ∨
    escape c = ['\\', '"'] ∨ ∃ ds, escape c = '\\' :: ds ∧ '"' ∉ ds ∧ '\n' ∉ ds := by
  unfold escape
  split
  · exact .inr (.inl rfl)
  split
  · exact .inr (.inr ⟨['\\'], rfl, by decide, by decide⟩)
  split
  · exact .inr (.inr ⟨['n'], rfl, by decide, by decide⟩)
  split
  · exact .inr (.inr ⟨['r'], rfl, by decide, by decide⟩)
  split
  · exact .inr (.inr ⟨['t'], rfl, by decide, by decide⟩)
  split
  · exact .inr (.inr ⟨['b'], rfl, by decide, by decide⟩)
  split
  · exact .inr (.inr ⟨['f'], rfl, by decide, by decide⟩)
  split
  · rename_i hcontrol
    have hcodes : ∀ n : Fin 32, '"' ∉ 'u' :: '0' :: '0' :: hexByte n ∧
        '\n' ∉ 'u' :: '0' :: '0' :: hexByte n := by
      decide
    exact .inr (.inr ⟨_, rfl, hcodes ⟨c.toNat, hcontrol⟩⟩)
  · rename_i hquote hbackslash hfeed _ _ _ _ _
    exact .inl ⟨rfl, hquote, hbackslash, hfeed⟩

theorem oneLine_quote (text : String) : OneLine (quote text) := by
  refine .of fun hmem => ?_
  simp only [List.cons_append, List.mem_cons, List.mem_append, List.mem_flatMap,
    List.not_mem_nil, or_false] at hmem
  rcases hmem with hquote | ⟨c, -, hc⟩ | hquote
  · exact absurd hquote (by decide)
  · rcases escape_cases c with ⟨hescape, -, -, hfeed⟩ | hescape | ⟨ds, hescape, -, hfeed⟩
    · rw [hescape, List.mem_singleton] at hc
      exact hfeed hc.symm
    · rw [hescape] at hc
      exact absurd hc (by decide)
    · rw [hescape] at hc
      rcases List.mem_cons.1 hc with hbackslash | hmem
      · exact absurd hbackslash (by decide)
      · exact hfeed hmem
  · exact absurd hquote (by decide)

end Json

/-! ## The mark of a valid value -/

namespace Command

open Json

/-- The field that says that a value is valid. -/
def validMark : List Char := "\"valid\":true".toList

theorem validMark_eq : validMark =
    ['"', 'v', 'a', 'l', 'i', 'd', '"', ':', 't', 'r', 'u', 'e'] := by decide

section

variable {cs rest : List Char}

/-- Whatever is in front of the mark and has no quotation mark can be left out. -/
theorem validMark_infix_append (h : '"' ∉ cs) : validMark <:+: cs ++ rest ↔ validMark <:+: rest := by
  induction cs with
  | nil => exact Iff.rfl
  | cons c cs ih =>
    rw [List.mem_cons, not_or] at h
    rw [List.cons_append, List.infix_cons_iff, ih h.2, validMark_eq, List.cons_prefix_cons,
      or_iff_right fun hprefix => h.1 hprefix.1]

/-- A word that stands in front of a quotation mark at the front of a quoted text is the whole of it. -/
theorem prefix_of_quoted : ∀ (word cs : List Char) {more : List Char},
    (∀ c ∈ word, c ≠ '"' ∧ c ≠ '\\') →
    word ++ '"' :: more <+: cs.flatMap escape ++ '"' :: rest → more <+: rest
  | [], [], more, _, h => (List.cons_prefix_cons.1 h).2
  | a :: word, [], more, hword, h =>
    absurd (List.cons_prefix_cons.1 h).1 (hword a List.mem_cons_self).1
  | [], c :: cs, more, _, h => by
    rw [List.flatMap_cons, List.append_assoc] at h
    rcases escape_cases c with ⟨hescape, hquote, -⟩ | hescape | ⟨ds, hescape, -⟩ <;>
      rw [hescape] at h
    · exact absurd (List.cons_prefix_cons.1 h).1.symm hquote
    · exact absurd (List.cons_prefix_cons.1 h).1 (by decide)
    · exact absurd (List.cons_prefix_cons.1 h).1 (by decide)
  | a :: word, c :: cs, more, hword, h => by
    rw [List.flatMap_cons, List.append_assoc] at h
    have hbackslash := (hword a List.mem_cons_self).2
    rcases escape_cases c with ⟨hescape, -⟩ | hescape | ⟨ds, hescape, -⟩ <;> rw [hescape] at h
    · exact prefix_of_quoted word cs (fun e he => hword e (List.mem_cons_of_mem a he))
        (List.cons_prefix_cons.1 h).2
    · exact absurd (List.cons_prefix_cons.1 h).1 hbackslash
    · exact absurd (List.cons_prefix_cons.1 h).1 hbackslash

/-- At a quotation mark in front of quoted text the mark begins only if a colon follows that text. -/
theorem not_begins_validMark (hcolon : ¬ [':'] <+: rest) (cs : List Char) :
    ¬ validMark <+: '"' :: (cs.flatMap escape ++ '"' :: rest) := by
  intro h
  rw [validMark_eq, List.cons_prefix_cons] at h
  have hmore : [':', 't', 'r', 'u', 'e'] <+: rest :=
    prefix_of_quoted ['v', 'a', 'l', 'i', 'd'] cs (by simp) h.2
  exact hcolon (List.IsPrefix.trans ⟨['t', 'r', 'u', 'e'], rfl⟩ hmore)

theorem validMark_infix_escaped (hcolon : ¬ [':'] <+: rest) (hletter : ¬ ['v'] <+: rest) :
    ∀ cs : List Char, validMark <:+: cs.flatMap escape ++ '"' :: rest ↔ validMark <:+: rest
  | [] => by
    rw [List.flatMap_nil, List.nil_append, List.infix_cons_iff, or_iff_right]
    intro h
    rw [validMark_eq, List.cons_prefix_cons] at h
    exact hletter (List.IsPrefix.trans ⟨['a', 'l', 'i', 'd', '"', ':', 't', 'r', 'u', 'e'], rfl⟩ h.2)
  | c :: cs => by
    have ih := validMark_infix_escaped hcolon hletter cs
    rw [List.flatMap_cons, List.append_assoc]
    rcases escape_cases c with ⟨hescape, hquote, -⟩ | hescape | ⟨ds, hescape, hquote, -⟩ <;>
      rw [hescape]
    · rw [validMark_infix_append (by simpa using hquote.symm), ih]
    · show validMark <:+: ['\\'] ++ '"' :: (cs.flatMap escape ++ '"' :: rest) ↔ _
      rw [validMark_infix_append (by decide), List.infix_cons_iff,
        or_iff_right (not_begins_validMark hcolon cs), ih]
    · rw [validMark_infix_append (by simpa using hquote), ih]

/-- A quoted string that no colon follows holds nothing of the mark. -/
theorem validMark_infix_quote (hcolon : ¬ [':'] <+: rest) (hletter : ¬ ['v'] <+: rest)
    (text : String) : validMark <:+: (quote text).toList ++ rest ↔ validMark <:+: rest := by
  have hquote : (quote text).toList ++ rest = '"' :: (text.toList.flatMap escape ++ '"' :: rest) := by
    simp [quote]
  rw [hquote, List.infix_cons_iff, or_iff_right (not_begins_validMark hcolon _),
    validMark_infix_escaped hcolon hletter]

end

/-! ## Fields -/

theorem toList_compact_true : (Json.bool true).compact.toList = ['t', 'r', 'u', 'e'] := by decide

theorem toList_compact_false : (Json.bool false).compact.toList = ['f', 'a', 'l', 's', 'e'] := by
  decide

theorem toList_compact_string (text : String) :
    (Json.string text).compact.toList = '"' :: (text.toList.flatMap escape ++ ['"']) := by
  simp [compact, quote]

/-- Whether a value has no parts: a truth value or a string. -/
def isFlat : Json → Bool
  | .bool _ => true
  | .string _ => true
  | _ => false

/-- A field with a flat value, under a name that is written as it is. -/
structure IsPlainField (field : String × Json) : Prop where
  name : ∀ c ∈ field.1.toList, escape c = [c]
  value : isFlat field.2 = true

section

variable {more rest : List Char} {field : String × Json} {value : Json}

theorem eq_true_of_begins (hflat : isFlat value = true)
    (h : 't' :: more <+: value.compact.toList ++ rest) : value = .bool true := by
  cases value with
  | bool truth =>
    cases truth with
    | true => rfl
    | false =>
      rw [toList_compact_false] at h
      exact absurd (List.cons_prefix_cons.1 h).1 (by decide)
  | string text =>
    rw [toList_compact_string] at h
    exact absurd (List.cons_prefix_cons.1 h).1 (by decide)
  | null | number | array | object => cases hflat

/-- A flat value holds nothing of the mark. -/
theorem validMark_infix_flat (hflat : isFlat value = true) (hcolon : ¬ [':'] <+: rest)
    (hletter : ¬ ['v'] <+: rest) :
    validMark <:+: value.compact.toList ++ rest ↔ validMark <:+: rest := by
  cases value with
  | bool truth =>
    cases truth with
    | true => rw [toList_compact_true, validMark_infix_append (by decide)]
    | false => rw [toList_compact_false, validMark_infix_append (by decide)]
  | string text => rw [compact, validMark_infix_quote hcolon hletter]
  | null | number | array | object => cases hflat

/-- Two words that end at the next quotation mark are equal. -/
theorem eq_and_rest_of_begins : ∀ {word name : List Char}, '"' ∉ word → '"' ∉ name →
    word ++ '"' :: more <+: name ++ '"' :: rest → word = name ∧ more <+: rest
  | [], [], _, _, h => ⟨rfl, (List.cons_prefix_cons.1 h).2⟩
  | [], c :: name, _, hname, h =>
    absurd (List.cons_prefix_cons.1 h).1.symm fun hc => hname (hc ▸ List.mem_cons_self)
  | c :: word, [], hword, _, h =>
    absurd (List.cons_prefix_cons.1 h).1 fun hc => hword (hc ▸ List.mem_cons_self)
  | c :: word, d :: name, hword, hname, h => by
    rw [List.mem_cons, not_or] at hword hname
    obtain ⟨hc, hrest⟩ := List.cons_prefix_cons.1 h
    obtain ⟨hword, hmore⟩ := eq_and_rest_of_begins hword.2 hname.2 hrest
    exact ⟨by rw [hc, hword], hmore⟩

namespace IsPlainField

theorem quote_not_mem (h : IsPlainField field) : '"' ∉ field.1.toList :=
  fun hmem => absurd (h.name _ hmem) (by decide)

theorem toList_eq (h : IsPlainField field) : (quote field.1 ++ ":" ++ field.2.compact).toList =
    '"' :: (field.1.toList ++ '"' :: ':' :: field.2.compact.toList) := by
  have hname : field.1.toList.flatMap escape = field.1.toList := by
    rw [List.flatMap_congr h.name, List.flatMap_singleton']
  simp [quote, hname]

/-- A field has the mark exactly when it is the field that the mark writes. -/
theorem validMark_infix (h : IsPlainField field) (hcolon : ¬ [':'] <+: rest)
    (hletter : ¬ ['v'] <+: rest) :
    validMark <:+: (quote field.1 ++ ":" ++ field.2.compact).toList ++ rest ↔
      field = ("valid", .bool true) ∨ validMark <:+: rest := by
  have hafter : validMark <:+: field.1.toList ++ '"' :: ':' :: (field.2.compact.toList ++ rest) ↔
      validMark <:+: rest := by
    have hend : ¬ validMark <+: '"' :: ':' :: (field.2.compact.toList ++ rest) := by
      rw [validMark_eq, List.cons_prefix_cons, List.cons_prefix_cons]
      exact fun hprefix => absurd hprefix.2.1 (by decide)
    rw [validMark_infix_append h.quote_not_mem, List.infix_cons_iff, or_iff_right hend,
      ← List.singleton_append, validMark_infix_append (by decide),
      validMark_infix_flat h.value hcolon hletter]
  rw [h.toList_eq, List.cons_append, List.append_assoc, List.cons_append, List.cons_append,
    List.infix_cons_iff, hafter]
  refine or_congr_left ⟨fun hprefix => ?_, fun hfield => ?_⟩
  · rw [validMark_eq, List.cons_prefix_cons] at hprefix
    have hword : ['v', 'a', 'l', 'i', 'd'] ++ '"' :: [':', 't', 'r', 'u', 'e'] <+:
        field.1.toList ++ '"' :: ':' :: (field.2.compact.toList ++ rest) := hprefix.2
    obtain ⟨hname, hmore⟩ := eq_and_rest_of_begins (by decide) h.quote_not_mem hword
    refine Prod.ext (String.toList_inj.1 (hname.symm.trans (by decide))) ?_
    exact eq_true_of_begins h.value (List.cons_prefix_cons.1 hmore).2
  · rw [hfield, validMark_eq, toList_compact_true]
    exact ⟨rest, by simp⟩

theorem oneLine (h : IsPlainField field) : OneLine (quote field.1 ++ ":" ++ field.2.compact) := by
  have hvalue : OneLine field.2.compact := by
    obtain ⟨name, value⟩ := field
    cases value with
    | bool truth => cases truth <;> exact .of (by decide)
    | string text => exact oneLine_quote text
    | null | number | array | object => cases h.value
  exact ((oneLine_quote field.1).append (.of (by decide))).append hvalue

end IsPlainField

end

/-! ## Objects -/

section

variable {fields : List (String × Json)}

/-- The fields of an object with what ends them. -/
def fieldsText (fields : List (String × Json)) : List Char :=
  (",".intercalate (compactFields fields)).toList ++ ['\x7d']

/-- The first field is followed by a comma or by the end, and then by the other fields. -/
theorem fieldsText_cons (field : String × Json) (fields : List (String × Json)) :
    ∃ c rest, fieldsText (field :: fields) =
      (quote field.1 ++ ":" ++ field.2.compact).toList ++ c :: rest ∧
      (c = ',' ∨ c = '\x7d') ∧ (validMark <:+: rest ↔ validMark <:+: fieldsText fields) := by
  cases fields with
  | nil =>
    refine ⟨'\x7d', [], ?_, .inr rfl, iff_of_false (by decide) ?_⟩
    · rw [fieldsText, compactFields, compactFields, String.intercalate_singleton]
    · rw [fieldsText, compactFields, String.intercalate_nil]
      decide
  | cons next fields =>
    refine ⟨',', fieldsText (next :: fields), ?_, .inl rfl, Iff.rfl⟩
    simp [fieldsText, compactFields, String.intercalate_cons_cons]

theorem validMark_infix_fieldsText (h : ∀ field ∈ fields, IsPlainField field) :
    validMark <:+: fieldsText fields ↔ ("valid", .bool true) ∈ fields := by
  induction fields with
  | nil =>
    rw [fieldsText, compactFields, String.intercalate_nil]
    exact iff_of_false (by decide) List.not_mem_nil
  | cons field fields ih =>
    obtain ⟨hfield, hfields⟩ := List.forall_mem_cons.1 h
    obtain ⟨c, rest, hsplit, hc, hrest⟩ := fieldsText_cons field fields
    have hfree : '"' ∉ [c] ∧ c ≠ ':' ∧ c ≠ 'v' := by
      rcases hc with rfl | rfl <;> decide
    have hfront : ∀ d, c ≠ d → ¬ [d] <+: c :: rest := fun d hd hprefix =>
      hd (List.cons_prefix_cons.1 hprefix).1.symm
    rw [hsplit, hfield.validMark_infix (hfront ':' hfree.2.1) (hfront 'v' hfree.2.2),
      ← List.singleton_append, validMark_infix_append hfree.1, hrest, ih hfields, List.mem_cons,
      eq_comm (a := field)]

/-- An object of plain fields has the mark exactly when it has the field that the mark writes. -/
theorem validMark_infix_object (h : ∀ field ∈ fields, IsPlainField field) :
    validMark <:+: (object fields).compact.toList ↔ ("valid", .bool true) ∈ fields := by
  have hobject : (object fields).compact.toList = ['\x7b'] ++ fieldsText fields := by
    simp [compact, fieldsText]
  rw [hobject, validMark_infix_append (by decide), validMark_infix_fieldsText h]

theorem oneLine_object (h : ∀ field ∈ fields, IsPlainField field) :
    OneLine (object fields).compact := by
  have hfields : OneLine (",".intercalate (compactFields fields)) := by
    induction fields with
    | nil => exact .of (by decide)
    | cons field fields ih =>
      obtain ⟨hfield, hfields⟩ := List.forall_mem_cons.1 h
      cases fields with
      | nil =>
        rw [compactFields, compactFields, String.intercalate_singleton]
        exact hfield.oneLine
      | cons next fields =>
        rw [compactFields, compactFields, String.intercalate_cons_cons]
        exact (hfield.oneLine.append (.of (by decide))).append (ih hfields)
  rw [compact]
  exact ((OneLine.of (by decide)).append hfields).append (.of (by decide))

end

/-! ## Lines about values -/

section

variable (json : Bool) (parameter value : String) (verdict : Except InvalidValue Unit)

/-- Whether a line says that a value is valid: one of data by the mark, one of text by its first word. -/
def SaysValid (line : String) : Prop :=
  if json then validMark <:+: line.toList else ['o', 'k'] <+: line.toList

theorem verdictJson_eq_object : ∃ fields, verdictJson parameter value verdict = object fields ∧
    (∀ field ∈ fields, IsPlainField field) ∧ (("valid", .bool true) ∈ fields ↔ verdict = .ok ()) := by
  cases verdict with
  | ok u =>
    refine ⟨_, rfl, ?_, by simp⟩
    simp only [List.forall_mem_cons]
    exact ⟨⟨by simp [escape], rfl⟩, ⟨by simp [escape], rfl⟩, ⟨by simp [escape], rfl⟩,
      List.forall_mem_nil _⟩
  | error invalid =>
    refine ⟨_, rfl, ?_, by simp⟩
    simp only [List.forall_mem_cons]
    exact ⟨⟨by simp [escape], rfl⟩, ⟨by simp [escape], rfl⟩, ⟨by simp [escape], rfl⟩,
      ⟨by simp [escape], rfl⟩, ⟨by simp [escape], rfl⟩, List.forall_mem_nil _⟩

/-- A line says that a value is valid exactly when the value is accepted. -/
theorem saysValid_verdictLine :
    SaysValid json (verdictLine json parameter value verdict) ↔ verdict = .ok () := by
  cases json with
  | true =>
    obtain ⟨fields, hobject, hplain, hmark⟩ := verdictJson_eq_object parameter value verdict
    show validMark <:+: (verdictJson parameter value verdict).compact.toList ↔ _
    rw [hobject, validMark_infix_object hplain, hmark]
  | false =>
    show ['o', 'k'] <+: (verdictText value verdict).toList ↔ _
    cases verdict <;> simp [verdictText]

/-- A line of data is one line. A line of text is one when it says nothing with a line feed in it. -/
theorem oneLine_verdictLine : OneLine (verdictLine json parameter value verdict) ↔
    json = true ∨
      OneLine value ∧ ∀ invalid, verdict = .error invalid → OneLine invalid.cause.message := by
  cases json with
  | true =>
    obtain ⟨fields, hobject, hplain, -⟩ := verdictJson_eq_object parameter value verdict
    refine iff_of_true ?_ (.inl rfl)
    show OneLine (verdictJson parameter value verdict).compact
    rw [hobject]
    exact oneLine_object hplain
  | false =>
    show OneLine (verdictText value verdict) ↔ _
    cases verdict <;> simp [verdictText, OneLine]

end

end Command

end OccurrenceQuery
