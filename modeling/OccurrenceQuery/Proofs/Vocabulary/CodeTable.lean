/-
Looking up in tables of names with codes. Codes are compared between white space and in any case, names
in their normal forms, and codes are tried before names. In the tables of countries and of languages no
two entries share a key of any of these kinds and no code of one entry is the name of another, so a text
has one answer at most, in whatever order the entries are tried.
-/
import OccurrenceQuery.Proofs.Vocabulary.Name
import OccurrenceQuery.Vocabulary.CodeTable

namespace OccurrenceQuery.Vocabulary

open OccurrenceQuery.Text

/-! ## Keys of an entry -/

namespace CodedName

/-- Whether a text is the code of two letters of an entry, in any case, between white space. -/
def HasAlpha2 (e : CodedName) (text : String) : Prop :=
  asciiLower (trim text.toList) = asciiLower e.alpha2.toList

/-- Whether a text is the code of three letters of an entry, in any case, between white space. -/
def HasAlpha3 (e : CodedName) (text : String) : Prop :=
  asciiLower (trim text.toList) = asciiLower e.alpha3.toList

/-- Whether a text is a spelling of the name of an entry. -/
def HasName (e : CodedName) (text : String) : Prop := normalForm text = normalForm e.name

/-- Whether a text stands for an entry. -/
def Answers (e : CodedName) (text : String) : Prop :=
  (e.HasAlpha2 text ∨ e.HasAlpha3 text) ∨ e.HasName text

end CodedName

namespace CodeTable

/-! ## Tables without collisions -/

/-- Whether a code is a word of so many letters, in the case of the table. -/
structure IsCode (writeCode : List Char → List Char) (letters : Nat) (code : String) : Prop where
  size : code.utf8ByteSize = letters
  length : code.toList.length = letters
  written : writeCode code.toList = code.toList
  alpha : ∀ c ∈ code.toList, c.isAlpha = true

/-- A table in which a text has one answer at most: its keys of each kind are different, and no code of
an entry is a spelling of the name of another. -/
structure IsUnambiguous (table : CodeTable) : Prop where
  writeCode_eq_iff : ∀ cs ds, table.writeCode cs = table.writeCode ds ↔ asciiLower cs = asciiLower ds
  normalForm_of_isNameless : ∀ text, table.isNameless text = true → normalForm text = ""
  isCode_alpha2 : ∀ e ∈ table.entries, IsCode table.writeCode 2 e.alpha2
  isCode_alpha3 : ∀ e ∈ table.entries, IsCode table.writeCode 3 e.alpha3
  named : ∀ e ∈ table.entries, normalLetters e.name.toList ≠ []
  alpha : ∀ e ∈ table.entries, ∀ c ∈ normalLetters e.name.toList, c.isAlpha = true
  nodup_alpha2 : (table.entries.map CodedName.alpha2).Nodup
  nodup_alpha3 : (table.entries.map CodedName.alpha3).Nodup
  nodup_name : ((table.entries.map CodedName.name).map normalForm).Nodup
  unshadowed : ∀ f ∈ table.entries, (normalLetters f.name.toList).length ≤ 3 → ∀ e ∈ table.entries,
    ∀ code ∈ [e.alpha2, e.alpha3], normalLetters code.toList = normalLetters f.name.toList → e = f

/-- The order of the entries does not matter to this. -/
theorem IsUnambiguous.perm {table : CodeTable} (h : table.IsUnambiguous) {entries : List CodedName}
    (hperm : entries.Perm table.entries) : IsUnambiguous { table with entries := entries } where
  writeCode_eq_iff := h.writeCode_eq_iff
  normalForm_of_isNameless := h.normalForm_of_isNameless
  isCode_alpha2 e he := h.isCode_alpha2 e (hperm.mem_iff.1 he)
  isCode_alpha3 e he := h.isCode_alpha3 e (hperm.mem_iff.1 he)
  named e he := h.named e (hperm.mem_iff.1 he)
  alpha e he := h.alpha e (hperm.mem_iff.1 he)
  nodup_alpha2 := (hperm.map _).nodup_iff.2 h.nodup_alpha2
  nodup_alpha3 := (hperm.map _).nodup_iff.2 h.nodup_alpha3
  nodup_name := ((hperm.map _).map _).nodup_iff.2 h.nodup_name
  unshadowed f hf hlength e he := h.unshadowed f (hperm.mem_iff.1 hf) hlength e (hperm.mem_iff.1 he)

/-! ## The passes -/

section

variable {table : CodeTable} {text code : String} {e f : CodedName} {letters : Nat}

theorem IsCode.eq_ofList_iff (h : table.IsUnambiguous) (hcode : IsCode table.writeCode letters code)
    {cs : List Char} :
    code = String.ofList (table.writeCode cs) ↔ asciiLower cs = asciiLower code.toList := by
  rw [← h.writeCode_eq_iff, hcode.written, ← String.toList_inj, String.toList_ofList, eq_comm]

/-- The pass over the codes finds the entry that has the text as a code. -/
theorem byCode?_eq_some_iff (h : table.IsUnambiguous) :
    table.byCode? text = some e ↔ e ∈ table.entries ∧ (e.HasAlpha2 text ∨ e.HasAlpha3 text) := by
  unfold byCode?
  constructor
  · intro hfind
    dsimp only at hfind
    split at hfind
    · obtain ⟨he, hcode⟩ := (find?_key_eq_some_iff h.nodup_alpha2).1 hfind
      exact ⟨he, .inl ((IsCode.eq_ofList_iff h (h.isCode_alpha2 e he)).1 hcode)⟩
    · obtain ⟨he, hcode⟩ := (find?_key_eq_some_iff h.nodup_alpha3).1 hfind
      exact ⟨he, .inr ((IsCode.eq_ofList_iff h (h.isCode_alpha3 e he)).1 hcode)⟩
    · cases hfind
  · rintro ⟨he, hcode | hcode⟩
    · rw [← (IsCode.eq_ofList_iff h (h.isCode_alpha2 e he)).2 hcode]
      simp only [(h.isCode_alpha2 e he).size]
      exact (find?_key_eq_some_iff h.nodup_alpha2).2 ⟨he, rfl⟩
    · rw [← (IsCode.eq_ofList_iff h (h.isCode_alpha3 e he)).2 hcode]
      simp only [(h.isCode_alpha3 e he).size]
      exact (find?_key_eq_some_iff h.nodup_alpha3).2 ⟨he, rfl⟩

/-- The pass over the names finds the entry whose name the text is a spelling of. -/
theorem byName?_eq_some_iff (h : table.IsUnambiguous) :
    table.byName? text = some e ↔ e ∈ table.entries ∧ e.HasName text := by
  unfold byName?
  split
  · rename_i hnameless
    refine iff_of_false nofun fun ⟨he, hname⟩ => h.named e he ?_
    have hempty : normalForm e.name = "" := hname.symm.trans (h.normalForm_of_isNameless text hnameless)
    exact String.ofList_eq_empty_iff.1 hempty
  · rw [findByName?_eq_some_iff h.nodup_name, CodedName.HasName, eq_comm (a := normalForm e.name)]

/-! ## Codes and names -/

/-- White space is not a part of a name unless it is a separator. -/
theorem normalLetters_spaces {blanks : List Char} (hblanks : Spaces blanks)
    (halpha : ∀ c ∈ normalLetters blanks, c.isAlpha = true) : normalLetters blanks = [] := by
  refine normalLetters_separators fun c hc => ?_
  by_contra hseparator
  have hmem : c ∈ normalLetters blanks := List.mem_flatMap.2
    ⟨c, List.mem_filter.2 ⟨hc, by simpa using hseparator⟩, by simp [upper_of_isWhiteSpace (hblanks c hc)]⟩
  exact not_inRanges_of_isAlpha (by decide) (halpha c hmem) (hblanks c hc)

/-- A text that has only letters in its normal form has the normal form of what stands between its white
space. -/
theorem normalLetters_trim {cs : List Char} (halpha : ∀ c ∈ normalLetters cs, c.isAlpha = true) :
    normalLetters (trim cs) = normalLetters cs := by
  obtain ⟨left, right, hcs, hleft, hright⟩ := exists_trim cs
  have hparts : normalLetters cs =
      normalLetters left ++ normalLetters (trim cs) ++ normalLetters right := by
    rw [← normalLetters_append, ← normalLetters_append, ← hcs]
  rw [hparts, List.forall_mem_append, List.forall_mem_append] at halpha
  rw [hparts, normalLetters_spaces hleft halpha.1.1, normalLetters_spaces hright halpha.2, List.nil_append,
    List.append_nil]

theorem IsCode.length_normalLetters {writeCode : List Char → List Char}
    (hcode : IsCode writeCode letters code) : (normalLetters code.toList).length = letters := by
  rw [normalLetters_of_isAlpha hcode.alpha, asciiUpper, List.length_map, hcode.length]

/-- A text that is a code of one entry and a spelling of the name of another does not exist. -/
theorem eq_of_code_of_name (h : table.IsUnambiguous) (he : e ∈ table.entries) (hf : f ∈ table.entries)
    (hcode : e.HasAlpha2 text ∨ e.HasAlpha3 text) (hname : f.HasName text) : e = f := by
  have hletters : normalLetters text.toList = normalLetters f.name.toList := normalForm_eq_iff.1 hname
  have htrim := normalLetters_trim (hletters ▸ h.alpha f hf)
  have hshort : ∀ {letters : Nat} {code : String}, IsCode table.writeCode letters code → letters ≤ 3 →
      asciiLower (trim text.toList) = asciiLower code.toList →
      normalLetters code.toList = normalLetters f.name.toList ∧
        (normalLetters f.name.toList).length ≤ 3 := by
    intro letters code hcode hle hsame
    have hcodeName := (normalLetters_congr hsame).symm.trans (htrim.trans hletters)
    exact ⟨hcodeName, by rw [← hcodeName, hcode.length_normalLetters]; exact hle⟩
  rcases hcode with halpha2 | halpha3
  · obtain ⟨heq, hlength⟩ := hshort (h.isCode_alpha2 e he) (by decide) halpha2
    exact h.unshadowed f hf hlength e he e.alpha2 (by simp) heq
  · obtain ⟨heq, hlength⟩ := hshort (h.isCode_alpha3 e he) le_rfl halpha3
    exact h.unshadowed f hf hlength e he e.alpha3 (by simp) heq

/-! ## Both passes -/

theorem lookup_eq_ok_iff (h : table.IsUnambiguous) :
    table.lookup text = .ok e ↔ e ∈ table.entries ∧ e.Answers text := by
  have hpasses : table.lookup text = .ok e ↔ (table.byCode? text).or (table.byName? text) = some e := by
    unfold lookup
    cases (table.byCode? text).or (table.byName? text) <;> simp
  rw [hpasses, Option.or_eq_some_iff]
  constructor
  · rintro (hcode | ⟨-, hname⟩)
    · exact ((byCode?_eq_some_iff h).1 hcode).imp_right .inl
    · exact ((byName?_eq_some_iff h).1 hname).imp_right .inr
  · rintro ⟨he, hcode | hname⟩
    · exact .inl ((byCode?_eq_some_iff h).2 ⟨he, hcode⟩)
    · cases hfirst : table.byCode? text with
      | none => exact .inr ⟨rfl, (byName?_eq_some_iff h).2 ⟨he, hname⟩⟩
      | some found =>
        obtain ⟨hfound, hcode⟩ := (byCode?_eq_some_iff h).1 hfirst
        exact .inl (congrArg some (eq_of_code_of_name h hfound he hcode hname))

theorem lookup_eq_error (h : table.IsUnambiguous) (hnone : ∀ e ∈ table.entries, ¬ e.Answers text) :
    table.lookup text = .error (.unknownVariant table.vocabulary text) := by
  cases hlookup : table.lookup text with
  | ok e =>
    obtain ⟨he, hanswers⟩ := (lookup_eq_ok_iff h).1 hlookup
    exact absurd hanswers (hnone e he)
  | error fault =>
    unfold lookup at hlookup
    split at hlookup
    · cases hlookup
    · exact hlookup.symm

theorem answers_unique (h : table.IsUnambiguous) (he : e ∈ table.entries) (hf : f ∈ table.entries)
    (hanswerE : e.Answers text) (hanswerF : f.Answers text) : e = f := by
  have hlookup := (lookup_eq_ok_iff h).2 ⟨he, hanswerE⟩
  exact Except.ok.inj (hlookup.symm.trans ((lookup_eq_ok_iff h).2 ⟨hf, hanswerF⟩))

/-- The order in which the entries are tried changes no answer. -/
theorem lookup_perm (h : table.IsUnambiguous) {entries : List CodedName}
    (hperm : entries.Perm table.entries) :
    lookup { table with entries := entries } text = table.lookup text := by
  cases hlookup : table.lookup text with
  | ok e =>
    obtain ⟨he, hanswers⟩ := (lookup_eq_ok_iff h).1 hlookup
    exact (lookup_eq_ok_iff (h.perm hperm)).2 ⟨hperm.mem_iff.2 he, hanswers⟩
  | error fault =>
    have hnone : ∀ e ∈ table.entries, ¬ e.Answers text := by
      intro e he hanswers
      cases hlookup.symm.trans ((lookup_eq_ok_iff h).2 ⟨he, hanswers⟩)
    rw [lookup_eq_error (h.perm hperm) fun e he => hnone e (hperm.mem_iff.1 he), ← hlookup,
      lookup_eq_error h hnone]

end

/-! ## Countries and languages -/

/-- Whether a text is a code of so many letters in the case of its table. This can be computed of a whole
table. -/
def isCode (writeCode : List Char → List Char) (letters : Nat) (code : String) : Bool :=
  isPlain code && code.utf8ByteSize == letters && (plainText code).length == letters &&
    writeCode (plainText code) == plainText code && (plainText code).all Char.isAlpha

theorem isPlain_of_isCode {writeCode : List Char → List Char} {letters : Nat} {code : String}
    (h : isCode writeCode letters code = true) : isPlain code = true := by
  simp only [isCode, Bool.and_eq_true] at h
  exact h.1.1.1.1

theorem IsCode.of_isCode {writeCode : List Char → List Char} {letters : Nat} {code : String}
    (h : isCode writeCode letters code = true) : IsCode writeCode letters code := by
  simp only [isCode, Bool.and_eq_true, beq_iff_eq, List.all_eq_true] at h
  obtain ⟨⟨⟨⟨hplain, hsize⟩, hlength⟩, hwritten⟩, halpha⟩ := h
  rw [← toList_eq_plainText hplain] at hlength hwritten halpha
  exact ⟨hsize, hlength, hwritten, halpha⟩

/-- What is computed of a table of ASCII: the keys of each entry are words of letters, different from the
keys of the others, and a name as short as a code is a code of no other entry. -/
structure IsChecked (table : CodeTable) : Prop where
  alpha2 : (table.entries.all fun e => isCode table.writeCode 2 e.alpha2) = true
  alpha3 : (table.entries.all fun e => isCode table.writeCode 3 e.alpha3) = true
  name : (table.entries.all fun e => !(normalLetters (plainText e.name)).isEmpty &&
    (normalLetters (plainText e.name)).all Char.isAlpha) = true
  alpha2_differ : allDifferent (table.entries.map fun e => packed (plainText e.alpha2)) = true
  alpha3_differ : allDifferent (table.entries.map fun e => packed (plainText e.alpha3)) = true
  names_differ : namesDiffer (table.entries.map CodedName.name) = true
  unshadowed : (table.entries.all fun f => Nat.blt 3 (normalLetters (plainText f.name)).length ||
    table.entries.all fun e => [e.alpha2, e.alpha3].all fun code =>
      !(normalLetters (plainText code) == normalLetters (plainText f.name)) || e == f) = true

theorem IsChecked.isUnambiguous {table : CodeTable} (h : table.IsChecked)
    (hwrite : ∀ cs ds, table.writeCode cs = table.writeCode ds ↔ asciiLower cs = asciiLower ds)
    (hnameless : ∀ text, table.isNameless text = true → normalForm text = "") : table.IsUnambiguous := by
  have halpha2 := List.all_eq_true.1 h.alpha2
  have halpha3 := List.all_eq_true.1 h.alpha3
  have hplain : ∀ e ∈ table.entries, isPlain e.name = true := fun e he =>
    List.all_eq_true.1 (Bool.and_eq_true_iff.1 h.names_differ).1 e.name (List.mem_map_of_mem he)
  have hname : ∀ e ∈ table.entries, normalLetters e.name.toList ≠ [] ∧
      ∀ c ∈ normalLetters e.name.toList, c.isAlpha = true := by
    intro e he
    rw [toList_eq_plainText (hplain e he)]
    simpa using List.all_eq_true.1 h.name e he
  have hcode : ∀ e ∈ table.entries, ∀ code ∈ [e.alpha2, e.alpha3], isPlain code = true := by
    intro e he code hcode
    simp only [List.mem_cons, List.not_mem_nil, or_false] at hcode
    rcases hcode with rfl | rfl
    · exact isPlain_of_isCode (halpha2 e he)
    · exact isPlain_of_isCode (halpha3 e he)
  refine ⟨hwrite, hnameless, fun e he => .of_isCode (halpha2 e he), fun e he => .of_isCode (halpha3 e he),
    fun e he => (hname e he).1, fun e he => (hname e he).2,
    .of_map (fun code => packed (plainText code)) ?_, .of_map (fun code => packed (plainText code)) ?_,
    nodup_of_namesDiffer h.names_differ, fun f hf hlength e he code hmem hsame => ?_⟩
  · rw [List.map_map]
    exact nodup_of_allDifferent h.alpha2_differ
  · rw [List.map_map]
    exact nodup_of_allDifferent h.alpha3_differ
  · rw [toList_eq_plainText (hplain f hf)] at hlength hsame
    rw [toList_eq_plainText (hcode e he code hmem)] at hsame
    rcases Bool.or_eq_true_iff.1 (List.all_eq_true.1 h.unshadowed f hf) with hlong | hothers
    · rw [Nat.blt_eq] at hlong
      omega
    · have hcodes := List.all_eq_true.1 (List.all_eq_true.1 hothers e he) code hmem
      simpa [hsame] using hcodes

theorem isChecked_countries : countries.IsChecked where
  alpha2 := by decide +kernel
  alpha3 := by decide +kernel
  name := by decide +kernel
  alpha2_differ := by decide +kernel
  alpha3_differ := by decide +kernel
  names_differ := by decide +kernel
  unshadowed := by decide +kernel

theorem isChecked_languages : languages.IsChecked where
  alpha2 := by decide +kernel
  alpha3 := by decide +kernel
  name := by decide +kernel
  alpha2_differ := by decide +kernel
  alpha3_differ := by decide +kernel
  names_differ := by decide +kernel
  unshadowed := by decide +kernel

theorem asciiUpper_eq_iff (cs ds : List Char) :
    asciiUpper cs = asciiUpper ds ↔ asciiLower cs = asciiLower ds := by
  have hlower : ∀ cs : List Char, asciiLower (asciiUpper cs) = asciiLower cs := by
    simp [asciiLower, asciiUpper, Char.toLower_toUpper_eq_toLower]
  have hupper : ∀ cs : List Char, asciiUpper (asciiLower cs) = asciiUpper cs := by
    simp [asciiLower, asciiUpper, Char.toUpper_toLower_eq_toUpper]
  refine ⟨fun h => ?_, fun h => ?_⟩
  · rw [← hlower cs, h, hlower]
  · rw [← hupper cs, h, hupper]

theorem isUnambiguous_countries : countries.IsUnambiguous := by
  refine isChecked_countries.isUnambiguous asciiUpper_eq_iff fun text hempty => ?_
  rw [String.isEmpty_iff.1 hempty]
  rfl

theorem isUnambiguous_languages : languages.IsUnambiguous :=
  isChecked_languages.isUnambiguous (fun _ _ => Iff.rfl) fun _ hempty => String.isEmpty_iff.1 hempty

/-- Countries and languages have one answer to a text. At most one entry has the text as its code of two
letters, as its code of three letters or as its name, and each pass finds that entry, so that the order
of the entries does not matter; the entry that the text names or is a code of is the answer, and there is
none when there is no such entry. -/
theorem lookup_has_one_answer {table : CodeTable} (htable : table = countries ∨ table = languages)
    (text : String) :
    (∀ e ∈ table.entries, ∀ f ∈ table.entries, (e.HasAlpha2 text → f.HasAlpha2 text → e = f) ∧
      (e.HasAlpha3 text → f.HasAlpha3 text → e = f) ∧ (e.HasName text → f.HasName text → e = f)) ∧
    (∀ e, table.byCode? text = some e ↔ e ∈ table.entries ∧ (e.HasAlpha2 text ∨ e.HasAlpha3 text)) ∧
    (∀ e, table.byName? text = some e ↔ e ∈ table.entries ∧ e.HasName text) ∧
    (∀ entries : List CodedName, entries.Perm table.entries →
      lookup { table with entries := entries } text = table.lookup text) ∧
    (∀ e ∈ table.entries, e.HasName text → table.lookup text = .ok e) ∧
    (∀ e ∈ table.entries, e.HasAlpha2 text ∨ e.HasAlpha3 text → table.lookup text = .ok e) ∧
    ((∀ e ∈ table.entries, ¬ e.Answers text) →
      table.lookup text = .error (.unknownVariant table.vocabulary text)) := by
  have h : table.IsUnambiguous := by
    rcases htable with rfl | rfl
    · exact isUnambiguous_countries
    · exact isUnambiguous_languages
  refine ⟨fun e he f hf => ⟨fun hE hF => ?_, fun hE hF => ?_, fun hE hF => ?_⟩,
    fun e => byCode?_eq_some_iff h, fun e => byName?_eq_some_iff h, fun entries hperm => lookup_perm h hperm,
    fun e he hname => (lookup_eq_ok_iff h).2 ⟨he, .inr hname⟩,
    fun e he hcode => (lookup_eq_ok_iff h).2 ⟨he, .inl hcode⟩, lookup_eq_error h⟩
  · exact answers_unique h he hf (.inl (.inl hE)) (.inl (.inl hF))
  · exact answers_unique h he hf (.inl (.inr hE)) (.inl (.inr hF))
  · exact answers_unique h he hf (.inr hE) (.inr hF)

/-- A code between white space of other scripts, which is a name as well, and a name with a ligature. -/
theorem lookup_has_one_answer_laos :
    ⟨"LA", "LAO", "LAO"⟩ ∈ countries.entries ∧ CodedName.HasAlpha3 ⟨"LA", "LAO", "LAO"⟩ "\tlAo\u3000" ∧
    countries.lookup "\tlAo\u3000" = .ok ⟨"LA", "LAO", "LAO"⟩ ∧
    ⟨"fi", "fin", "FINNISH"⟩ ∈ languages.entries ∧ CodedName.HasName ⟨"fi", "fin", "FINNISH"⟩ "ﬁnn-ish" ∧
    languages.lookup "ﬁnn-ish" = .ok ⟨"fi", "fin", "FINNISH"⟩ := by
  have hlaos : ⟨"LA", "LAO", "LAO"⟩ ∈ countries.entries := by decide +kernel
  have hcode : CodedName.HasAlpha3 ⟨"LA", "LAO", "LAO"⟩ "\tlAo\u3000" := by
    unfold CodedName.HasAlpha3
    decide
  have hfinnish : ⟨"fi", "fin", "FINNISH"⟩ ∈ languages.entries := by decide +kernel
  have hname : CodedName.HasName ⟨"fi", "fin", "FINNISH"⟩ "ﬁnn-ish" := by
    unfold CodedName.HasName
    decide
  obtain ⟨-, -, -, -, -, hcodes, -⟩ := lookup_has_one_answer (.inl rfl) "\tlAo\u3000"
  obtain ⟨-, -, -, -, hnames, -, -⟩ := lookup_has_one_answer (.inr rfl) "ﬁnn-ish"
  exact ⟨hlaos, hcode, hcodes _ hlaos (.inr hcode), hfinnish, hname, hnames _ hfinnish hname⟩

end CodeTable

end OccurrenceQuery.Vocabulary
