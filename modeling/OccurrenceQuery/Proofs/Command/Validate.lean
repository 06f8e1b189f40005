/-
The command that checks values. Under settings that are accepted it prints for each value, in the order
of the values, a line that says whether the value is accepted, and it succeeds when all of them are. What
is printed has a row for each value unless a value or an unknown name puts a line feed into a line of
text; in lines of data line feeds are escaped.
-/
import OccurrenceQuery.Proofs.Command.Settings
import OccurrenceQuery.Proofs.Command.Verdict

namespace OccurrenceQuery

open OccurrenceQuery.Text

/-! ## Built-in types -/

namespace ValueType

/-- Whether the vocabulary of a type, if it has one, is built in. -/
def IsBuiltin (type : ValueType) : Prop :=
  ∀ vocabulary, type = variant vocabulary → vocabulary ∈ Vocabulary.builtin

theorem IsBuiltin.isNamedInLine {type : ValueType} (h : type.IsBuiltin) : type.IsNamedInLine := by
  have hnames : ∀ vocabulary ∈ Vocabulary.builtin, OneLine vocabulary.name := by
    simp [OneLine, Vocabulary.builtin, Vocabulary.basisOfRecord, Vocabulary.continent,
      Vocabulary.endpointType, Vocabulary.establishmentMeans, Vocabulary.license,
      Vocabulary.mediaType, Vocabulary.typeStatus]
  cases type with
  | variant vocabulary => exact hnames vocabulary (h vocabulary rfl)
  | _ => trivial

theorem isBuiltin_of_mem_catalogue : ∀ p ∈ Parameter.catalogue, p.type.IsBuiltin := by
  simp [IsBuiltin, Parameter.catalogue, Vocabulary.builtin]

theorem isBuiltin_of_read {declaration : String} {type : ValueType}
    (h : read declaration = .ok type) : type.IsBuiltin := by
  have hwords : ∀ t ∈ words.map Prod.snd, ∀ vocabulary, t ≠ variant vocabulary := by
    simp [words, simple, aliases]
  intro vocabulary htype
  subst htype
  have hread : read? declaration = some (variant vocabulary) := by
    unfold read at h
    split at h
    · rename_i type hread
      rw [hread, Except.ok.inj h]
    · cases h
  unfold read? at hread
  dsimp only at hread
  split at hread
  · split at hread
    · rename_i rest _ _
      unfold Vocabulary.byName at hread
      split at hread
      · rename_i found hfound
        obtain rfl : found = vocabulary := by simpa [Except.toOption] using hread
        exact Vocabulary.mem_of_findByName? hfound
      · cases hread
    · cases hread
  · obtain ⟨before, after, hentries, -⟩ := List.lookup_eq_some_iff.1 hread
    refine absurd rfl (hwords (variant vocabulary) ?_ vocabulary)
    rw [hentries]
    simp

end ValueType

namespace Command

/-! ## Settings -/

namespace Settings

variable {s : Settings}

/-- Accepted settings make a registry, and the vocabularies of its types are built in. -/
theorem exists_registry (h : s.check = .ok ()) : ∃ r, s.registry = .ok r ∧
    ∀ name type, r.resolve? name = some type → type.IsBuiltin := by
  rw [check_eq_discard (hasLog_of_check h)] at h
  obtain ⟨r, hr⟩ := discard_eq_ok_iff.1 h
  obtain ⟨parameters, hdeclares, rfl⟩ := registry_eq_ok_iff.1 hr
  refine ⟨_, hr, fun name type hresolve => ?_⟩
  by_cases hname : ∃ entry ∈ s.parameters, Vocabulary.normalForm entry.1 = Vocabulary.normalForm name
  · obtain ⟨_, last, _, lastType, -, hread, -, -, hlast⟩ := hdeclares.resolve?_of_mem hname
    rw [hlast] at hresolve
    exact Option.some.inj hresolve ▸ ValueType.isBuiltin_of_read hread
  · rw [hdeclares.resolve?_of_not_mem fun entry hentry hsame => hname ⟨entry, hentry, hsame⟩] at hresolve
    obtain ⟨p, hget, rfl⟩ := Option.map_eq_some_iff.1 hresolve
    exact ValueType.isBuiltin_of_mem_catalogue p (Registry.get?_ofCatalogue_eq_some_iff.1 hget).1

end Settings

/-! ## Rows -/

/-- The rows of an output: each ends with a line feed. -/
def rows (output : String) : List String :=
  ((splitAll '\n' output.toList).dropLast).map String.ofList

theorem rows_output (o : Outcome) :
    rows o.output = o.lines.flatMap fun line => (splitAll '\n' line.toList).map String.ofList := by
  have hsplit : ∀ lines : List String,
      splitAll '\n' (String.join (lines.map fun line => line ++ "\n")).toList =
        lines.flatMap (fun line => splitAll '\n' line.toList) ++ [[]] := by
    intro lines
    induction lines with
    | nil => rfl
    | cons line lines ih =>
      have hline : (String.join ((line :: lines).map fun line => line ++ "\n")).toList =
          line.toList ++ '\n' :: (String.join (lines.map fun line => line ++ "\n")).toList := by
        simp
      rw [hline, splitAll_append_cons, ih, List.flatMap_cons, List.append_assoc]
  rw [rows, Outcome.output, hsplit, List.dropLast_concat, List.map_flatMap]

/-- The rows of an output are its lines, or a line has a line feed and there are more rows than lines. -/
theorem rows_output_cases (o : Outcome) :
    (∀ line ∈ o.lines, OneLine line) ∧ rows o.output = o.lines ∨
      (∃ line ∈ o.lines, ¬ OneLine line) ∧ o.lines.length < (rows o.output).length := by
  rw [rows_output]
  induction o.lines with
  | nil => exact .inl ⟨fun line hline => absurd hline List.not_mem_nil, rfl⟩
  | cons line lines ih =>
    rw [List.flatMap_cons, List.length_append, List.length_map, List.length_cons]
    have hparts : (splitAll '\n' line.toList).length ≠ 0 := fun hzero =>
      splitAll_ne_nil '\n' line.toList (List.length_eq_zero_iff.1 hzero)
    by_cases hline : OneLine line
    · rw [splitAll_eq_singleton hline, List.map_singleton, String.ofList_toList]
      rcases ih with ⟨hlines, hrows⟩ | ⟨⟨broken, hbroken, hfeed⟩, hlength⟩
      · refine .inl ⟨?_, by rw [hrows, List.singleton_append]⟩
        exact List.forall_mem_cons.2 ⟨hline, hlines⟩
      · refine .inr ⟨⟨broken, List.mem_cons_of_mem line hbroken, hfeed⟩, ?_⟩
        rw [List.length_singleton]
        omega
    · have hmore : (splitAll '\n' line.toList).length ≠ 1 := fun hone =>
        hline (length_splitAll_eq_one_iff.1 hone)
      refine .inr ⟨⟨line, List.mem_cons_self, hline⟩, ?_⟩
      rcases ih with ⟨-, hrows⟩ | ⟨-, hlength⟩
      · rw [hrows]
        omega
      · omega

/-! ## The command -/

/-- Whether there is a line for each value, in their order, that says whether the value is accepted. -/
def ReportEach (json : Bool) (accepts : String → Prop) (lines values : List String) : Prop :=
  List.Forall₂ (fun line value => SaysValid json line ↔ accepts value) lines values

/-- The line about a value is one unless the value, or the name it is given for when that is unknown,
has a line feed. -/
theorem oneLine_verdictLine_validateNamed {r : Registry} {parameter value : String}
    (hbuiltin : ∀ name type, r.resolve? name = some type → type.IsBuiltin) (json : Bool) :
    OneLine (verdictLine json parameter value (validateNamed r parameter value)) ↔
      json = true ∨ OneLine value ∧ ((r.resolve? parameter).isSome ∨ OneLine parameter) := by
  rw [oneLine_verdictLine]
  refine or_congr_right (and_congr_right fun hvalue => ?_)
  rw [Registry.validateNamed_eq]
  cases hresolve : r.resolve? parameter with
  | some type =>
    refine iff_of_true (fun invalid hinvalid => ?_) (.inl rfl)
    have hlines : Fails (fun invalid : InvalidValue => invalid.cause.RepeatsLines)
        ((check true type value).mapError fun cause => ⟨parameter, value, cause⟩) :=
      (lines_check true (hbuiltin _ _ hresolve).isNamedInLine hvalue).mapError fun _ => id
    exact (hlines invalid hinvalid).oneLine_message
  | none =>
    have hmessage : (Rejection.unknownParameter parameter).message =
        "unknown search parameter '" ++ parameter ++ "'" := rfl
    constructor
    · intro h
      have hline := h _ rfl
      rw [hmessage, OneLine, String.toList_append, String.toList_append] at hline
      exact .inr fun hmem => hline (List.mem_append_left _ (List.mem_append_right _ hmem))
    · intro h invalid hinvalid
      obtain rfl := Except.error.inj hinvalid
      exact Rejection.RepeatsLines.oneLine_message (h.resolve_left Bool.false_ne_true)

section

variable (json : Bool) (parameter : String) (verdict : String → Except InvalidValue Unit)

theorem reportEach_verdictLine (values : List String) :
    ReportEach json (fun v => verdict v = .ok ())
      (values.map fun v => verdictLine json parameter v (verdict v)) values := by
  rw [ReportEach, List.forall₂_map_left_iff]
  exact List.forall₂_same.2 fun v _ => saysValid_verdictLine json parameter v (verdict v)

/-- The rows of an output of lines about values report each of them exactly when each line is one. -/
theorem reportEach_rows_iff {o : Outcome} {values : List String}
    (hlines : o.lines = values.map fun v => verdictLine json parameter v (verdict v)) :
    ReportEach json (fun v => verdict v = .ok ()) (rows o.output) values ↔
      ∀ v ∈ values, OneLine (verdictLine json parameter v (verdict v)) := by
  rw [← List.forall_mem_map (P := OneLine), ← hlines]
  rcases rows_output_cases o with ⟨hall, hrows⟩ | ⟨⟨line, hline, hfeed⟩, hlength⟩
  · refine iff_of_true ?_ hall
    rw [hrows, hlines]
    exact reportEach_verdictLine json parameter verdict values
  · refine iff_of_false (fun h => ?_) fun h => hfeed (h line hline)
    have hcount := h.length_eq
    rw [hlines, List.length_map] at hlength
    omega

end

/-- A run that checks values prints the lines about them, and succeeds when all are accepted. -/
theorem runUnder_validate {s : Settings} {r : Registry} (hr : s.registry = .ok r) (config : Option String)
    (json : Bool) (parameter value : String) (others : List String) :
    (runUnder s ⟨.validate parameter value others, config, json⟩).report = none ∧
    (runUnder s ⟨.validate parameter value others, config, json⟩).lines =
      (value :: others).map (fun v => verdictLine json parameter v (validateNamed r parameter v)) ∧
    ((runUnder s ⟨.validate parameter value others, config, json⟩).status = 0 ↔
      ∀ v ∈ value :: others, validateNamed r parameter v = .ok ()) := by
  have hrun : runUnder s ⟨.validate parameter value others, config, json⟩ =
      ⟨(validateValues r json parameter (value :: others)).1,
        if (validateValues r json parameter (value :: others)).2 then 0 else 1, none, s.logsStart⟩ := by
    simp only [runUnder, execute, hr]
    rfl
  have htoBool : ∀ verdict : Except InvalidValue Unit, verdict.toBool = true ↔ verdict = .ok () := by
    intro verdict
    cases verdict <;> simp [Except.toBool]
  rw [hrun]
  generalize value :: others = values
  exact ⟨rfl, by simp [validateValues], by simp [validateValues, htoBool]⟩

/-- Under accepted settings the command prints a line for each value, in the order of the values, that
says whether the value is accepted, and it succeeds when all are. The rows of its output are these lines
exactly when lines of data are asked for, or no value has a line feed and the name of the parameter is
known or has none either. -/
theorem validate_reportEach {s : Settings} (h : s.check = .ok ()) (config : Option String)
    (json : Bool) (parameter value : String) (others : List String) :
    ∃ r o, s.registry = .ok r ∧
      runUnder s ⟨.validate parameter value others, config, json⟩ = o ∧ o.report = none ∧
      ReportEach json (fun v => validateNamed r parameter v = .ok ()) o.lines (value :: others) ∧
      (o.status = 0 ↔ ∀ v ∈ value :: others, validateNamed r parameter v = .ok ()) ∧
      (ReportEach json (fun v => validateNamed r parameter v = .ok ()) (rows o.output)
          (value :: others) ↔
        json = true ∨ (∀ v ∈ value :: others, OneLine v) ∧
          ((r.resolve? parameter).isSome ∨ OneLine parameter)) := by
  obtain ⟨r, hr, hbuiltin⟩ := Settings.exists_registry h
  obtain ⟨hreport, hlines, hstatus⟩ := runUnder_validate hr config json parameter value others
  refine ⟨r, _, hr, rfl, hreport, ?_, hstatus, ?_⟩
  · rw [hlines]
    exact reportEach_verdictLine json parameter (validateNamed r parameter) (value :: others)
  · rw [reportEach_rows_iff json parameter (validateNamed r parameter) hlines]
    simp only [oneLine_verdictLine_validateNamed hbuiltin]
    by_cases hjson : json = true
    · exact iff_of_true (fun _ _ => .inl hjson) (.inl hjson)
    refine ⟨fun hlines => .inr ⟨fun v hv => ((hlines v hv).resolve_left hjson).1, ?_⟩,
      fun hlines v hv => .inr ?_⟩
    · exact ((hlines value List.mem_cons_self).resolve_left hjson).2
    · obtain ⟨hfeeds, hname⟩ := hlines.resolve_left hjson
      exact ⟨hfeeds v hv, hname⟩

/-- Two values, one of which is accepted. -/
theorem validate_reportEach_years :
    Settings.standard.check = .ok () ∧ ∃ r, Settings.standard.registry = .ok r ∧
      ReportEach true (fun v => validateNamed r "YEAR" v = .ok ())
        (rows (runUnder .standard ⟨.validate "YEAR" "2019" ["last"], none, true⟩).output)
        ["2019", "last"] := by
  have hcheck : Settings.standard.check = .ok () := by decide
  obtain ⟨r, _, hr, rfl, -, -, -, hrows⟩ :=
    validate_reportEach hcheck none true "YEAR" "2019" ["last"]
  exact ⟨hcheck, r, hr, hrows.2 (.inl rfl)⟩

/-- A line feed in a value stands in the line about it as it is, and makes two rows of it. -/
theorem validate_line_feed : Settings.standard.check = .ok () ∧
    rows (runUnder .standard ⟨.validate "LOCALITY" "a\nb" [], none, false⟩).output =
      ["ok       a", "b"] ∧
    ∀ accepts, ¬ ReportEach false accepts
      (rows (runUnder .standard ⟨.validate "LOCALITY" "a\nb" [], none, false⟩).output) ["a\nb"] := by
  have hr : Settings.standard.registry = .ok (Registry.ofCatalogue.insertAll []) := rfl
  have hresolve : (Registry.ofCatalogue.insertAll []).resolve? "LOCALITY" = some .text := by
    rw [Registry.resolve?, (Registry.IsMade.catalogue.holds.insertAll []).found]
    decide
  have hverdict : validateNamed (Registry.ofCatalogue.insertAll []) "LOCALITY" "a\nb" = .ok () := by
    rw [validateNamed, hresolve]
    decide
  have hlines := (runUnder_validate hr none false "LOCALITY" "a\nb" []).2.1
  have hrows : rows (runUnder .standard ⟨.validate "LOCALITY" "a\nb" [], none, false⟩).output =
      ["ok       a", "b"] := by
    rw [List.map_singleton, hverdict] at hlines
    rw [Outcome.output, hlines]
    decide
  refine ⟨by decide, hrows, fun accepts h => ?_⟩
  rw [hrows] at h
  exact absurd h.length_eq (by decide)

end Command

end OccurrenceQuery
