/-
Parameters of the settings. Settings with a log that exists are accepted exactly when they make a registry,
and both fail at the first parameter by name whose type cannot be read. In the registry the parameters of
the settings lie over those of the catalogue: of several spellings of one name the last in the order of
bytes is found, and a name that the settings do not have is found as in the catalogue.
-/
import OccurrenceQuery.Command.Settings
import OccurrenceQuery.Proofs.Parameter.Catalogue
import OccurrenceQuery.Proofs.Rejection

namespace OccurrenceQuery

open OccurrenceQuery.Text OccurrenceQuery.Vocabulary

/-! ## Lists of results -/

section

variable {α β ε : Type} {f : α → Except ε β}

theorem mapM_eq_ok_iff : ∀ {as : List α} {bs : List β},
    as.mapM f = .ok bs ↔ List.Forall₂ (fun a b => f a = .ok b) as bs
  | [], bs => by
    rw [List.mapM_nil, List.forall₂_nil_left_iff]
    exact ⟨fun h => (Except.ok.inj h).symm, fun h => h ▸ rfl⟩
  | a :: as, bs => by
    rw [List.mapM_cons, bind_eq_ok_iff, List.forall₂_cons_left_iff]
    constructor
    · rintro ⟨b, hb, hrest⟩
      obtain ⟨rest, hrest, hbs⟩ := bind_eq_ok_iff.1 hrest
      exact ⟨b, rest, hb, mapM_eq_ok_iff.1 hrest, (Except.ok.inj hbs).symm⟩
    · rintro ⟨b, rest, hb, hrest, rfl⟩
      exact ⟨b, hb, bind_eq_ok_iff.2 ⟨rest, mapM_eq_ok_iff.2 hrest, rfl⟩⟩

/-- A list of results fails with the first of them that fails. -/
theorem exists_of_mapM_eq_error {e : ε} : ∀ {as : List α}, as.mapM f = .error e →
    ∃ before a after, as = before ++ a :: after ∧ (∀ x ∈ before, ∃ b, f x = .ok b) ∧ f a = .error e
  | [], h => by cases h
  | a :: as, h => by
    rw [List.mapM_cons] at h
    cases ha : f a with
    | error e' =>
      rw [ha] at h
      obtain rfl : e' = e := Except.error.inj h
      exact ⟨[], a, as, rfl, fun _ hx => absurd hx List.not_mem_nil, ha⟩
    | ok b =>
      rw [ha] at h
      have hrest : as.mapM f = .error e := by
        cases hmap : as.mapM f with
        | error e' => rw [hmap] at h; exact h
        | ok bs => rw [hmap] at h; cases h
      obtain ⟨before, x, after, rfl, hbefore, hx⟩ := exists_of_mapM_eq_error hrest
      exact ⟨a :: before, x, after, rfl, List.forall_mem_cons.2 ⟨⟨b, ha⟩, hbefore⟩, hx⟩

theorem forM_discard : ∀ as : List α, as.forM (fun a => discard (f a)) = discard (as.mapM f)
  | [] => rfl
  | a :: as => by
    have hcons : (a :: as).forM (fun a => discard (f a)) =
      discard (f a) >>= fun _ => as.forM fun a => discard (f a) := rfl
    rw [hcons, forM_discard as, List.mapM_cons]
    cases f a with
    | error e => rfl
    | ok b => cases as.mapM f <;> rfl

end

namespace Command.Settings

/-! ## Single parameters -/

variable {s : Settings} {name declaration : String} {p : Parameter}

/-- What is complained of a parameter whose type cannot be read. -/
def unreadable (name complaint : String) : Report := ⟨s!"Invalid type for parameter '{name}'", some complaint⟩

theorem parameterOf_eq_ok_iff : parameterOf name declaration = .ok p ↔
    p.name = name ∧ ValueType.read declaration = .ok p.type := by
  unfold parameterOf withContext
  cases ValueType.read declaration with
  | error complaint => exact iff_of_false nofun fun h => nomatch h.2
  | ok type =>
    obtain ⟨pname, ptype⟩ := p
    exact ⟨fun h => by cases h; exact ⟨rfl, rfl⟩, fun ⟨hname, htype⟩ => by cases hname; cases htype; rfl⟩

theorem parameterOf_eq_error_iff {report : Report} : parameterOf name declaration = .error report ↔
    ∃ complaint, ValueType.read declaration = .error complaint ∧ report = unreadable name complaint := by
  unfold parameterOf withContext
  cases ValueType.read declaration with
  | ok type => exact iff_of_false nofun fun ⟨_, h, _⟩ => nomatch h
  | error complaint =>
    exact ⟨fun h => ⟨complaint, rfl, (Except.error.inj h).symm⟩, fun ⟨_, h, hreport⟩ => by
      cases h
      exact hreport ▸ rfl⟩

/-! ## The registry -/

/-- The parameters that declarations make, one for each and in their order. -/
def Declares (entries : List (String × String)) (parameters : List Parameter) : Prop :=
  List.Forall₂ (fun entry p => p.name = entry.1 ∧ ValueType.read entry.2 = .ok p.type) entries parameters

theorem registry_eq_ok_iff {r : Registry} : s.registry = .ok r ↔
    ∃ parameters, Declares s.parameters parameters ∧ r = Registry.ofCatalogue.insertAll parameters := by
  rw [registry, bind_eq_ok_iff]
  refine exists_congr fun parameters => and_congr ?_ ⟨fun h => (Except.ok.inj h).symm, fun h => h ▸ rfl⟩
  rw [mapM_eq_ok_iff, Declares]
  simp only [parameterOf_eq_ok_iff]

/-- No registry is made when a type cannot be read, and the first such parameter is the one complained
of. -/
theorem exists_of_registry_eq_error {report : Report} (h : s.registry = .error report) :
    ∃ before entry after complaint, s.parameters = before ++ entry :: after ∧
      (∀ e ∈ before, ∃ type, ValueType.read e.2 = .ok type) ∧
      ValueType.read entry.2 = .error complaint ∧ report = unreadable entry.1 complaint := by
  unfold registry at h
  cases hmap : s.parameters.mapM fun entry => parameterOf entry.1 entry.2 with
  | ok parameters => rw [hmap] at h; cases h
  | error e =>
    rw [hmap] at h
    obtain rfl : e = report := Except.error.inj h
    obtain ⟨before, entry, after, hsplit, hbefore, hentry⟩ := exists_of_mapM_eq_error hmap
    obtain ⟨complaint, hread, hreport⟩ := parameterOf_eq_error_iff.1 hentry
    refine ⟨before, entry, after, complaint, hsplit, fun e he => ?_, hread, hreport⟩
    obtain ⟨p, hp⟩ := hbefore e he
    exact ⟨p.type, (parameterOf_eq_ok_iff.1 hp).2⟩

/-- Whether the level and the rotation of the log exist. -/
def HasLog (s : Settings) : Prop := s.effectiveLevel ∈ levels ∧ s.rotation ∈ rotations

theorem hasLog_of_check (h : s.check = .ok ()) : s.HasLog := by
  unfold check at h
  by_cases hlevel : levels.contains s.effectiveLevel = true
  · by_cases hrotation : rotations.contains s.rotation = true
    · exact ⟨List.contains_iff_mem.1 hlevel, List.contains_iff_mem.1 hrotation⟩
    · rw [hlevel, Bool.eq_false_iff.2 hrotation] at h
      cases h
  · rw [Bool.eq_false_iff.2 hlevel] at h
    cases h

/-- Settings with a log that exists are checked by making their registry. -/
theorem check_eq_discard (h : s.HasLog) : s.check = discard s.registry := by
  have hparameters : s.check = s.parameters.forM fun entry => discard (parameterOf entry.1 entry.2) := by
    unfold check
    rw [List.contains_iff_mem.2 h.1, List.contains_iff_mem.2 h.2]
    rfl
  rw [hparameters, forM_discard, registry]
  cases s.parameters.mapM (fun entry => parameterOf entry.1 entry.2) <;> rfl

/-! ## Layers -/

variable {entries : List (String × String)} {parameters : List Parameter}

theorem Declares.map_name (h : Declares entries parameters) :
    parameters.map Parameter.name = entries.map Prod.fst := by
  induction h with
  | nil => rfl
  | cons hentry _ ih => rw [List.map_cons, List.map_cons, hentry.1, ih]

theorem Declares.exists_of_mem (h : Declares entries parameters) {entry : String × String}
    (hentry : entry ∈ entries) : ∃ p ∈ parameters, p.name = entry.1 ∧ ValueType.read entry.2 = .ok p.type := by
  induction h with
  | nil => cases hentry
  | @cons head p _ _ hhead _ ih =>
    rcases List.mem_cons.1 hentry with rfl | hmem
    · exact ⟨p, List.mem_cons_self, hhead⟩
    · exact (ih hmem).imp fun q hq => ⟨List.mem_cons_of_mem p hq.1, hq.2⟩

theorem Declares.map_key (h : Declares entries parameters) :
    parameters.map Parameter.key = entries.map fun entry => normalForm entry.1 := by
  have hkeys := congrArg (List.map normalForm) h.map_name
  rwa [List.map_map, List.map_map] at hkeys

/-- The last declaration under a name is the one that the last parameter under it comes from. -/
theorem Declares.exists_last (h : Declares entries parameters) (hlast : lastNamed? parameters name = some p) :
    ∃ before entry after, entries = before ++ entry :: after ∧ ValueType.read entry.2 = .ok p.type ∧
      normalForm entry.1 = normalForm name ∧ ∀ e ∈ after, normalForm e.1 ≠ normalForm name := by
  obtain ⟨hname, as, bs, hsplit, has⟩ := List.find?_eq_some_iff_append.1 hlast
  have hparameters : parameters = bs.reverse ++ p :: as.reverse := by
    rw [← List.reverse_reverse parameters, hsplit]
    simp
  rw [hparameters] at h
  obtain ⟨entry, after, ⟨hentry, hread⟩, hafter, hdrop⟩ :=
    List.forall₂_cons_right_iff.1 (List.forall₂_drop_append entries _ _ h)
  refine ⟨entries.take bs.reverse.length, entry, after, ?_, hread, ?_, fun e he hsame => ?_⟩
  · rw [← hdrop, List.take_append_drop]
  · rw [← hentry]
    exact beq_iff_eq.1 hname
  · have hkey : normalForm e.1 ∈ as.reverse.map Parameter.key :=
      (Declares.map_key hafter) ▸ List.mem_map_of_mem he
    obtain ⟨q, hq, hqe⟩ := List.mem_map.1 hkey
    have hother := has q (List.mem_reverse.1 hq)
    have hsameName : sameName q.name name = true := beq_iff_eq.2 (hqe.trans hsame)
    rw [hsameName] at hother
    cases hother

theorem lastNamed?_append (as bs : List Parameter) (name : String) :
    lastNamed? (as ++ bs) name = (lastNamed? bs name).or (lastNamed? as name) := by
  rw [lastNamed?, List.reverse_append, List.find?_append, lastNamed?, lastNamed?]

theorem lastNamed?_eq_none_iff : lastNamed? parameters name = none ↔
    ∀ p ∈ parameters, p.key ≠ normalForm name := by
  rw [lastNamed?, List.find?_eq_none]
  simp only [List.mem_reverse, sameName, beq_iff_eq, Parameter.key, ne_eq]

theorem resolve?_insertAll (name : String) :
    (Registry.ofCatalogue.insertAll parameters).resolve? name =
      ((lastNamed? parameters name).map Parameter.type).or (Registry.ofCatalogue.resolve? name) := by
  have hholds := Registry.holds_ofCatalogue.insertAll parameters
  rw [Registry.resolve?, hholds.found, lastNamed?_append, Registry.resolve?,
    Registry.holds_ofCatalogue.found, Option.map_or]

/-- A name that the settings have finds the last declaration under it. -/
theorem Declares.resolve?_of_mem (h : Declares entries parameters)
    (hname : ∃ entry ∈ entries, normalForm entry.1 = normalForm name) :
    ∃ before entry after type, entries = before ++ entry :: after ∧ ValueType.read entry.2 = .ok type ∧
      normalForm entry.1 = normalForm name ∧ (∀ e ∈ after, normalForm e.1 ≠ normalForm name) ∧
      (Registry.ofCatalogue.insertAll parameters).resolve? name = some type := by
  cases hlast : lastNamed? parameters name with
  | none =>
    obtain ⟨entry, hentry, hsame⟩ := hname
    have hkey : normalForm entry.1 ∈ parameters.map Parameter.key := h.map_key ▸ List.mem_map_of_mem hentry
    obtain ⟨p, hp, hkeyEq⟩ := List.mem_map.1 hkey
    exact absurd (hkeyEq.trans hsame) (lastNamed?_eq_none_iff.1 hlast p hp)
  | some p =>
    obtain ⟨before, entry, after, hsplit, hread, hsame, hafter⟩ := h.exists_last hlast
    refine ⟨before, entry, after, p.type, hsplit, hread, hsame, hafter, ?_⟩
    rw [resolve?_insertAll, hlast]
    rfl

/-- A name that the settings do not have is found as in the catalogue. -/
theorem Declares.resolve?_of_not_mem (h : Declares entries parameters)
    (hname : ∀ entry ∈ entries, normalForm entry.1 ≠ normalForm name) :
    (Registry.ofCatalogue.insertAll parameters).resolve? name = Registry.ofCatalogue.resolve? name := by
  have hnone : lastNamed? parameters name = none := by
    refine lastNamed?_eq_none_iff.2 fun p hp hkey => ?_
    have hmem : p.key ∈ entries.map fun entry => normalForm entry.1 := h.map_key ▸ List.mem_map_of_mem hp
    obtain ⟨entry, hentry, heq⟩ := List.mem_map.1 hmem
    exact hname entry hentry (heq.trans hkey)
  rw [resolve?_insertAll, hnone]
  rfl

theorem Declares.size_insertAll (h : Declares entries parameters) :
    (Registry.ofCatalogue.insertAll parameters).size = (Parameter.catalogue.map Parameter.key ++
      entries.map fun entry => normalForm entry.1).toFinset.card := by
  rw [(Registry.holds_ofCatalogue.insertAll parameters).size_eq, List.map_append, h.map_key]

/-! ## Maps of declarations -/

/-- Whether the declarations form a map: their names are different and in order. -/
def IsMap (entries : List (String × String)) : Prop := entries.Pairwise fun a b => a.1 < b.1

theorem isMap_declare (h : IsMap s.parameters) : IsMap (s.declare name declaration).parameters :=
  Registry.pairwise_place h

/-- A variable of the environment keeps the declarations a map. -/
theorem isMap_assign (h : IsMap s.parameters) (key value : String) : IsMap (s.assign key value).parameters := by
  unfold assign
  split
  · exact h
  · exact h
  · exact isMap_declare h
  · exact h

/-- However the environment sets them, the declarations form a map. -/
theorem isMap_ofEnvironment (environment : List (String × String)) :
    IsMap (ofEnvironment environment).parameters := by
  have hrun : ∀ s : Settings, IsMap s.parameters →
      IsMap (environment.foldl (fun s entry => s.assign entry.1 entry.2) s).parameters := by
    induction environment with
    | nil => exact fun s h => h
    | cons entry environment ih => exact fun s h => ih _ (isMap_assign h entry.1 entry.2)
  exact hrun standard .nil

/-- In a map the names before an entry have smaller bytes than its name and those after it greater ones. -/
theorem IsMap.bytes_cases {before after : List (String × String)} {entry e : String × String}
    (h : IsMap (before ++ entry :: after)) (he : e ∈ before ++ entry :: after) :
    e ∈ before ∧ bytes e.1 < bytes entry.1 ∨ e = entry ∨ e ∈ after ∧ bytes entry.1 < bytes e.1 := by
  obtain ⟨-, hrest, hbefore⟩ := List.pairwise_append.1 h
  rcases List.mem_append.1 he with hmem | hmem
  · exact .inl ⟨hmem, bytes_lt_iff.2 (hbefore e hmem entry List.mem_cons_self)⟩
  · rcases List.mem_cons.1 hmem with heq | hmem
    · exact .inr (.inl heq)
    · exact .inr (.inr ⟨hmem, bytes_lt_iff.2 ((List.pairwise_cons.1 hrest).1 e hmem)⟩)

/-- In a map the last declaration under a name is the one with the greatest bytes. -/
theorem Declares.exists_greatest (h : Declares entries parameters) (hmap : IsMap entries)
    (hname : ∃ entry ∈ entries, normalForm entry.1 = normalForm name) :
    ∃ last ∈ entries, ∃ type, normalForm last.1 = normalForm name ∧
      (∀ entry ∈ entries, normalForm entry.1 = normalForm name →
        entry = last ∨ bytes entry.1 < bytes last.1) ∧
      ValueType.read last.2 = .ok type ∧
      (Registry.ofCatalogue.insertAll parameters).resolve? name = some type := by
  obtain ⟨before, last, after, type, rfl, hread, hsame, hafter, hresolve⟩ := h.resolve?_of_mem hname
  refine ⟨last, by simp, type, hsame, fun entry hentry hother => ?_, hread, hresolve⟩
  rcases hmap.bytes_cases hentry with ⟨-, hlt⟩ | heq | ⟨hmem, -⟩
  · exact .inr hlt
  · exact .inl heq
  · exact absurd hother (hafter entry hmem)

/-- When a type cannot be read, the first declaration of a map with such a type is complained of. -/
theorem exists_first_unreadable (hmap : IsMap s.parameters)
    (hunreadable : ∃ entry ∈ s.parameters, ∃ complaint, ValueType.read entry.2 = .error complaint) :
    ∃ first ∈ s.parameters, ∃ complaint, ValueType.read first.2 = .error complaint ∧
      (∀ entry ∈ s.parameters, (∃ complaint, ValueType.read entry.2 = .error complaint) →
        entry = first ∨ bytes first.1 < bytes entry.1) ∧
      s.registry = .error (unreadable first.1 complaint) := by
  cases hregistry : s.registry with
  | ok r =>
    obtain ⟨entry, hentry, complaint, hread⟩ := hunreadable
    obtain ⟨parameters, hdeclares, -⟩ := registry_eq_ok_iff.1 hregistry
    obtain ⟨p, -, -, htype⟩ := hdeclares.exists_of_mem hentry
    rw [hread] at htype
    cases htype
  | error report =>
    obtain ⟨before, first, after, complaint, hsplit, hbefore, hfirst, rfl⟩ :=
      exists_of_registry_eq_error hregistry
    rw [hsplit] at hmap ⊢
    refine ⟨first, by simp, complaint, hfirst, fun e he hunread => ?_, rfl⟩
    rcases hmap.bytes_cases he with ⟨hmem, -⟩ | heq | ⟨-, hlt⟩
    · obtain ⟨complaint, hread⟩ := hunread
      obtain ⟨type, htype⟩ := hbefore e hmem
      rw [hread] at htype
      cases htype
    · exact .inl heq
    · exact .inr hlt

/-- The parameters of the settings lie over those of the catalogue. Accepted settings make a registry in
which a name of the settings has the type that is read from the last declaration, in the order of bytes,
under a spelling of it, another name of the catalogue has its type there, and no other name has a type;
there are as many entries as names. When the type of some declaration cannot be read, the first of these
in the order of bytes is complained of, where the registry is made and where the settings are checked. -/
theorem registry_layers (hmap : IsMap s.parameters) :
    (s.check = .ok () → ∃ r, s.registry = .ok r ∧
      (∀ name, (∃ entry ∈ s.parameters, normalForm entry.1 = normalForm name) →
        ∃ last ∈ s.parameters, ∃ type, normalForm last.1 = normalForm name ∧
          (∀ entry ∈ s.parameters, normalForm entry.1 = normalForm name →
            entry = last ∨ bytes entry.1 < bytes last.1) ∧
          ValueType.read last.2 = .ok type ∧ r.resolve? name = some type) ∧
      (∀ name, (∀ entry ∈ s.parameters, normalForm entry.1 ≠ normalForm name) →
        (∀ p ∈ Parameter.catalogue, p.key = normalForm name → r.resolve? name = some p.type) ∧
        ((∀ p ∈ Parameter.catalogue, p.key ≠ normalForm name) → r.resolve? name = none)) ∧
      r.size = (Parameter.catalogue.map Parameter.key ++
        s.parameters.map fun entry => normalForm entry.1).toFinset.card) ∧
    ((∃ entry ∈ s.parameters, ∃ complaint, ValueType.read entry.2 = .error complaint) →
      ∃ first ∈ s.parameters, ∃ complaint, ValueType.read first.2 = .error complaint ∧
        (∀ entry ∈ s.parameters, (∃ complaint, ValueType.read entry.2 = .error complaint) →
          entry = first ∨ bytes first.1 < bytes entry.1) ∧
        s.registry = .error (unreadable first.1 complaint) ∧
        (s.HasLog → s.check = .error (unreadable first.1 complaint))) := by
  constructor
  · intro hcheck
    rw [check_eq_discard (hasLog_of_check hcheck)] at hcheck
    obtain ⟨r, hr⟩ := discard_eq_ok_iff.1 hcheck
    obtain ⟨parameters, hdeclares, rfl⟩ := registry_eq_ok_iff.1 hr
    refine ⟨_, hr, fun name hname => hdeclares.exists_greatest hmap hname,
      fun name hname => ⟨fun p hp hkey => ?_, fun hnone => ?_⟩, hdeclares.size_insertAll⟩
    · rw [hdeclares.resolve?_of_not_mem hname, Registry.resolve?,
        Registry.get?_ofCatalogue_eq_some_iff.2 ⟨hp, hkey⟩, Option.map_some]
    · rw [hdeclares.resolve?_of_not_mem hname]
      exact Registry.resolve?_ofCatalogue_eq_none_iff.2 hnone
  · intro hunreadable
    obtain ⟨first, hfirst, complaint, hread, hleast, hregistry⟩ := exists_first_unreadable hmap hunreadable
    refine ⟨first, hfirst, complaint, hread, hleast, hregistry, fun hlog => ?_⟩
    rw [check_eq_discard hlog, hregistry]
    rfl

/-- Two spellings of a name of the catalogue, of which the one with the greater bytes is found. -/
theorem registry_layers_year :
    IsMap [("Year", "date"), ("habitat", "string"), ("ye_ar", "month")] ∧
    check ⟨"warn", "daily", [("Year", "date"), ("habitat", "string"), ("ye_ar", "month")]⟩ = .ok () ∧
    ∃ r, registry ⟨"warn", "daily", [("Year", "date"), ("habitat", "string"), ("ye_ar", "month")]⟩ = .ok r ∧
      r.resolve? "YEAR" = some .month := by
  have hmap : IsMap [("Year", "date"), ("habitat", "string"), ("ye_ar", "month")] := by
    simp only [IsMap, List.pairwise_cons, List.forall_mem_cons]
    decide
  have hcheck : check ⟨"warn", "daily", [("Year", "date"), ("habitat", "string"), ("ye_ar", "month")]⟩ =
      .ok () := rfl
  obtain ⟨r, hr, hfound, -, -⟩ := (registry_layers (s := ⟨"warn", "daily", _⟩) hmap).1 hcheck
  obtain ⟨last, hlast, type, -, hgreatest, hread, hresolve⟩ :=
    hfound "YEAR" ⟨("ye_ar", "month"), by simp, by decide⟩
  have hyear := hgreatest ("ye_ar", "month") (by simp) (by decide)
  rw [bytes_lt_iff] at hyear
  have hmonth : ValueType.read "month" = .ok .month := rfl
  simp only [List.mem_cons, List.not_mem_nil, or_false] at hlast
  rcases hlast with rfl | rfl | rfl
  · exact absurd hyear (by decide)
  · exact absurd hyear (by decide)
  · rw [hmonth] at hread
    exact ⟨hmap, hcheck, r, hr, Except.ok.inj hread ▸ hresolve⟩

example : registry ⟨"warn", "daily", [("age", "integer"), ("hue", "colour"), ("tint", "enum:hue")]⟩ =
    .error ⟨"Invalid type for parameter 'hue'", some "unknown parameter type 'colour'"⟩ := rfl

end Command.Settings

end OccurrenceQuery
