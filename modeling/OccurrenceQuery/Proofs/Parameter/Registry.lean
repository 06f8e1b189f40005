/-
Registries as maps from names to parameters. Whatever is inserted into a registry in whatever order, a
name finds the parameter that was inserted last under a spelling of it; there is one entry for each name
that was inserted, and the entries are in the order of the bytes of their names.
-/
import OccurrenceQuery.Proofs.ByteOrder
import OccurrenceQuery.Validation

namespace OccurrenceQuery

open OccurrenceQuery.Text OccurrenceQuery.Vocabulary

/-- The name of a parameter in normal form, by which a registry knows it. -/
def Parameter.key (p : Parameter) : String := normalForm p.name

/-- The parameter that was inserted last under a spelling of a name. -/
def lastNamed? (inserted : List Parameter) (name : String) : Option Parameter :=
  inserted.reverse.find? fun p => sameName p.name name

theorem sameName_of_lastNamed? {inserted : List Parameter} {name : String} {p : Parameter}
    (h : lastNamed? inserted name = some p) : sameName p.name name = true := by
  have hp := List.find?_some h
  exact hp

/-- Two spellings of a name find the same parameter. -/
theorem lastNamed?_congr {inserted : List Parameter} {a b : String} (h : normalForm a = normalForm b) :
    lastNamed? inserted a = lastNamed? inserted b := by
  unfold lastNamed? sameName
  rw [h]

namespace Registry

/-! ## Places -/

section

variable {α : Type} {key : String} {p : α} {entries : List (String × α)}

theorem lookup_cons_ite (k other : String) (q : α) (entries : List (String × α)) :
    ((k, q) :: entries).lookup other = if other = k then some q else entries.lookup other := by
  rw [List.lookup_cons]
  by_cases h : other = k
  · simp [h]
  · simp [h, beq_false_of_ne h]

theorem lookup_place (other : String) :
    (place key p entries).lookup other =
      if other = key then some p else entries.lookup other := by
  induction entries with
  | nil => exact lookup_cons_ite key other p []
  | cons entry entries ih =>
    obtain ⟨k, q⟩ := entry
    unfold place
    split
    · rename_i hk
      obtain rfl : key = k := hk
      rw [lookup_cons_ite, lookup_cons_ite]
      split <;> rfl
    · rename_i hk
      split
      · exact lookup_cons_ite key other p _
      · rw [lookup_cons_ite, lookup_cons_ite, ih]
        -- a name is not found under two keys
        split
        · rename_i hother
          rw [if_neg fun heq => hk (heq.symm.trans hother)]
        · rfl

theorem mem_place {entry : String × α} (h : entry ∈ place key p entries) :
    entry = (key, p) ∨ entry ∈ entries := by
  induction entries with
  | nil => exact .inl (by simpa [place] using h)
  | cons head entries ih =>
    unfold place at h
    split at h
    · exact (List.mem_cons.1 h).imp_right (List.mem_cons_of_mem _)
    · split at h
      · exact List.mem_cons.1 h
      · rcases List.mem_cons.1 h with rfl | hmem
        · exact .inr List.mem_cons_self
        · exact (ih hmem).imp_right (List.mem_cons_of_mem _)

theorem pairwise_place (h : entries.Pairwise fun a b => a.1 < b.1) :
    (place key p entries).Pairwise fun a b => a.1 < b.1 := by
  induction entries with
  | nil => simp [place]
  | cons head entries ih =>
    obtain ⟨hhead, htail⟩ := List.pairwise_cons.1 h
    unfold place
    split
    · rename_i hk
      exact List.pairwise_cons.2 ⟨hk ▸ hhead, htail⟩
    · rename_i hk
      split
      · rename_i hlt
        refine List.pairwise_cons.2 ⟨fun entry hentry => ?_, h⟩
        rcases List.mem_cons.1 hentry with rfl | hmem
        · exact hlt
        · exact lt_trans hlt (hhead entry hmem)
      · rename_i hlt
        refine List.pairwise_cons.2 ⟨fun entry hentry => ?_, ih htail⟩
        rcases mem_place hentry with rfl | hmem
        · exact lt_of_le_of_ne (not_lt.1 hlt) (Ne.symm hk)
        · exact hhead entry hmem

end

/-! ## The registries that are made -/

/-- A registry is made from the empty one or the one of the catalogue by inserting parameters, and
these have been inserted into it, in this order. -/
inductive IsMade : Registry → List Parameter → Prop where
  | empty : IsMade empty []
  | catalogue : IsMade ofCatalogue Parameter.catalogue
  | insert {r : Registry} {inserted : List Parameter} (h : IsMade r inserted) (p : Parameter) :
    IsMade (r.insert p) (inserted ++ [p])

/-- What a registry is after some parameters have been inserted: its entries are in order, each under
the name of its parameter, and the last parameter under a name is the one that is found. -/
structure Holds (r : Registry) (inserted : List Parameter) : Prop where
  ordered : r.entries.Pairwise fun a b => a.1 < b.1
  keyed : ∀ entry ∈ r.entries, entry.1 = entry.2.key
  found : ∀ name, r.get? name = lastNamed? inserted name

theorem holds_empty : Holds empty [] :=
  ⟨.nil, fun _ h => absurd h List.not_mem_nil, fun _ => rfl⟩

/-- One more parameter replaces the one with the same name, if there is one, and no other. -/
theorem Holds.insert {r : Registry} {inserted : List Parameter} (h : Holds r inserted)
    (p : Parameter) : Holds (r.insert p) (inserted ++ [p]) where
  ordered := pairwise_place h.ordered
  keyed entry hentry := by
    rcases mem_place hentry with rfl | hmem
    · rfl
    · exact h.keyed entry hmem
  found name := by
    have hlookup : (r.insert p).get? name = if normalForm name = normalForm p.name then some p
        else r.get? name := lookup_place (normalForm name)
    rw [hlookup, h.found name, lastNamed?, lastNamed?, List.reverse_append, List.reverse_singleton,
      List.singleton_append, List.find?_cons]
    by_cases hname : normalForm name = normalForm p.name
    · simp [sameName, hname]
    · have hother : sameName p.name name = false := beq_false_of_ne (Ne.symm hname)
      simp [hname, hother]

theorem Holds.insertAll (parameters : List Parameter) : ∀ {r : Registry} {inserted : List Parameter},
    Holds r inserted → Holds (r.insertAll parameters) (inserted ++ parameters) := by
  induction parameters with
  | nil => intro r inserted h; simpa [Registry.insertAll] using h
  | cons p parameters ih =>
    intro r inserted h
    simpa [Registry.insertAll] using ih (h.insert p)

theorem IsMade.holds {r : Registry} {inserted : List Parameter} (h : IsMade r inserted) :
    Holds r inserted := by
  induction h with
  | empty => exact holds_empty
  | catalogue => exact holds_empty.insertAll Parameter.catalogue
  | insert _ p ih => exact ih.insert p

/-! ## Entries and names -/

namespace Holds

variable {r : Registry} {inserted : List Parameter}

theorem map_key_parameters (h : Holds r inserted) :
    r.parameters.map Parameter.key = r.entries.map Prod.fst := by
  rw [parameters, List.map_map]
  exact List.map_congr_left fun entry hentry => (h.keyed entry hentry).symm

theorem pairwise_key (h : Holds r inserted) :
    (r.parameters.map Parameter.key).Pairwise (· < ·) := by
  rw [h.map_key_parameters, List.pairwise_map]
  exact h.ordered

theorem mem_parameters_iff (h : Holds r inserted) {p : Parameter} :
    p ∈ r.parameters ↔ r.get? p.name = some p := by
  have hnodup : (r.entries.map Prod.fst).Nodup := by
    rw [← h.map_key_parameters]
    exact h.pairwise_key.imp ne_of_lt
  rw [parameters, List.mem_map, get?]
  constructor
  · rintro ⟨⟨key, q⟩, hentry, rfl⟩
    obtain rfl : key = normalForm q.name := h.keyed _ hentry
    obtain ⟨before, after, hentries⟩ := List.append_of_mem hentry
    rw [List.lookup_eq_some_iff]
    refine ⟨before, after, hentries, fun entry hbefore => bne_iff_ne.2 fun heq => ?_⟩
    rw [hentries, List.map_append, List.map_cons] at hnodup
    exact (List.nodup_append.1 hnodup).2.2 entry.1 (List.mem_map_of_mem hbefore) _
      List.mem_cons_self heq.symm
  · intro hfound
    obtain ⟨before, after, hentries, -⟩ := List.lookup_eq_some_iff.1 hfound
    exact ⟨(normalForm p.name, p), by simp [hentries], rfl⟩

/-- The names of the entries are those under which something has been inserted. -/
theorem mem_map_key_iff (h : Holds r inserted) {key : String} :
    key ∈ r.parameters.map Parameter.key ↔ key ∈ inserted.map Parameter.key := by
  simp only [List.mem_map, h.mem_parameters_iff, h.found]
  constructor
  · rintro ⟨p, hfound, rfl⟩
    have hmem := List.mem_of_find?_eq_some hfound
    exact ⟨p, List.mem_reverse.1 hmem, rfl⟩
  · rintro ⟨p, hmem, rfl⟩
    have hsome : (lastNamed? inserted p.name).isSome :=
      List.find?_isSome.2 ⟨p, List.mem_reverse.2 hmem, beq_self_eq_true p.key⟩
    obtain ⟨q, hq⟩ := Option.isSome_iff_exists.1 hsome
    have hname : q.key = p.key := beq_iff_eq.1 (sameName_of_lastNamed? hq)
    exact ⟨q, (lastNamed?_congr hname).trans hq, hname⟩

theorem size_eq (h : Holds r inserted) : r.size = (inserted.map Parameter.key).toFinset.card := by
  have hkeys : (inserted.map Parameter.key).toFinset = (r.parameters.map Parameter.key).toFinset := by
    ext key
    rw [List.mem_toFinset, List.mem_toFinset, h.mem_map_key_iff]
  rw [hkeys, List.toFinset_card_of_nodup (h.pairwise_key.imp ne_of_lt), List.length_map, parameters,
    List.length_map, size]

/-- A registry answers alike for two spellings of a name. -/
theorem resolve?_congr (h : Holds r inserted) {a b : String} (hab : normalForm a = normalForm b) :
    r.resolve? a = r.resolve? b := by
  rw [resolve?, resolve?, h.found, h.found, lastNamed?_congr hab]

end Holds

/-! ## Values -/

/-- How a value is judged under a name: by the type that the name has, and as a value of an unknown
parameter when it has none. -/
theorem validateNamed_eq (r : Registry) (name value : String) :
    validateNamed r name value =
      (match r.resolve? name with
        | some type => check true type value
        | none => .error (.unknownParameter name)).mapError fun cause => ⟨name, value, cause⟩ := by
  unfold validateNamed
  cases r.resolve? name <;> rfl

theorem cause_of_mapError {name value : String} (verdict : Except Rejection Unit) :
    (verdict.mapError fun cause => InvalidValue.mk name value cause).mapError InvalidValue.cause =
      verdict := by
  cases verdict <;> rfl

/-- A registry into which parameters have been inserted, one after the other, finds under every name the
last of them that has a spelling of it; it has one entry for each name, and lists the entries by the
bytes of their names. Two spellings of a name resolve to the same type, by which a value is then judged
with the same outcome; what is refused is refused under the spelling that was used. -/
theorem last_insert_wins {r : Registry} {inserted : List Parameter} (h : IsMade r inserted) :
    (∀ name, r.get? name = lastNamed? inserted name) ∧
    r.size = (inserted.map Parameter.key).toFinset.card ∧
    (r.parameters.map Parameter.key).Pairwise (bytes · < bytes ·) ∧
    (∀ key, key ∈ r.parameters.map Parameter.key ↔ key ∈ inserted.map Parameter.key) ∧
    (∀ p, p ∈ r.parameters ↔ r.get? p.name = some p) ∧
    (∀ a b, normalForm a = normalForm b → r.resolve? a = r.resolve? b ∧
      ∀ type, r.resolve? a = some type → ∀ value,
        (validateNamed r a value).mapError InvalidValue.cause = check true type value ∧
        (validateNamed r b value).mapError InvalidValue.cause = check true type value) ∧
    (∀ name value, r.resolve? name = none →
      validateNamed r name value = .error ⟨name, value, .unknownParameter name⟩) ∧
    ∀ name value invalid, validateNamed r name value = .error invalid →
      invalid.parameter = name ∧ invalid.value = value := by
  have hr := h.holds
  refine ⟨hr.found, hr.size_eq, hr.pairwise_key.imp bytes_lt_iff.2, fun _ => hr.mem_map_key_iff,
    fun _ => hr.mem_parameters_iff, fun a b hab => ⟨hr.resolve?_congr hab, fun type ha value => ?_⟩,
    fun name value hnone => ?_, fun name value invalid herror => ?_⟩
  · have hb : r.resolve? b = some type := (hr.resolve?_congr hab).symm.trans ha
    rw [validateNamed_eq, validateNamed_eq, ha, hb]
    exact ⟨cause_of_mapError _, cause_of_mapError _⟩
  · rw [validateNamed_eq, hnone]
    rfl
  · rw [validateNamed_eq] at herror
    generalize (match r.resolve? name with
      | some type => check true type value
      | none => .error (.unknownParameter name) : Except Rejection Unit) = verdict at herror
    cases verdict with
    | ok u => cases herror
    | error cause => obtain rfl := Except.error.inj herror; exact ⟨rfl, rfl⟩

/-- A later spelling of a name takes the place of an earlier one, type and spelling. -/
theorem last_insert_wins_year :
    IsMade ((empty.insert ⟨"YEAR", .integer⟩).insert ⟨"ye-ar", .date⟩)
      [⟨"YEAR", .integer⟩, ⟨"ye-ar", .date⟩] ∧
    ((empty.insert ⟨"YEAR", .integer⟩).insert ⟨"ye-ar", .date⟩).get? "Year" =
      some ⟨"ye-ar", .date⟩ ∧
    ((empty.insert ⟨"YEAR", .integer⟩).insert ⟨"ye-ar", .date⟩).size = 1 := by
  have hmade := (IsMade.empty.insert ⟨"YEAR", .integer⟩).insert ⟨"ye-ar", .date⟩
  have hwins := last_insert_wins hmade
  exact ⟨hmade, (hwins.1 "Year").trans (by decide), hwins.2.1.trans (by decide)⟩

end Registry

end OccurrenceQuery
