/-
The parameters of the catalogue, searched for from the front and looked up in a registry made of them.
No two of them have a name in common, so that a registry keeps all of them, and both ways to a parameter
end at the same one and judge its values alike.
-/
import OccurrenceQuery.Proofs.Parameter.Registry
import OccurrenceQuery.Proofs.Vocabulary.Name

namespace OccurrenceQuery

open OccurrenceQuery.Text OccurrenceQuery.Vocabulary

/-! ## Names -/

/-- Among parameters with different names the last one under a name is the one with that name. -/
theorem lastNamed?_eq_some_iff_of_nodup {parameters : List Parameter}
    (hkeys : (parameters.map Parameter.key).Nodup) {name : String} {p : Parameter} :
    lastNamed? parameters name = some p ↔ p ∈ parameters ∧ p.key = normalForm name := by
  have hreverse : (parameters.reverse.map Parameter.key).Nodup := by
    rw [List.map_reverse]
    exact List.nodup_reverse.2 hkeys
  rw [← List.mem_reverse]
  exact find?_key_eq_some_iff hreverse

namespace Parameter

theorem nodup_catalogue : ((catalogue.map name).map normalForm).Nodup :=
  nodup_of_namesDiffer (by decide +kernel)

theorem nodup_key_catalogue : (catalogue.map key).Nodup := by
  have hnodup := nodup_catalogue
  rwa [List.map_map] at hnodup

variable {text : String} {p : Parameter}

theorem ofName_eq_ok_iff : ofName text = .ok p ↔ p ∈ catalogue ∧ p.key = normalForm text := by
  have hfind : findByName? name catalogue text = some p ↔ p ∈ catalogue ∧ p.key = normalForm text :=
    findByName?_eq_some_iff nodup_catalogue
  rw [← hfind, ofName]
  cases findByName? name catalogue text <;> simp

theorem ofName_eq_error_iff {r : Rejection} : ofName text = .error r ↔
    r = .unknownParameter text ∧ ∀ p ∈ catalogue, p.key ≠ normalForm text := by
  have hfind : findByName? name catalogue text = none ↔ ∀ p ∈ catalogue, p.key ≠ normalForm text :=
    findByName?_eq_none_iff
  rw [← hfind, ofName]
  cases findByName? name catalogue text <;> simp [eq_comm]

end Parameter

/-! ## The registry of the catalogue -/

namespace Registry

theorem holds_ofCatalogue : Holds ofCatalogue Parameter.catalogue := IsMade.catalogue.holds

variable {text value : String} {p : Parameter}

theorem get?_ofCatalogue_eq_some_iff :
    ofCatalogue.get? text = some p ↔ p ∈ Parameter.catalogue ∧ p.key = normalForm text := by
  rw [holds_ofCatalogue.found, lastNamed?_eq_some_iff_of_nodup Parameter.nodup_key_catalogue]

theorem resolve?_ofCatalogue_eq_none_iff :
    ofCatalogue.resolve? text = none ↔ ∀ p ∈ Parameter.catalogue, p.key ≠ normalForm text := by
  rw [resolve?, Option.map_eq_none_iff, Option.eq_none_iff_forall_ne_some]
  simp only [ne_eq, get?_ofCatalogue_eq_some_iff, not_and]

/-- Nothing is lost when the catalogue is put into a registry. -/
theorem size_ofCatalogue : ofCatalogue.size = Parameter.catalogue.length := by
  rw [holds_ofCatalogue.size_eq, List.toFinset_card_of_nodup Parameter.nodup_key_catalogue,
    List.length_map]

theorem mem_parameters_ofCatalogue_iff : p ∈ ofCatalogue.parameters ↔ p ∈ Parameter.catalogue := by
  rw [holds_ofCatalogue.mem_parameters_iff, get?_ofCatalogue_eq_some_iff]
  exact and_iff_left rfl

/-- A parameter that is known under a name judges a value as the name does. -/
theorem cause_of_validateNamed {r : Registry} (h : r.get? text = some p) (value : String) :
    (validateNamed r text value).mapError InvalidValue.cause =
      (validate p value).mapError InvalidValue.cause := by
  have hresolve : r.resolve? text = some p.type := by rw [resolve?, h, Option.map_some]
  rw [validateNamed_eq, hresolve, validate, cause_of_mapError, cause_of_mapError]

/-- A parameter of the catalogue is found in two ways that agree, by a search from the front and in the
registry made of the catalogue: both find the same parameter or none, and values are accepted or refused
for the same causes. No two parameters of the catalogue have a name in common, and the registry has them
all. -/
theorem catalogue_found_two_ways (text : String) :
    (∀ p, Parameter.ofName text = .ok p ↔ ofCatalogue.get? text = some p) ∧
    (∀ r, Parameter.ofName text = .error r ↔
      r = .unknownParameter text ∧ ofCatalogue.resolve? text = none) ∧
    (∀ p, Parameter.ofName text = .ok p → ∀ value,
      (validateNamed ofCatalogue text value).mapError InvalidValue.cause =
        (validate p value).mapError InvalidValue.cause) ∧
    (Parameter.catalogue.map Parameter.key).Nodup ∧
    ofCatalogue.size = Parameter.catalogue.length ∧
    ∀ p, p ∈ ofCatalogue.parameters ↔ p ∈ Parameter.catalogue := by
  have hfound : ∀ p, Parameter.ofName text = .ok p ↔ ofCatalogue.get? text = some p := fun p => by
    rw [Parameter.ofName_eq_ok_iff, get?_ofCatalogue_eq_some_iff]
  refine ⟨hfound, fun r => ?_, fun p hp value => cause_of_validateNamed ((hfound p).1 hp) value,
    Parameter.nodup_key_catalogue, size_ofCatalogue, fun p => mem_parameters_ofCatalogue_iff⟩
  rw [Parameter.ofName_eq_error_iff, resolve?_ofCatalogue_eq_none_iff]

/-- A spelling of a name of the catalogue, under which a value is refused in both ways. -/
theorem catalogue_found_two_ways_latitude :
    Parameter.ofName "decimal.latitude" = .ok ⟨"DECIMAL_LATITUDE", .latitude⟩ ∧
    ofCatalogue.get? "decimal.latitude" = some ⟨"DECIMAL_LATITUDE", .latitude⟩ ∧
    (validateNamed ofCatalogue "decimal.latitude" "north").mapError InvalidValue.cause =
      (validate ⟨"DECIMAL_LATITUDE", .latitude⟩ "north").mapError InvalidValue.cause := by
  have hname : Parameter.ofName "decimal.latitude" = .ok ⟨"DECIMAL_LATITUDE", .latitude⟩ :=
    Parameter.ofName_eq_ok_iff.2 ⟨by simp [Parameter.catalogue], by decide⟩
  obtain ⟨hfound, -, hcause, -⟩ := catalogue_found_two_ways "decimal.latitude"
  exact ⟨hname, (hfound _).1 hname, hcause _ hname "north"⟩

end Registry

end OccurrenceQuery
