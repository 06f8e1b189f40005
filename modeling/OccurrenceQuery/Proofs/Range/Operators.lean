/-
Comparisons by all ways in. The operators of a comparison are given one by one, as the fields of an object in any order
and among others, or as an array of four. Each way ends at the same check, that one operator is used on each side, so
all of them accept the same operators, with the same comparison, and refuse the others with the same fault. What a
comparison is written as is one of these ways, and leads back to it.
-/
import OccurrenceQuery.Range.Operators

namespace OccurrenceQuery

/-! ## Fields -/

namespace Json

/-- What the fields with the given name hold, in their order. -/
def valuesOf (name : String) (fields : List (String × Json)) : List Json :=
  fields.filterMap fun field => if field.1 = name then some field.2 else none

theorem field?_eq_head?_valuesOf (name : String) : ∀ fields : List (String × Json),
    field? name fields = (valuesOf name fields).head?
  | [] => rfl
  | (other, value) :: fields => by
    have ih : fields.lookup name = (valuesOf name fields).head? := field?_eq_head?_valuesOf name fields
    by_cases h : other = name
    · simp [field?, valuesOf, h]
    · have hother : (name == other) = false := beq_eq_false_iff_ne.2 (Ne.symm h)
      have hrest : valuesOf name ((other, value) :: fields) = valuesOf name fields :=
        List.filterMap_cons_none (if_neg h)
      rw [field?, List.lookup_cons, hother, hrest]
      exact ih

end Json

namespace Comparison

/-! ## Operands -/

/-- Whether a value, if there is one, stands for an operand: a string does for itself, null and no value for none. -/
inductive Denotes : Option Json → Option String → Prop where
  | absent : Denotes none none
  | null : Denotes (some .null) none
  | string (value : String) : Denotes (some (.string value)) (some value)

/-- Whether an object gives an operand under a name: in at most one field of that name. -/
structure Gives (fields : List (String × Json)) (name : String) (operand : Option String) : Prop where
  once : (Json.valuesOf name fields).length ≤ 1
  value : Denotes (Json.valuesOf name fields).head? operand

theorem operand_of_denotes {value : Option Json} {given : Option String} (h : Denotes value given) :
    operand value = .ok given := by
  cases h <;> rfl

theorem denotes_field?_of_gives {fields : List (String × Json)} {name : String} {given : Option String}
    (h : Gives fields name given) : Denotes (Json.field? name fields) given :=
  Json.field?_eq_head?_valuesOf name fields ▸ h.value

/-- A string is given in a field of its own, and nothing by no field. -/
theorem gives_of_valuesOf {fields : List (String × Json)} {name : String} {given : Option String}
    (h : Json.valuesOf name fields = (given.map Json.string).toList) : Gives fields name given := by
  cases given with
  | none => exact ⟨by simp [h], by rw [h]; exact .absent⟩
  | some value => exact ⟨by simp [h], by rw [h]; exact .string value⟩

variable {gt gte lt lte : Option String}

theorem ofOperands_of_denotes {a b c d : Option Json} (ha : Denotes a gt) (hb : Denotes b gte) (hc : Denotes c lt)
    (hd : Denotes d lte) : ofOperands a b c d = (ofOperators gt gte lt lte).mapError .operators := by
  rw [ofOperands, operand_of_denotes ha, operand_of_denotes hb, operand_of_denotes hc, operand_of_denotes hd]
  rfl

/-! ## Operators -/

theorem endpoint?_eq_some_iff {strict inclusive : Option String} {endpoint : Endpoint} :
    endpoint? strict inclusive = some endpoint ↔ strict = strict? endpoint ∧ inclusive = inclusive? endpoint := by
  cases strict <;> cases inclusive <;> cases endpoint <;> simp [endpoint?, strict?, inclusive?]

theorem exists_endpoint?_iff (strict inclusive : Option String) :
    (∃ endpoint, endpoint? strict inclusive = some endpoint) ↔ strict.isSome ≠ inclusive.isSome := by
  cases strict <;> cases inclusive <;> simp [endpoint?]

theorem ofOperators_eq_ok_iff {c : Comparison} : ofOperators gt gte lt lte = .ok c ↔
    endpoint? gt gte = some c.lower ∧ endpoint? lt lte = some c.upper := by
  obtain ⟨lower, upper⟩ := c
  unfold ofOperators
  cases endpoint? gt gte with
  | none => simp
  | some lower' => cases endpoint? lt lte <;> simp

/-- Whether an endpoint is the one that two operators give: excluded with the value of the first, or included with the
value of the second. -/
structure IsGivenBy (endpoint : Endpoint) (strict inclusive : Option String) : Prop where
  excluded : ∀ value, endpoint = .excluded value ↔ strict = some value
  included : ∀ value, endpoint = .included value ↔ inclusive = some value

theorem isGivenBy_of_endpoint? {strict inclusive : Option String} {endpoint : Endpoint}
    (h : endpoint? strict inclusive = some endpoint) : IsGivenBy endpoint strict inclusive := by
  obtain ⟨rfl, rfl⟩ := endpoint?_eq_some_iff.1 h
  cases endpoint <;> constructor <;> simp [strict?, inclusive?]

/-! ## All ways in -/

/-- What a comparison is written as gives each of its operators, with no field for one that is not used. -/
theorem gives_toJson (c : Comparison) : ∃ fields, c.toJson = .object fields ∧
    (∀ field ∈ fields, field.2 ≠ .null) ∧ ∀ entry ∈ c.operators, Gives fields entry.1 entry.2 := by
  obtain ⟨lower, upper⟩ := c
  refine ⟨_, rfl, ?_, ?_⟩
  · intro field hfield
    obtain ⟨⟨name, value⟩, -, hvalue⟩ := List.mem_filterMap.1 hfield
    obtain ⟨given, -, rfl⟩ := Option.map_eq_some_iff.1 hvalue
    exact Json.noConfusion
  · simp only [operators, List.forall_mem_cons, List.not_mem_nil, false_imp_iff, implies_true, and_true]
    refine ⟨gives_of_valuesOf ?_, gives_of_valuesOf ?_, gives_of_valuesOf ?_, gives_of_valuesOf ?_⟩ <;>
      cases lower <;> cases upper <;> simp [strict?, inclusive?, Json.valuesOf]

/-- Given one by one, in an object or in an array, the same operators are accepted with the same comparison or refused
with the same fault, and they are accepted exactly when one of them is used on each side. The comparison has just these
operators; each of its endpoints is the one that the operators of its side give; and it is read back from the object
that it is written as, in which nothing is null. -/
theorem one_endpoint_per_side (gt gte lt lte : Option String) :
    (∀ fields, Gives fields "gt" gt → Gives fields "gte" gte → Gives fields "lt" lt → Gives fields "lte" lte →
      ofJson (.object fields) = (ofOperators gt gte lt lte).mapError .operators) ∧
    (∀ a b c d, Denotes (some a) gt → Denotes (some b) gte → Denotes (some c) lt → Denotes (some d) lte →
      ofJson (.array [a, b, c, d]) = (ofOperators gt gte lt lte).mapError .operators) ∧
    ((∃ c, ofOperators gt gte lt lte = .ok c) ↔ gt.isSome ≠ gte.isSome ∧ lt.isSome ≠ lte.isSome) ∧
    ∀ c, ofOperators gt gte lt lte = .ok c →
      c.operators = [("gt", gt), ("gte", gte), ("lt", lt), ("lte", lte)] ∧
      IsGivenBy c.lower gt gte ∧ IsGivenBy c.upper lt lte ∧
      ∃ fields, c.toJson = .object fields ∧ (∀ field ∈ fields, field.2 ≠ .null) ∧ ofJson (.object fields) = .ok c := by
  have hobject : ∀ {gt gte lt lte : Option String} {fields}, Gives fields "gt" gt → Gives fields "gte" gte →
      Gives fields "lt" lt → Gives fields "lte" lte →
        ofJson (.object fields) = (ofOperators gt gte lt lte).mapError .operators := fun hgt hgte hlt hlte =>
    ofOperands_of_denotes (denotes_field?_of_gives hgt) (denotes_field?_of_gives hgte) (denotes_field?_of_gives hlt)
      (denotes_field?_of_gives hlte)
  refine ⟨fun fields => hobject, fun a b c d => ofOperands_of_denotes, ?_, fun c h => ?_⟩
  · rw [← exists_endpoint?_iff, ← exists_endpoint?_iff]
    constructor
    · rintro ⟨c, h⟩
      obtain ⟨hlower, hupper⟩ := ofOperators_eq_ok_iff.1 h
      exact ⟨⟨_, hlower⟩, ⟨_, hupper⟩⟩
    · rintro ⟨⟨lower, hlower⟩, ⟨upper, hupper⟩⟩
      exact ⟨⟨lower, upper⟩, ofOperators_eq_ok_iff.2 ⟨hlower, hupper⟩⟩
  · obtain ⟨hlower, hupper⟩ := ofOperators_eq_ok_iff.1 h
    obtain ⟨rfl, rfl⟩ := endpoint?_eq_some_iff.1 hlower
    obtain ⟨rfl, rfl⟩ := endpoint?_eq_some_iff.1 hupper
    obtain ⟨fields, hwritten, hnull, hgives⟩ := gives_toJson c
    simp only [operators, List.forall_mem_cons] at hgives
    obtain ⟨hgt, hgte, hlt, hlte, -⟩ := hgives
    refine ⟨rfl, isGivenBy_of_endpoint? hlower, isGivenBy_of_endpoint? hupper, fields, hwritten, hnull, ?_⟩
    rw [hobject hgt hgte hlt hlte, h]
    rfl

/-- A range that includes its lower bound and not its upper one, in an object with its fields the other way round, one
of them null and one that does not matter, and in an array. -/
theorem one_endpoint_per_side_mixed :
    ofJson (.object [("note", .bool true), ("lt", .string "5"), ("lte", .null), ("gte", .string "1")]) =
      .ok ⟨.included "1", .excluded "5"⟩ ∧
    ofJson (.array [.null, .string "1", .string "5", .null]) = .ok ⟨.included "1", .excluded "5"⟩ ∧
    ofJson (toJson ⟨.included "1", .excluded "5"⟩) = .ok ⟨.included "1", .excluded "5"⟩ := by
  obtain ⟨hobject, harray, -, hall⟩ := one_endpoint_per_side none (some "1") (some "5") none
  obtain ⟨-, -, -, fields, hwritten, -, hread⟩ := hall ⟨.included "1", .excluded "5"⟩ rfl
  refine ⟨?_, harray _ _ _ _ .null (.string "1") (.string "5") .null, hwritten ▸ hread⟩
  have hnull : Gives [("note", .bool true), ("lt", .string "5"), ("lte", .null), ("gte", .string "1")] "lte" none :=
    ⟨by simp [Json.valuesOf], by simpa [Json.valuesOf] using Denotes.null⟩
  refine hobject _ (gives_of_valuesOf ?_) (gives_of_valuesOf ?_) (gives_of_valuesOf ?_) hnull <;>
    simp [Json.valuesOf]

end Comparison

end OccurrenceQuery
