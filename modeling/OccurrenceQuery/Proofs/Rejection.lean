/-
What the checks of values report. A check is described by its fault, the condition under which it
complains about a range: it accepts no faulty value, and rejects any other value only for not being
one of its type.
-/
import Mathlib.Tactic
import OccurrenceQuery.Rejection

namespace OccurrenceQuery

variable {α β : Type}

/-! ## Checks one after the other -/

theorem bind_eq_ok_iff {ε : Type} {x : Except ε α} {f : α → Except ε β} {b : β} :
    x >>= f = .ok b ↔ ∃ a, x = .ok a ∧ f a = .ok b := by
  cases x <;> simp [bind, Except.bind]

theorem mapError_eq_ok_iff {ε ε' : Type} {x : Except ε α} {f : ε → ε'} {a : α} :
    x.mapError f = .ok a ↔ x = .ok a := by
  cases x <;> simp [Except.mapError]

theorem toOption_eq_some_iff {ε : Type} {x : Except ε α} {a : α} :
    x.toOption = some a ↔ x = .ok a := by
  cases x <;> simp [Except.toOption]

instance decidableEqOk {ε : Type} (x : Except ε Unit) : Decidable (x = .ok ()) :=
  match x with
  | .ok () => isTrue rfl
  | .error _ => isFalse nofun

theorem discard_eq_ok_iff {ε : Type} {x : Except ε α} :
    discard x = .ok () ↔ ∃ a, x = .ok a := by
  cases x <;> simp [discard, Functor.discard, Functor.mapConst, Except.map]

/-! ## Reports -/

/-- A result reports a fault when it rejects everything at fault as an invalid range, and whatever
else it rejects as an invalid value. -/
inductive Reports (fault : Prop) : Except Rejection α → Prop where
  | ok (sound : ¬ fault) (a : α) : Reports fault (.ok a)
  | value (sound : ¬ fault) (v : ValueFault) : Reports fault (.error (.value v))
  | range (faulty : fault) (v : RangeFault) : Reports fault (.error (.range v))

namespace Reports

variable {fault : Prop} {x : Except Rejection α} {f : α → Except Rejection β}

theorem of_not (h : ¬ fault) (hx : Reports False x) : Reports fault x := by
  rwa [eq_false h]

/-- A single rule. -/
theorem accept (c : Prop) [Decidable c] (a : α) (v : ValueFault) :
    Reports False (if c then .ok a else .error (.value v)) := by
  split
  · exact .ok id _
  · exact .value id _

/-- A check that complains about no range, and one that looks at what the first one returns. -/
theorem bind (hx : Reports False x) (hf : ∀ a, x = .ok a → Reports fault (f a))
    (hok : ∀ r, x = .error r → ¬ fault) : Reports fault (x >>= f) := by
  cases hx with
  | ok _ a => exact hf a rfl
  | value _ v => exact .value (hok _ rfl) v
  | range h _ => exact h.elim

/-- A check for a range, and one that complains about no range. -/
theorem bind_values (hx : Reports fault x) (hf : ∀ a, Reports False (f a)) :
    Reports fault (x >>= f) := by
  cases hx with
  | ok h a =>
    show Reports fault (f a)
    have hb := hf a
    generalize f a = y at hb
    cases hb with
    | ok _ b => exact .ok h b
    | value _ v => exact .value h v
    | range h' _ => exact h'.elim
  | value h v => exact .value h v
  | range h v => exact .range h v

theorem map (hx : Reports fault x) (g : α → β) : Reports fault (g <$> x) := by
  cases hx with
  | ok h a => exact .ok h (g a)
  | value h v => exact .value h v
  | range h v => exact .range h v

theorem discard (hx : Reports fault x) : Reports fault (discard x) := hx.map _

theorem kind_of_error {r : Rejection} (h : Reports fault (.error r : Except Rejection α)) :
    fault ∧ r.kind = .invalidRange ∨ ¬ fault ∧ r.kind = .invalidValue := by
  cases h with
  | value h _ => exact .inr ⟨h, rfl⟩
  | range h _ => exact .inl ⟨h, rfl⟩

end Reports

end OccurrenceQuery
