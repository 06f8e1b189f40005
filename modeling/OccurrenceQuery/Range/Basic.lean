/-
Ranges over an ordered type, both bounds inclusive and each of them optional, and the wildcard,
which stands for any value at all or for the open side of a range.
-/
import OccurrenceQuery.Text.CharacterClass

namespace OccurrenceQuery

/-- A range from `lower` to `upper`; a missing bound leaves its side open. -/
structure Range (α : Type) where
  lower : Option α
  upper : Option α
deriving DecidableEq, Repr

namespace Range

variable {α : Type}

/-! ## Construction -/

/-- The range without bounds. -/
def all : Range α := ⟨none, none⟩

instance : Inhabited (Range α) := ⟨all⟩

/-- The range between two bounds, unless the lower one is greater than the upper one. -/
def between? [LT α] [DecidableLT α] (lower upper : Option α) : Option (Range α) :=
  match lower, upper with
  | some a, some b => if b < a then none else some ⟨some a, some b⟩
  | _, _ => some ⟨lower, upper⟩

theorem between?_eq_none_iff [LT α] [DecidableLT α] {lower upper : Option α} :
    between? lower upper = none ↔ ∃ a b, lower = some a ∧ upper = some b ∧ b < a := by
  cases lower <;> cases upper <;> simp [between?]

theorem eq_of_between? [LT α] [DecidableLT α] {lower upper : Option α} {r : Range α}
    (h : between? lower upper = some r) : r = ⟨lower, upper⟩ := by
  unfold between? at h
  split at h
  · split at h
    · cases h
    · exact (Option.some.inj h).symm
  · exact (Option.some.inj h).symm

theorem between?_eq_some_iff [LT α] [DecidableLT α] {lower upper : Option α} {r : Range α} :
    between? lower upper = some r ↔
      r = ⟨lower, upper⟩ ∧ ∀ a b, lower = some a → upper = some b → ¬ b < a := by
  constructor
  · intro h
    refine ⟨eq_of_between? h, fun a b ha hb hlt => ?_⟩
    rw [between?_eq_none_iff.2 ⟨a, b, ha, hb, hlt⟩] at h
    cases h
  · rintro ⟨rfl, hnot⟩
    cases h : between? lower upper with
    | none =>
      obtain ⟨a, b, ha, hb, hlt⟩ := between?_eq_none_iff.1 h
      exact absurd hlt (hnot a b ha hb)
    | some r => rw [eq_of_between? h]

/-- Whether a range has no bounds. -/
def isAll (r : Range α) : Bool := r.lower.isNone && r.upper.isNone

/-! ## Membership -/

/-- Whether `x` is at or above the bound `a`, if there is one. -/
def atLeast [LE α] [DecidableLE α] (a : Option α) (x : α) : Bool := a.all fun a => decide (a ≤ x)

/-- Whether `x` is at or below the bound `b`, if there is one. -/
def atMost [LE α] [DecidableLE α] (b : Option α) (x : α) : Bool := b.all fun b => decide (x ≤ b)

/-- Whether `x` lies in the range. -/
def contains [LE α] [DecidableLE α] (r : Range α) (x : α) : Bool :=
  atLeast r.lower x && atMost r.upper x

/-- Whether each bound of `r` has a bound of `inner` at or inside it. -/
def encloses [LE α] [DecidableLE α] (r inner : Range α) : Bool :=
  let lowerInside := match r.lower, inner.lower with
    | none, _ => true
    | some _, none => false
    | some a, some b => decide (a ≤ b)
  let upperInside := match r.upper, inner.upper with
    | none, _ => true
    | some _, none => false
    | some a, some b => decide (b ≤ a)
  lowerInside && upperInside

/-! ## Text -/

/-- A bound, or a star for an open side. -/
def boundText (element : α → String) (bound : Option α) : String := (bound.map element).getD "*"

/-- The range in brackets, given the text of its elements. -/
def text (element : α → String) (r : Range α) : String :=
  "[" ++ boundText element r.lower ++ ", " ++ boundText element r.upper ++ "]"

/-! ## The wildcard -/

/-- The wildcard: a star. -/
def wildcard : List Char := ['*']

/-- Whether a text is the wildcard between white space. -/
def isWildcard (text : String) : Bool := Text.trim text.toList == wildcard

end Range

end OccurrenceQuery
