/-
The faults that the reader of well-known text ends in. They are named by what was expected and say
nothing of the text.
-/
import OccurrenceQuery.Proofs.Geometry.Wkt.Reader

namespace OccurrenceQuery.Geometry.Wkt

/-- Whether a fault is worded without the text that it is found in. -/
def isWordless : TextFault → Bool
  | .unsupportedShape _ => false
  | _ => true

/-- A reader fails in faults without a text only. -/
def FailsWordless {γ : Type} (reader : Reader γ) : Prop :=
  ∀ ls fault, (outcome reader ls).1 = .error fault → isWordless fault = true

variable {γ δ : Type}

/-! ## Rules -/

namespace FailsWordless

theorem pure (a : γ) : FailsWordless (Pure.pure a) := nofun

theorem throw {fault : TextFault} (h : isWordless fault = true) :
    FailsWordless (throw fault : Reader γ) := by
  intro ls found heq
  cases heq
  exact h

theorem get : FailsWordless (MonadState.get : Reader (List Lexeme)) := nofun

theorem set (ls : List Lexeme) : FailsWordless (MonadStateOf.set ls : Reader PUnit) := nofun

theorem bind {reader : Reader γ} {next : γ → Reader δ} (hreader : FailsWordless reader)
    (hnext : ∀ a, FailsWordless (next a)) : FailsWordless (reader >>= next) := by
  intro ls fault h
  rw [outcome_bind] at h
  rcases hout : outcome reader ls with ⟨found | a, mid⟩
  · rw [hout] at h
    obtain rfl : found = fault := Except.error.inj h
    exact hreader ls found (by rw [hout])
  · rw [hout] at h
    exact hnext a mid fault h

theorem map {reader : Reader γ} (hreader : FailsWordless reader) (f : γ → δ) :
    FailsWordless (f <$> reader) := by
  rw [map_eq_pure_bind]
  exact hreader.bind fun a => .pure (f a)

theorem forM {β : Type} {f : β → Reader PUnit} (hf : ∀ b, FailsWordless (f b)) :
    ∀ bs : List β, FailsWordless (bs.forM f)
  | [] => .pure _
  | b :: bs => (hf b).bind fun _ => forM hf bs

end FailsWordless

/-! ## Lexemes -/

theorem failsWordless_peek : FailsWordless peek := by
  refine .bind .get fun ls => ?_
  split <;> exact .pure _

theorem failsWordless_next : FailsWordless next := by
  refine .bind .get fun ls => ?_
  split
  · exact .pure _
  · exact .bind (.set _) fun _ => .pure _
  · exact .bind (.set _) fun _ => .throw rfl
  · exact .bind (.set _) fun _ => .pure _

theorem failsWordless_nextComma : FailsWordless nextComma := by
  refine .bind failsWordless_peek fun lexeme? => ?_
  split
  · exact .bind failsWordless_next fun _ => .pure _
  · exact .pure _

/-! ## Bodies -/

section

variable {reader : Reader γ}

theorem failsWordless_go (h : FailsWordless reader) :
    ∀ limit, FailsWordless (commaSeparated.go reader limit)
  | 0 => h.bind fun _ => .pure _
  | limit + 1 => by
    refine h.bind fun first => failsWordless_nextComma.bind fun more => ?_
    split
    · exact (failsWordless_go h limit).bind fun _ => .pure _
    · exact .pure _

theorem FailsWordless.commaSeparated (h : FailsWordless reader) :
    FailsWordless (commaSeparated reader) :=
  .bind .get fun _ => failsWordless_go h _

theorem FailsWordless.enclosed (h : FailsWordless reader) : FailsWordless (enclosed reader) := by
  intro ls fault hfault
  unfold Wkt.enclosed at hfault
  rw [outcome_bind, outcome_tryCatch] at hfault
  -- the fault is one of the parenthesis, or the one that the content left
  refine failsWordless_next.bind (fun lexeme? => ?_) (outcome reader ls).2 fault hfault
  split
  · intro mid found hfound
    refine h ls found (hfound ▸ ?_)
    cases (outcome reader ls).1 <;> rfl
  · exact .throw rfl

theorem FailsWordless.body (h : FailsWordless reader) (empty : γ) :
    FailsWordless (body empty reader) := by
  refine failsWordless_next.bind fun lexeme? => ?_
  split
  · exact h.enclosed
  · split
    · exact .pure _
    · exact .throw rfl
  · exact .throw rfl

end

/-! ## Positions -/

theorem failsWordless_coordinate (axis : Axis) : FailsWordless (coordinate axis) := by
  refine failsWordless_next.bind fun lexeme? => ?_
  split
  · exact .pure _
  · exact .throw rfl

theorem failsWordless_position (d : Dimension) : FailsWordless (position d) := by
  refine (failsWordless_coordinate .x).bind fun x => (failsWordless_coordinate .y).bind fun y => ?_
  exact .bind (.forM (fun axis => (failsWordless_coordinate axis).map _) _) fun _ => .pure _

theorem failsWordless_loosePosition (d : Dimension) : FailsWordless (loosePosition d) := by
  refine failsWordless_peek.bind fun lexeme? => ?_
  split
  · exact failsWordless_next.bind fun _ => (failsWordless_position d).enclosed
  · exact failsWordless_position d

theorem failsWordless_line (d : Dimension) : FailsWordless (line d) :=
  (failsWordless_position d).commaSeparated

theorem failsWordless_lines (d : Dimension) : FailsWordless (lines d) :=
  ((failsWordless_line d).body []).commaSeparated

theorem failsWordless_polygons (d : Dimension) : FailsWordless (polygons d) :=
  ((failsWordless_lines d).body []).commaSeparated

/-! ## Shapes -/

theorem failsWordless_dimension : FailsWordless dimension := by
  refine failsWordless_peek.bind fun lexeme? => ?_
  split
  · exact .throw rfl
  · exact .throw rfl
  · split
    · exact failsWordless_next.bind fun _ => .pure _
    · split
      · exact .pure _
      · exact .throw rfl
  · exact .pure _

theorem failsWordless_shape : ∀ limit letters, FailsWordless (shape limit letters)
  | 0, _ => .throw rfl
  | limit + 1, letters => by
    unfold shape
    split
    · rename_i kind attached _
      -- all kinds are read in the same way, in whatever dimension was found
      dsimp only
      split
      all_goals
        refine .bind (by first | exact .pure _ | exact failsWordless_dimension) fun d => ?_
        cases kind with
        | point => exact (((failsWordless_position d).map some).body none).map _
        | lineString | linearRing => exact ((failsWordless_line d).body []).map _
        | polygon | multiLineString => exact ((failsWordless_lines d).body []).map _
        | multiPoint => exact ((failsWordless_loosePosition d).commaSeparated.body []).map _
        | multiPolygon => exact ((failsWordless_polygons d).body []).map _
        | collection =>
          refine ((FailsWordless.commaSeparated ?_).body []).map _
          refine failsWordless_next.bind fun lexeme? => ?_
          split
          · exact failsWordless_shape limit _
          · exact .throw rfl
    · exact .throw rfl

/-- A text that cannot be read is refused in a fault that does not repeat it. -/
theorem isWordless_of_read {cs : List Char} {fault : TextFault} (h : read cs = .error fault) :
    isWordless fault = true := by
  have hfirst : FailsWordless firstShape := by
    refine failsWordless_next.bind fun lexeme? => ?_
    split
    · split
      · exact .bind .get fun _ => failsWordless_shape _ _
      · exact .throw rfl
    · exact .throw rfl
  exact hfirst _ fault h

end OccurrenceQuery.Geometry.Wkt
