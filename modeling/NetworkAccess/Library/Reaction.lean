import Mathlib.Data.List.Basic
import Mathlib.Logic.Relation

/-! Computations that emit a list of outputs and either go on from a state or stop.
Reading a stream is a monadic fold of such computations, so how the stream is cut into
segments cannot matter to a machine that reads letter by letter.
-/

namespace NetworkAccess

/-- What one piece of input causes: the outputs in order, then the next state or the
reason why nothing further is read.
-/
structure Reaction (Output Stop State : Type) where
  emitted : List Output
  result : Except Stop State
deriving DecidableEq

namespace Reaction

variable {Output Stop Final State Next Letter : Type}

/-- Go on from `state` after emitting `outputs`. -/
def emit (outputs : List Output) (state : State) : Reaction Output Stop State :=
  ⟨outputs, .ok state⟩

/-- Stop for `reason` after emitting `outputs`. -/
def stop (outputs : List Output) (reason : Stop) : Reaction Output Stop State :=
  ⟨outputs, .error reason⟩

/-- Emit `outputs` before everything else. -/
def prepend (outputs : List Output) (reaction : Reaction Output Stop State)
    : Reaction Output Stop State :=
  ⟨outputs ++ reaction.emitted, reaction.result⟩

/-- Continue a reaction that did not stop, keeping the outputs in order. -/
def andThen (first : Reaction Output Stop State)
    (next : State → Reaction Output Stop Next)
    : Reaction Output Stop Next :=
  match first.result with
  | .ok state => (next state).prepend first.emitted
  | .error reason => ⟨first.emitted, .error reason⟩

instance : Monad (Reaction Output Stop) where
  pure state := emit [] state
  bind := andThen

/-- To return is to go on without outputs. -/
@[simp] theorem pure_eq (state : State)
    : (pure state : Reaction Output Stop State) = emit [] state := rfl

/-- The monad's sequence is `andThen`. -/
@[simp] theorem bind_eq (first : Reaction Output Stop State)
    (next : State → Reaction Output Stop Next)
    : first >>= next = first.andThen next := rfl

/-- What follows a reaction that goes on comes behind its outputs. -/
@[simp] theorem emit_andThen (outputs : List Output) (state : State)
    (next : State → Reaction Output Stop Next)
    : (emit outputs state).andThen next = (next state).prepend outputs := rfl

/-- Nothing follows a reaction that stops. -/
@[simp] theorem stop_andThen (outputs : List Output) (reason : Stop)
    (next : State → Reaction Output Stop Next)
    : (stop outputs reason).andThen next = stop outputs reason := rfl

/-- The outputs of a reaction that goes on. -/
@[simp] theorem emitted_emit (outputs : List Output) (state : State)
    : (emit outputs state : Reaction Output Stop State).emitted = outputs := rfl

/-- The state of a reaction that goes on. -/
@[simp] theorem result_emit (outputs : List Output) (state : State)
    : (emit outputs state : Reaction Output Stop State).result = .ok state := rfl

/-- The outputs of a reaction that stops. -/
@[simp] theorem emitted_stop (outputs : List Output) (reason : Stop)
    : (stop outputs reason : Reaction Output Stop State).emitted = outputs := rfl

/-- The reason of a reaction that stops. -/
@[simp] theorem result_stop (outputs : List Output) (reason : Stop)
    : (stop outputs reason : Reaction Output Stop State).result = .error reason := rfl

/-- Outputs in front come first. -/
@[simp] theorem emitted_prepend (outputs : List Output)
    (reaction : Reaction Output Stop State)
    : (reaction.prepend outputs).emitted = outputs ++ reaction.emitted := rfl

/-- Outputs in front do not change the result. -/
@[simp] theorem result_prepend (outputs : List Output)
    (reaction : Reaction Output Stop State)
    : (reaction.prepend outputs).result = reaction.result := rfl

/-- Outputs in front of a reaction that goes on are its first outputs. -/
@[simp] theorem prepend_emit (outputs more : List Output) (state : State)
    : (emit more state : Reaction Output Stop State).prepend outputs
      = emit (outputs ++ more) state := rfl

/-- Outputs in front of a reaction that stops are its first outputs. -/
@[simp] theorem prepend_stop (outputs more : List Output) (reason : Stop)
    : (stop more reason : Reaction Output Stop State).prepend outputs
      = stop (outputs ++ more) reason := rfl

/-- Reactions that stop are equal only with the same outputs and the same reason. -/
theorem stop_inj {outputs more : List Output} {left right : Stop}
    (same : (stop outputs left : Reaction Output Stop State) = stop more right)
    : outputs = more ∧ left = right :=
  ⟨congrArg emitted same, Except.error.inj (congrArg result same)⟩

/-- No outputs in front change nothing. -/
@[simp] theorem prepend_nil (reaction : Reaction Output Stop State)
    : reaction.prepend [] = reaction := rfl

/-- Outputs in front are put together. -/
@[simp] theorem prepend_prepend (outputs more : List Output)
    (reaction : Reaction Output Stop State)
    : (reaction.prepend more).prepend outputs = reaction.prepend (outputs ++ more) := by
  simp [prepend]

/-- A reaction is its emission and its outcome; the two cases of the outcome. -/
theorem cases_eq (reaction : Reaction Output Stop State)
    : (∃ outputs state, reaction = emit outputs state)
      ∨ ∃ outputs reason, reaction = stop outputs reason := by
  obtain ⟨outputs, result⟩ := reaction
  cases result with
  | ok state => exact Or.inl ⟨outputs, state, rfl⟩
  | error reason => exact Or.inr ⟨outputs, reason, rfl⟩

/-- Outputs in front of a sequence are in front of its first part. -/
@[simp] theorem prepend_andThen (outputs : List Output)
    (first : Reaction Output Stop State) (next : State → Reaction Output Stop Next)
    : (first.prepend outputs).andThen next = (first.andThen next).prepend outputs := by
  rcases first.cases_eq with ⟨more, state, rfl⟩ | ⟨more, reason, rfl⟩ <;> simp

/-- Sequences associate. -/
theorem andThen_assoc {Last : Type} (first : Reaction Output Stop State)
    (next : State → Reaction Output Stop Next)
    (last : Next → Reaction Output Stop Last)
    : (first.andThen next).andThen last
      = first.andThen (fun state => (next state).andThen last) := by
  rcases first.cases_eq with ⟨outputs, state, rfl⟩ | ⟨outputs, reason, rfl⟩ <;> simp

/-- To return the state behind a reaction changes nothing. -/
@[simp] theorem andThen_emit_nil (reaction : Reaction Output Stop State)
    : reaction.andThen (emit []) = reaction := by
  rcases reaction.cases_eq with ⟨outputs, state, rfl⟩ | ⟨outputs, reason, rfl⟩ <;> simp

/-- A continued reaction goes on if both of its parts do. -/
theorem andThen_eq_emit {first : Reaction Output Stop State}
    {next : State → Reaction Output Stop Next} {outputs : List Output} {last : Next}
    : first.andThen next = emit outputs last
      ↔ ∃ early state late,
          first = emit early state ∧ next state = emit late last ∧ early ++ late = outputs := by
  constructor
  · intro goes
    rcases first.cases_eq with ⟨early, state, rfl⟩ | ⟨early, reason, rfl⟩
    · rcases (next state).cases_eq with ⟨late, after, same⟩ | ⟨late, reason, same⟩
      · rw [emit_andThen, same, prepend_emit] at goes
        cases goes
        exact ⟨early, state, late, rfl, same, rfl⟩
      · rw [emit_andThen, same] at goes
        cases goes
    · cases goes
  · rintro ⟨early, state, late, rfl, same, rfl⟩
    rw [emit_andThen, same, prepend_emit]

/-- Continuing a reaction only adds outputs. -/
theorem emitted_prefix_andThen (first : Reaction Output Stop State)
    (next : State → Reaction Output Stop Next)
    : first.emitted <+: (first.andThen next).emitted := by
  rcases first.cases_eq with ⟨outputs, state, rfl⟩ | ⟨outputs, reason, rfl⟩
  · exact List.prefix_append _ _
  · exact List.prefix_rfl

instance : LawfulMonad (Reaction Output Stop) :=
  LawfulMonad.mk' _ andThen_emit_nil (fun _ _ => rfl) andThen_assoc

/-- Rename the states a reaction goes on from and the reasons it stops for. -/
def project (live : State → Next) (final : Stop → Final)
    (reaction : Reaction Output Stop State)
    : Reaction Output Final Next :=
  ⟨reaction.emitted, (reaction.result.map live).mapError final⟩

/-- A reaction that goes on is projected by its state. -/
@[simp] theorem project_emit (live : State → Next) (final : Stop → Final)
    (outputs : List Output) (state : State)
    : (emit outputs state : Reaction Output Stop State).project live final
      = emit outputs (live state) := rfl

/-- A reaction that stops is projected by its reason. -/
@[simp] theorem project_stop (live : State → Next) (final : Stop → Final)
    (outputs : List Output) (reason : Stop)
    : (stop outputs reason : Reaction Output Stop State).project live final
      = stop outputs (final reason) := rfl

/-- A projection keeps the outputs. -/
@[simp] theorem emitted_project (live : State → Next) (final : Stop → Final)
    (reaction : Reaction Output Stop State)
    : (reaction.project live final).emitted = reaction.emitted := rfl

/-- A projection keeps the outputs in front. -/
@[simp] theorem project_prepend (live : State → Next) (final : Stop → Final)
    (outputs : List Output) (reaction : Reaction Output Stop State)
    : (reaction.prepend outputs).project live final
      = (reaction.project live final).prepend outputs := rfl

/-- A reaction that goes on after renaming went on before. -/
theorem emit_of_project {live : State → Next} {final : Stop → Final} {outputs : List Output}
    {next : Next} {reaction : Reaction Output Stop State}
    (projects : reaction.project live final = emit outputs next)
    : ∃ state, reaction = emit outputs state ∧ live state = next := by
  rcases reaction.cases_eq with ⟨more, state, rfl⟩ | ⟨more, reason, rfl⟩
  · cases projects
    exact ⟨state, rfl, rfl⟩
  · cases projects

/-- A fold that stops does so at one of its letters, by induction on them. -/
theorem foldlM_stops {step : State → Letter → Reaction Output Stop State} {state : State}
    {letters : List Letter} {reason : Stop}
    (stops : (letters.foldlM step state).result = .error reason)
    : ∃ front letter back outputs middle,
        letters = front ++ letter :: back
        ∧ front.foldlM step state = emit outputs middle
        ∧ (step middle letter).result = .error reason := by
  induction letters generalizing state with
  | nil => cases stops
  | cons letter rest ih =>
      rw [List.foldlM_cons, bind_eq] at stops
      rcases (step state letter).cases_eq with ⟨early, next, goes⟩ | ⟨early, other, ends⟩
      · rw [goes, emit_andThen, result_prepend] at stops
        obtain ⟨front, last, back, outputs, middle, rfl, reads, stopped⟩ := ih stops
        refine ⟨letter :: front, last, back, early ++ outputs, middle, rfl, ?_, stopped⟩
        rw [List.foldlM_cons, bind_eq, goes, emit_andThen, reads, prepend_emit]
      · rw [ends] at stops
        cases stops
        exact ⟨[], letter, rest, [], state, rfl, rfl, by rw [ends]; rfl⟩

end Reaction
end NetworkAccess
