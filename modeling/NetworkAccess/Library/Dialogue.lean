import NetworkAccess.Library.Ensures

/-! Programs that talk with their environment in exchanges, each of which is some of their calls.
The rules are about pre- and postconditions on the exchanges so far.
-/

namespace NetworkAccess

variable {Output Stop State Exchange Value Next : Type}

/-- The program continues a history as `before` says by whole exchanges. It then returns as `after`
says, or stops as `ended` says, each about the history up to there.
-/
def Conducts (calls : Exchange → List Output) (ended : List Exchange → Stop → Prop)
    (before : List Exchange → State → Prop) (program : StateT State (Reaction Output Stop) Value)
    (after : Value → List Exchange → State → Prop)
    : Prop :=
  ∀ history state,
    before history state
    → Reaction.Ensures
      (fun trace result => ∃ later, trace = later.flatMap calls ∧ after result.1 later result.2)
      (fun trace reason => ∃ later, trace = later.flatMap calls ∧ ended later reason)
      (history.flatMap calls) (program state)

namespace Conducts

variable {calls : Exchange → List Output} {ended : List Exchange → Stop → Prop}
  {before : List Exchange → State → Prop} {program : StateT State (Reaction Output Stop) Value}
  {after : Value → List Exchange → State → Prop}

/-- A program that makes no calls, and may stop. -/
theorem quiet
    (goes
      : ∀ history state,
          before history state
          → (∃ value next, program state = .emit [] (value, next) ∧ after value history next)
            ∨ ∃ reason, program state = .stop [] reason ∧ ended history reason)
    : Conducts calls ended before program after := by
  intro history state holds
  rcases goes history state holds with ⟨value, next, returns, good⟩ | ⟨reason, stops, good⟩
  · rw [returns]
    exact ⟨history, by simp, good⟩
  · rw [stops]
    exact ⟨history, by simp, good⟩

/-- A program that makes no calls and goes on. -/
theorem silent
    (goes
      : ∀ history state,
          before history state
          → ∃ value next, program state = .emit [] (value, next) ∧ after value history next)
    : Conducts calls ended before program after :=
  quiet (fun history state holds => Or.inl (goes history state holds))

/-- A value that is returned without a call conducts what holds of it. -/
theorem pure {value : Value}
    (holds : ∀ history state, before history state → after value history state)
    : Conducts calls ended before (Pure.pure value) after :=
  silent (fun history state started => ⟨value, state, rfl, holds history state started⟩)

/-- One program behind another. -/
theorem bind {middle : Value → List Exchange → State → Prop}
    {next : Value → StateT State (Reaction Output Stop) Next}
    {final : Next → List Exchange → State → Prop}
    (first : Conducts calls ended before program middle)
    (second : ∀ value, Conducts calls ended (middle value) (next value) final)
    : Conducts calls ended before (program >>= next) final := by
  intro history state holds
  refine (first history state holds).andThen (fun trace result goes => ?_)
  obtain ⟨later, rfl, good⟩ := goes
  exact second result.1 later result.2 good

/-- A conduct may be entered with more and left with less. -/
theorem imp {earlier : List Exchange → State → Prop} {weaker : Value → List Exchange → State → Prop}
    (conducts : Conducts calls ended before program after)
    (start : ∀ history state, earlier history state → before history state)
    (finish : ∀ value history state, after value history state → weaker value history state)
    : Conducts calls ended earlier program weaker := by
  intro history state holds
  refine (conducts history state (start history state holds)).imp ?_ (fun _ _ stops => stops)
  rintro trace result ⟨later, same, good⟩
  exact ⟨later, same, finish _ _ _ good⟩

/-- What is known to exist before a program can be chosen. -/
theorem choose {Known : Type} {known : Known → List Exchange → State → Prop}
    (each : ∀ choice, Conducts calls ended (known choice) program after)
    : Conducts calls ended (fun history state => ∃ choice, known choice history state) program
        after :=
  fun history state ⟨choice, holds⟩ => each choice history state holds

/-- A fact that has nothing to do with the history. -/
theorem given {fact : Prop} (each : fact → Conducts calls ended before program after)
    : Conducts calls ended (fun history state => fact ∧ before history state) program after :=
  fun history state ⟨known, holds⟩ => each known history state holds

/-- What holds of a whole run. -/
theorem run (conducts : Conducts calls ended before program after) {state : State}
    (start : before [] state)
    : ∃ history,
        (program state).emitted = history.flatMap calls
        ∧ match (program state).result with
          | .ok (value, last) => after value history last
          | .error reason => ended history reason := by
  have ensures := conducts [] state start
  rcases (program state).cases_eq with ⟨outputs, ⟨value, last⟩, eq⟩ | ⟨outputs, reason, eq⟩
  · rw [eq] at ensures ⊢
    exact ensures
  · rw [eq] at ensures ⊢
    exact ensures

end Conducts
end NetworkAccess
