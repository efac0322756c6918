import NetworkAccess.Library.Segments
import NetworkAccess.Library.WhileLoop

/-! What a reaction ensures, given the outputs before it: a rule for each way of building
reactions, so that an invariant of outputs and state is proved for the parts only.
-/

namespace NetworkAccess
namespace Reaction

variable {Output Stop State Next Coarse Segment : Type}

/-- After the outputs in `trace`, the reaction goes on in a state that satisfies `live`, or
it stops for a reason that satisfies `ended`, each together with all outputs so far.
-/
def Ensures (live : List Output → State → Prop) (ended : List Output → Stop → Prop)
    (trace : List Output) (reaction : Reaction Output Stop State)
    : Prop :=
  match reaction.result with
  | .ok state => live (trace ++ reaction.emitted) state
  | .error reason => ended (trace ++ reaction.emitted) reason

namespace Ensures

variable {live : List Output → State → Prop} {ended : List Output → Stop → Prop}
  {trace : List Output} {reaction : Reaction Output Stop State}

/-- A reaction that goes on ensures what holds of its state behind its outputs. -/
@[simp] theorem emit_iff {outputs : List Output} {state : State}
    : Ensures live ended trace (.emit outputs state) ↔ live (trace ++ outputs) state := .rfl

/-- A reaction that stops ensures what holds of its reason behind its outputs. -/
@[simp] theorem stop_iff {outputs : List Output} {reason : Stop}
    : Ensures live ended trace (.stop outputs reason) ↔ ended (trace ++ outputs) reason := .rfl

/-- Outputs in front are part of the trace. -/
theorem prepend_iff {outputs : List Output}
    : Ensures live ended trace (reaction.prepend outputs)
      ↔ Ensures live ended (trace ++ outputs) reaction := by
  rcases reaction.cases_eq with ⟨more, state, rfl⟩ | ⟨more, reason, rfl⟩ <;> simp

/-- What is ensured of the state that a reaction goes on with. -/
theorem ok (ensures : Ensures live ended trace reaction) {state : State}
    (goes : reaction.result = .ok state)
    : live (trace ++ reaction.emitted) state := by
  rw [Ensures, goes] at ensures
  exact ensures

/-- What is ensured of the reason that a reaction stops for. -/
theorem error (ensures : Ensures live ended trace reaction) {reason : Stop}
    (stops : reaction.result = .error reason)
    : ended (trace ++ reaction.emitted) reason := by
  rw [Ensures, stops] at ensures
  exact ensures

/-- Weaker conditions are ensured as well. -/
theorem imp {weaker : List Output → State → Prop} {weakerEnd : List Output → Stop → Prop}
    (ensures : Ensures live ended trace reaction)
    (onward : ∀ trace state, live trace state → weaker trace state)
    (atEnd : ∀ trace reason, ended trace reason → weakerEnd trace reason)
    : Ensures weaker weakerEnd trace reaction := by
  rcases reaction.cases_eq with ⟨outputs, state, rfl⟩ | ⟨outputs, reason, rfl⟩
  · exact onward _ _ ensures
  · exact atEnd _ _ ensures

/-- What goes on ensures what follows from there. -/
theorem andThen {later : List Output → Next → Prop}
    {next : State → Reaction Output Stop Next} (ensures : Ensures live ended trace reaction)
    (goOn : ∀ trace state, live trace state → Ensures later ended trace (next state))
    : Ensures later ended trace (reaction.andThen next) := by
  rcases reaction.cases_eq with ⟨outputs, state, rfl⟩ | ⟨outputs, reason, rfl⟩
  · rw [emit_andThen, prepend_iff]
    exact goOn _ _ ensures
  · exact ensures

/-- What every visited iteration keeps, the loop keeps, and it ends where its condition
fails, by induction on the fuel.
-/
theorem runWhile {body : State → Reaction Output Stop State} {running : State → Prop}
    [DecidablePred running] {exhausted : State → Stop}
    (stuck : ∀ trace state, live trace state → running state → ended trace (exhausted state))
    {fuel : Nat} {first : State}
    (each
      : ∀ trace state,
          Visits body running first state
          → live trace state
          → running state
          → Ensures live ended trace (body state))
    (start : live trace first)
    : Ensures (fun trace last => live trace last ∧ ¬ running last) ended trace
        (Reaction.runWhile body running exhausted fuel first) := by
  induction fuel generalizing trace first with
  | zero =>
      rw [Reaction.runWhile]
      split
      case isTrue runs => simpa using stuck _ _ start runs
      case isFalse finished => simpa using And.intro start finished
  | succ fuel ih =>
      rw [Reaction.runWhile]
      split
      case isTrue runs =>
        have here := each trace first .refl start runs
        rcases (body first).cases_eq with ⟨outputs, after, eq⟩ | ⟨outputs, reason, eq⟩
        · rw [eq, emit_andThen, prepend_iff]
          rw [eq] at here
          refine ih (fun trace state visits => each trace state (.head ⟨runs, ?_⟩ visits)) here
          rw [eq]
          rfl
        · rw [eq] at here ⊢
          exact here
      case isFalse finished => simpa using And.intro start finished

/-- What every calm segment keeps, a calm run keeps, by induction on the segments. -/
theorem foldlM {handle : State → Segment → Reaction Output Stop State}
    {calm : State → Segment → Prop}
    (each
      : ∀ trace state segment,
          live trace state → calm state segment → Ensures live ended trace (handle state segment))
    {state : State} {segments : List Segment} (along : CalmAlong handle calm state segments)
    (start : live trace state)
    : Ensures live ended trace (segments.foldlM handle state) := by
  induction segments generalizing trace state with
  | nil => simpa using start
  | cons segment rest ih =>
      rw [List.foldlM_cons, bind_eq]
      have here := each trace state segment start along.1
      rcases (handle state segment).cases_eq with ⟨outputs, next, eq⟩ | ⟨outputs, reason, eq⟩
      · rw [eq, emit_andThen, prepend_iff]
        rw [eq] at here
        exact ih (along.2 next (by rw [eq]; rfl)) here
      · rw [eq] at here ⊢
        exact here

end Ensures
end Reaction
end NetworkAccess
