import NetworkAccess.Library.Reaction

/-! A machine run again on what it was answered: the answers that its outputs record take the place
of everything that answered it, and the second run is the first one over.
-/

namespace NetworkAccess
namespace Reaction

variable {Output Stop Cause State Core Next Later Letter Answer : Type}

/-- Given the answers that the run records, and more of them, the replay emits what the run does,
goes on as it does, and leaves the rest of the answers.
-/
def Records (answer : Output → Option Answer) (core : State → Core) (cause : Stop → Cause)
    (run : Reaction Output Stop State)
    (replay : List Answer → Reaction Output (Cause × List Answer) (Core × List Answer))
    : Prop :=
  ∀ more,
    replay (run.emitted.filterMap answer ++ more)
      = run.project (fun state => (core state, more)) (fun reason => (cause reason, more))

namespace Records

variable {answer : Output → Option Answer} {core : State → Core} {cause : Stop → Cause}

/-- A run that goes on, given what its replay does with its answers. -/
theorem of_emit {outputs : List Output} {state : State}
    {replay : List Answer → Reaction Output (Cause × List Answer) (Core × List Answer)}
    (again
      : ∀ more, replay (outputs.filterMap answer ++ more) = .emit outputs (core state, more))
    : Records answer core cause (.emit outputs state) replay := again

/-- A run that stops. -/
theorem of_stop {outputs : List Output} {reason : Stop}
    {replay : List Answer → Reaction Output (Cause × List Answer) (Core × List Answer)}
    (again
      : ∀ more, replay (outputs.filterMap answer ++ more) = .stop outputs (cause reason, more))
    : Records answer core cause (.stop outputs reason) replay := again

/-- Outputs in front of both, which record no answers. -/
theorem prepend {outputs : List Output} (silent : outputs.filterMap answer = [])
    {run : Reaction Output Stop State}
    {replay : List Answer → Reaction Output (Cause × List Answer) (Core × List Answer)}
    (records : Records answer core cause run replay)
    : Records answer core cause (run.prepend outputs)
        (fun answers => (replay answers).prepend outputs) := by
  intro more
  simp only [emitted_prepend, List.filterMap_append, silent, List.nil_append, records more,
    project_prepend]

/-- One run after the other takes its answers from the same list. -/
theorem andThen {after : Next → Later} {first : Reaction Output Stop State}
    {next : State → Reaction Output Stop Next}
    {replay : List Answer → Reaction Output (Cause × List Answer) (Core × List Answer)}
    {follow : Core × List Answer → Reaction Output (Cause × List Answer) (Later × List Answer)}
    (records : Records answer core cause first replay)
    (goOn
      : ∀ state,
          first.result = .ok state
          → Records answer after cause (next state) (fun answers => follow (core state, answers)))
    : Records answer after cause (first.andThen next)
        (fun answers => (replay answers).andThen follow) := by
  intro more
  rcases first.cases_eq with ⟨outputs, state, rfl⟩ | ⟨outputs, reason, rfl⟩
  · have again := records ((next state).emitted.filterMap answer ++ more)
    simp only [emitted_emit, project_emit] at again
    simp only [emit_andThen, emitted_prepend, List.filterMap_append, List.append_assoc, again,
      project_prepend, goOn state rfl more]
  · have again := records more
    simp only [emitted_stop, project_stop] at again
    simp only [stop_andThen, emitted_stop, again, project_stop]

/-- A machine whose steps can be run again can read a stream again, by induction on its letters. -/
theorem foldlM {step : State → Letter → Reaction Output Stop State}
    {walk
      : Core × List Answer → Letter → Reaction Output (Cause × List Answer) (Core × List Answer)}
    (steps
      : ∀ state letter,
          Records answer core cause (step state letter)
            (fun answers => walk (core state, answers) letter))
    (state : State) (letters : List Letter)
    : Records answer core cause (letters.foldlM step state)
        (fun answers => letters.foldlM walk (core state, answers)) := by
  induction letters generalizing state with
  | nil => exact fun _ => rfl
  | cons letter rest ih => exact (steps state letter).andThen (fun next _ => ih next)

end Records
end Reaction
end NetworkAccess
