import NetworkAccess.Library.Reaction

/-! A `while` loop whose body emits outputs and may leave the loop for good. `Evaluates`
is the loop's meaning, with no bound on the iterations; `runWhile` computes it with fuel.
-/

namespace NetworkAccess
namespace Reaction

variable {Output Stop State : Type} (body : State → Reaction Output Stop State)
  (running : State → Prop)

/-- One iteration of the loop that ends by testing the condition again. -/
def Iterates (before after : State) : Prop :=
  running before ∧ (body before).result = .ok after

/-- Some number of iterations lead from one state to the other. -/
def Visits : State → State → Prop :=
  Relation.ReflTransGen (Iterates body running)

/-- The loop comes to an end after finitely many iterations, with this reaction. -/
inductive Evaluates : State → Reaction Output Stop State → Prop
  | done {state} (finished : ¬ running state) : Evaluates state (emit [] state)
  | halt {state outputs reason} (runs : running state)
    (halts : body state = stop outputs reason)
    : Evaluates state (stop outputs reason)
  | next {state after outputs rest} (runs : running state)
    (continues : body state = emit outputs after) (later : Evaluates after rest)
    : Evaluates state (rest.prepend outputs)

variable {body running}

/-- A property kept by every iteration holds wherever the loop gets, by induction on the
iterations.
-/
theorem Visits.invariant {motive : State → Prop} {first last : State}
    (visit : Visits body running first last) (start : motive first)
    (keeps : ∀ before after, motive before → Iterates body running before after → motive after)
    : motive last := by
  induction visit with
  | refl => exact start
  | tail _ iterates ih => exact keeps _ _ ih iterates

/-- The loop has at most one outcome, since its body is a function. -/
theorem Evaluates.unique {state : State} {left right : Reaction Output Stop State}
    (one : Evaluates body running state left) (other : Evaluates body running state right)
    : left = right := by
  induction one generalizing right with
  | done finished =>
      cases other with
      | done => rfl
      | halt runs | next runs => exact absurd runs finished
  | halt runs halts =>
      cases other with
      | done finished => exact absurd runs finished
      | halt _ again =>
          rw [halts] at again
          exact again
      | next _ continues => rw [halts] at continues; cases continues
  | next runs continues _ ih =>
      cases other with
      | done finished => exact absurd runs finished
      | halt _ halts => rw [continues] at halts; cases halts
      | next _ again later =>
          rw [continues] at again
          cases again
          rw [ih later]

/-- A loop that ends without stopping ends where its condition fails. -/
theorem Evaluates.finished {state last : State} {reaction : Reaction Output Stop State}
    (evaluates : Evaluates body running state reaction) (ends : reaction.result = .ok last)
    : Visits body running state last ∧ ¬ running last := by
  induction evaluates with
  | done finished =>
      cases ends
      exact ⟨.refl, finished⟩
  | halt => cases ends
  | next runs continues _ ih =>
      obtain ⟨visits, finished⟩ := ih ends
      exact ⟨.head ⟨runs, by rw [continues]; rfl⟩ visits, finished⟩

/-- A loop that stops does so in the body of some visited iteration. -/
theorem Evaluates.halted {state : State} {reason : Stop} {reaction : Reaction Output Stop State}
    (evaluates : Evaluates body running state reaction) (halts : reaction.result = .error reason)
    : ∃ last,
        Visits body running state last
        ∧ running last
        ∧ (body last).result = .error reason := by
  induction evaluates with
  | done => cases halts
  | @halt state _ _ runs stops => exact ⟨state, .refl, runs, by rw [stops]; exact halts⟩
  | next runs continues _ ih =>
      obtain ⟨last, visits, lastRuns, stops⟩ := ih halts
      exact ⟨last, .head ⟨runs, by rw [continues]; rfl⟩ visits, lastRuns, stops⟩

/-- A body that returns the state it was given keeps the loop from ever ending. -/
theorem Evaluates.not_of_stalled {state : State} {outputs : List Output}
    (runs : running state) (stalls : body state = emit outputs state)
    (reaction : Reaction Output Stop State)
    : ¬ Evaluates body running state reaction := by
  intro evaluates
  induction evaluates with
  | done finished => exact finished runs
  | halt _ halts => rw [stalls] at halts; cases halts
  | next _ continues _ ih =>
      rw [stalls] at continues
      cases continues
      exact ih runs stalls

/-- A loop that ends from here ends from every state it visits, with the remaining part of
its outputs.
-/
theorem Evaluates.of_visits {first last : State} (visits : Visits body running first last)
    {reaction : Reaction Output Stop State} (evaluates : Evaluates body running first reaction)
    : ∃ outputs rest,
        Evaluates body running last rest ∧ reaction = rest.prepend outputs := by
  induction visits with
  | refl => exact ⟨[], reaction, evaluates, rfl⟩
  | tail _ iterates ih =>
      obtain ⟨outputs, rest, current, rfl⟩ := ih
      cases current with
      | done finished => exact absurd iterates.1 finished
      | halt _ halts =>
          have goes := iterates.2
          rw [halts] at goes
          cases goes
      | next _ continues later =>
          have goes := iterates.2
          rw [continues] at goes
          cases goes
          exact ⟨_, _, later, prepend_prepend _ _ _⟩

/-- A loop that ends from a visited state ends from here, by induction on the visit. -/
theorem Visits.evaluates {first last : State} (visits : Visits body running first last)
    {rest : Reaction Output Stop State} (evaluates : Evaluates body running last rest)
    : ∃ outputs, Evaluates body running first (rest.prepend outputs) := by
  induction visits using Relation.ReflTransGen.head_induction_on with
  | refl => exact ⟨[], evaluates⟩
  | @head before after iterates _ ih =>
      obtain ⟨outputs, later⟩ := ih
      obtain ⟨runs, goes⟩ := iterates
      rcases (body before).cases_eq with ⟨more, next, continues⟩ | ⟨more, reason, halts⟩
      · rw [continues] at goes
        cases goes
        refine ⟨more ++ outputs, ?_⟩
        rw [← prepend_prepend]
        exact .next runs continues later
      · rw [halts] at goes
        cases goes

/-- Check every state that the loop visits, with a bound on their number. -/
def checkVisits (body : State → Reaction Output Stop State) (running : State → Prop)
    [DecidablePred running] (check : State → Bool)
    : Nat → State → Bool
  | 0, _ => false
  | fuel + 1, state =>
      check state
      && (if running state then
          match (body state).result with
          | .ok next => checkVisits body running check fuel next
          | .error _ => true
        else
          true)

/-- A check that succeeds covers every visited state, by induction on the bound. -/
theorem checkVisits_sound [DecidablePred running] {check : State → Bool} {fuel : Nat}
    {first last : State} (checked : checkVisits body running check fuel first = true)
    (visits : Visits body running first last)
    : check last = true := by
  induction fuel generalizing first with
  | zero => cases checked
  | succ fuel ih =>
      rw [checkVisits, Bool.and_eq_true] at checked
      obtain ⟨here, onward⟩ := checked
      rcases visits.cases_head with rfl | ⟨next, ⟨runs, goes⟩, further⟩
      · exact here
      · rw [if_pos runs, goes] at onward
        exact ih onward further

section Fuel

variable (body running) [DecidablePred running] (exhausted : State → Stop)

/-- The loop with a bound on its iterations; `exhausted` reports that the bound was met
while the condition still held.
-/
def runWhile : Nat → State → Reaction Output Stop State
  | 0, state => if running state then stop [] (exhausted state) else emit [] state
  | fuel + 1, state =>
      if running state then (body state).andThen (runWhile fuel) else emit [] state

variable {body running exhausted}

/-- A loop whose condition fails at once does nothing. -/
theorem runWhile_of_not_running {fuel : Nat} {state : State} (finished : ¬ running state)
    : runWhile body running exhausted fuel state = emit [] state := by
  cases fuel <;> simp [runWhile, finished]

/-- A stalled loop uses up any amount of fuel. -/
theorem runWhile_of_stalled {state : State} (runs : running state)
    (stalls : body state = emit [] state) (fuel : Nat)
    : runWhile body running exhausted fuel state = stop [] (exhausted state) := by
  induction fuel with
  | zero => simp [runWhile, runs]
  | succ fuel ih => simp [runWhile, runs, stalls, ih, stop]

/-- What every output of the visited iterations satisfies, every output of the loop does. -/
theorem runWhile_forall_outputs {good : Output → Prop} {fuel : Nat} {state : State}
    (each
      : ∀ before,
          Visits body running state before
          → running before
          → ∀ output ∈ (body before).emitted, good output)
    : ∀ output ∈ (runWhile body running exhausted fuel state).emitted, good output := by
  induction fuel generalizing state with
  | zero =>
      rw [runWhile]
      split <;> exact List.forall_mem_nil _
  | succ fuel ih =>
      by_cases runs : running state
      · have here := each state .refl runs
        rw [runWhile, if_pos runs]
        rcases (body state).cases_eq with ⟨outputs, after, eq⟩ | ⟨outputs, reason, eq⟩
        · have iterates : Iterates body running state after := ⟨runs, by rw [eq]; rfl⟩
          rw [eq] at here
          rw [eq, emit_andThen, emitted_prepend, List.forall_mem_append]
          exact ⟨here, ih (fun before visits => each before (.head iterates visits))⟩
        · rw [eq] at here
          rw [eq]
          exact here
      · rw [runWhile_of_not_running runs]
        exact List.forall_mem_nil _

/-- Where every iteration keeps an invariant and decreases a measure or changes nothing,
fuel above the measure decides the loop: the bounded run is its outcome, or the loop is
stalled for ever.
-/
theorem runWhile_decides {motive : State → Prop} (size : State → Nat)
    (keeps : ∀ before after, motive before → Iterates body running before after → motive after)
    (progress : ∀ before after outputs,
      motive before → running before → body before = emit outputs after
        → size after < size before ∨ (outputs = [] ∧ after = before))
    {fuel : Nat} {state : State} (start : motive state) (enough : size state < fuel)
    : Evaluates body running state (runWhile body running exhausted fuel state)
      ∨ ∃ stuck,
          Visits body running state stuck
          ∧ running stuck
          ∧ body stuck = emit [] stuck
          ∧ (runWhile body running exhausted fuel state).result = .error (exhausted stuck) := by
  induction fuel generalizing state with
  | zero => omega
  | succ fuel ih =>
      by_cases runs : running state
      · rw [runWhile, if_pos runs]
        rcases (body state).cases_eq with ⟨outputs, after, eq⟩ | ⟨outputs, reason, eq⟩
        · have iterates : Iterates body running state after := ⟨runs, by rw [eq]; rfl⟩
          rw [eq, emit_andThen]
          rcases progress state after outputs start runs eq with smaller | ⟨rfl, rfl⟩
          · rcases ih (keeps _ _ start iterates) (by omega : size after < fuel) with
              evaluates | ⟨stuck, visits, rest⟩
            · exact Or.inl (.next runs eq evaluates)
            · exact Or.inr ⟨stuck, .head iterates visits, rest⟩
          · refine Or.inr ⟨after, .refl, runs, eq, ?_⟩
            rw [runWhile_of_stalled runs eq]
            rfl
        · rw [eq]
          exact Or.inl (.halt runs eq)
      · rw [runWhile_of_not_running runs]
        exact Or.inl (.done runs)

end Fuel
end Reaction
end NetworkAccess
