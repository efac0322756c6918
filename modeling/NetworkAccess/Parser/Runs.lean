import NetworkAccess.Library.Ensures
import NetworkAccess.Parser.StepInvariants

/-! Runs of a connection over successive reads: how `preprocess_data` ends in terms of the
iterations it makes, the configurations a run visits, and what can be observed of it.
-/

namespace NetworkAccess

variable {Emulator : Type}

/-- A loop that ends never comes to an empty block that nothing can finish with bytes behind
it: such a block stalls it.
-/
theorem Config.Ends.not_spins {host : Host Emulator} {config later : Config Emulator}
    {turn : Turn Emulator (Config Emulator)} (ends : config.Ends host turn)
    (wellFormed : config.client.WellFormed) (reaches : config.Reaches host later)
    : ¬ later.Spins := by
  intro spins
  obtain ⟨_, rest, fromThere, -⟩ := ends.of_visits reaches
  exact Reaction.Evaluates.not_of_stalled (show later.running from spins.more)
    (spins.stalls host (reaches.kept wellFormed).1) rest fromThere

/-- The computed turn is the one with which the loop ends, if it ends. -/
theorem preprocessData_of_ends {host : Host Emulator} {config : Config Emulator}
    (wellFormed : config.client.WellFormed) {turn : Turn Emulator (Config Emulator)}
    (ends : config.Ends host turn)
    : preprocessData host config = turn := by
  rcases preprocessData_decides host wellFormed with computed | ⟨stuck, reaches, spins, -⟩
  · exact computed.unique ends
  · exact absurd spins (ends.not_spins wellFormed reaches)

/-- A loop that gets to the end of the read returns `true`. -/
theorem Config.Reaches.returns {host : Host Emulator} {config later : Config Emulator}
    (reaches : config.Reaches host later) (wellFormed : config.client.WellFormed)
    (ended : later.unread = [])
    : (preprocessData host config).result = .ok later := by
  obtain ⟨outputs, ends⟩ := reaches.evaluates (.done (fun running => running ended))
  rw [preprocessData_of_ends wellFormed ends]
  rfl

/-- A loop that returns `true` got to the end of the read. -/
theorem preprocessData_ok {host : Host Emulator} {config last : Config Emulator}
    (wellFormed : config.client.WellFormed)
    (returns : (preprocessData host config).result = .ok last)
    : config.Reaches host last ∧ last.unread = [] := by
  rcases preprocessData_decides host wellFormed with ends | ⟨stuck, -, -, result⟩
  · obtain ⟨reaches, finished⟩ := ends.finished returns
    exact ⟨reaches, not_not.mp finished⟩
  · rw [result] at returns
    cases returns

/-- A loop that returns `true` never spins. -/
theorem Config.Reaches.not_spins {host : Host Emulator} {config last later : Config Emulator}
    (wellFormed : config.client.WellFormed)
    (returns : (preprocessData host config).result = .ok last)
    (reaches : config.Reaches host later)
    : ¬ later.Spins := by
  rcases preprocessData_decides host wellFormed with ends | ⟨stuck, -, -, result⟩
  · exact ends.not_spins wellFormed reaches
  · rw [result] at returns
    cases returns

/-- A loop that does not return got to an iteration that stops or to an empty block that
nothing can finish.
-/
theorem preprocessData_error {host : Host Emulator} {config : Config Emulator}
    {stopped : Stopped Emulator} (wellFormed : config.client.WellFormed)
    (stops : (preprocessData host config).result = .error stopped)
    : ∃ later,
        config.Reaches host later
        ∧ later.unread ≠ []
        ∧ ((iteration host later).result = .error stopped
          ∨ later.Spins ∧ stopped = ⟨.spinning, later⟩) := by
  rcases preprocessData_decides host wellFormed with ends | ⟨stuck, reaches, spins, result⟩
  · obtain ⟨later, reaches, more, halts⟩ := ends.halted stops
    exact ⟨later, reaches, more, Or.inl halts⟩
  · rw [result] at stops
    cases stops
    exact ⟨stuck, reaches, spins.more, Or.inr ⟨spins, rfl⟩⟩

-----------------------------------------------------------------------------------------
-- Successive reads
-----------------------------------------------------------------------------------------

/-- Without a read nothing happens. -/
@[simp] theorem feedReads_nil (host : Host Emulator) (state : Client × Emulator)
    : feedReads host state [] = .emit [] state := rfl

/-- Reads are handled one by one. -/
theorem feedReads_cons (host : Host Emulator) (state : Client × Emulator)
    (read : ClientRead) (rest : List ClientRead)
    : feedReads host state (read :: rest)
      = (feedRead host state read).andThen (fun next => feedReads host next rest) := rfl

/-- Reads are handled part by part. -/
theorem feedReads_append (host : Host Emulator) (state : Client × Emulator)
    (reads more : List ClientRead)
    : feedReads host state (reads ++ more)
      = (feedReads host state reads).andThen (fun next => feedReads host next more) :=
  List.foldlM_append

/-- The invariant holds where a read enters the loop. -/
theorem Config.wellFormed_enter {client : Client} (wellFormed : client.WellFormed)
    (emulator : Emulator) (read : ClientRead)
    : (Config.enter client emulator read).client.WellFormed :=
  wellFormed.read read.bytes

/-- The result of one read is the result of its loop. -/
theorem feedRead_result (host : Host Emulator) (state : Client × Emulator)
    (read : ClientRead)
    : (feedRead host state read).result
      = (preprocessData host (Config.enter state.1 state.2 read)).result.map
          (fun last => (last.client, last.emulator)) := by
  rw [feedRead]
  rcases (preprocessData host (Config.enter state.1 state.2 read)).cases_eq with
    ⟨events, last, run⟩ | ⟨events, reason, run⟩ <;> (rw [run]; rfl)

/-- The events of a read are those of its loop. -/
theorem feedRead_emitted (host : Host Emulator) (state : Client × Emulator)
    (read : ClientRead)
    : (feedRead host state read).emitted
      = (preprocessData host (Config.enter state.1 state.2 read)).emitted := by
  rw [feedRead]
  rcases (preprocessData host (Config.enter state.1 state.2 read)).cases_eq with
    ⟨events, last, run⟩ | ⟨events, reason, run⟩
  · simp [run]
  · rw [run]
    rfl

/-- A read that goes on leaves what its loop returns. -/
theorem feedRead_ok {host : Host Emulator} {state next : Client × Emulator}
    {read : ClientRead} (continues : (feedRead host state read).result = .ok next)
    : ∃ last,
        (preprocessData host (Config.enter state.1 state.2 read)).result = .ok last
        ∧ next = (last.client, last.emulator) := by
  rw [feedRead_result] at continues
  cases result : (preprocessData host (Config.enter state.1 state.2 read)).result with
  | ok last =>
      rw [result] at continues
      cases continues
      exact ⟨last, rfl, rfl⟩
  | error reason =>
      rw [result] at continues
      cases continues

/-- A read stops for what its loop stops for. -/
theorem feedRead_error {host : Host Emulator} {state : Client × Emulator}
    {read : ClientRead} {stopped : Stopped Emulator}
    : (feedRead host state read).result = .error stopped
      ↔ (preprocessData host (Config.enter state.1 state.2 read)).result = .error stopped := by
  rw [feedRead_result]
  cases (preprocessData host (Config.enter state.1 state.2 read)).result with
  | ok last => exact ⟨nofun, nofun⟩
  | error reason => simp only [Except.map, Except.error.injEq]

/-- A read keeps the representation invariant and the descriptor. -/
theorem feedRead_kept {host : Host Emulator} {state next : Client × Emulator}
    {read : ClientRead} (wellFormed : state.1.WellFormed)
    (continues : (feedRead host state read).result = .ok next)
    : next.1.WellFormed ∧ next.1.socketFd = state.1.socketFd := by
  obtain ⟨last, returns, rfl⟩ := feedRead_ok continues
  have formed := wellFormed.read read.bytes
  obtain ⟨reaches, -⟩ := preprocessData_ok formed returns
  exact ⟨(reaches.kept formed).1, (reaches.kept formed).2.1⟩

/-- A run keeps the representation invariant and the descriptor, by induction on its reads. -/
theorem feedReads_kept {host : Host Emulator} {state last : Client × Emulator}
    {reads : List ClientRead} (wellFormed : state.1.WellFormed)
    (continues : (feedReads host state reads).result = .ok last)
    : last.1.WellFormed ∧ last.1.socketFd = state.1.socketFd := by
  induction reads generalizing state with
  | nil =>
      cases continues
      exact ⟨wellFormed, rfl⟩
  | cons read rest ih =>
      rw [feedReads_cons] at continues
      rcases (feedRead host state read).cases_eq with ⟨events, next, run⟩ | ⟨events, reason, run⟩
      · rw [run] at continues
        have kept := feedRead_kept wellFormed (by rw [run]; rfl : _ = Except.ok next)
        obtain ⟨formed, socket⟩ := ih kept.1 continues
        exact ⟨formed, socket.trans kept.2⟩
      · rw [run] at continues
        cases continues

-----------------------------------------------------------------------------------------
-- Visited configurations
-----------------------------------------------------------------------------------------

/-- A run over the reads is in `state` when it comes to `read`. -/
inductive Arrives (host : Host Emulator)
    : Client × Emulator → List ClientRead → Client × Emulator → ClientRead → Prop
  | here {state read rest} : Arrives host state (read :: rest) state read
  | later {state next last first read rest}
    (continues : (feedRead host state first).result = .ok next)
    (arrives : Arrives host next rest last read)
    : Arrives host state (first :: rest) last read

/-- The invariant holds wherever a read arrives, by induction on the reads before it. -/
theorem Arrives.kept {host : Host Emulator} {start state : Client × Emulator}
    {reads : List ClientRead} {read : ClientRead}
    (arrives : Arrives host start reads state read) (wellFormed : start.1.WellFormed)
    : state.1.WellFormed := by
  induction arrives with
  | here => exact wellFormed
  | later continues _ ih => exact ih (feedRead_kept wellFormed continues).1

/-- The descriptor of a connection stays the same. -/
theorem Arrives.socketFd {host : Host Emulator} {start state : Client × Emulator}
    {reads : List ClientRead} {read : ClientRead}
    (arrives : Arrives host start reads state read) (wellFormed : start.1.WellFormed)
    : state.1.socketFd = start.1.socketFd := by
  induction arrives with
  | here => rfl
  | later continues _ ih =>
      obtain ⟨formed, socket⟩ := feedRead_kept wellFormed continues
      exact (ih formed).trans socket

/-- A run stops in the read that it does not return from. -/
theorem Arrives.stops {host : Host Emulator} {start state : Client × Emulator}
    {reads : List ClientRead} {read : ClientRead} {stopped : Stopped Emulator}
    (arrives : Arrives host start reads state read)
    (stops : (feedRead host state read).result = .error stopped)
    : (feedReads host start reads).result = .error stopped := by
  induction arrives with
  | here => rw [feedReads_cons, Reaction.andThen, stops]
  | later continues _ ih =>
      rw [feedReads_cons, Reaction.andThen, continues]
      exact ih stops

/-- A run that stops comes to a read that it does not return from, by induction on the
reads.
-/
theorem arrives_of_stops {host : Host Emulator} {start : Client × Emulator}
    {reads : List ClientRead} {stopped : Stopped Emulator}
    (stops : (feedReads host start reads).result = .error stopped)
    : ∃ state read,
        Arrives host start reads state read
        ∧ (feedRead host state read).result = .error stopped := by
  induction reads generalizing start with
  | nil => cases stops
  | cons read rest ih =>
      rw [feedReads_cons] at stops
      rcases (feedRead host start read).cases_eq with ⟨events, next, run⟩ | ⟨events, reason, run⟩
      · rw [run] at stops
        obtain ⟨state, last, arrives, ended⟩ := ih stops
        exact ⟨state, last, .later (by rw [run]; rfl) arrives, ended⟩
      · rw [run] at stops
        cases stops
        exact ⟨start, read, .here, by rw [run]; rfl⟩

/-- A configuration at which some iteration of a run begins or a loop of it ends. -/
def Visited (host : Host Emulator) (start : Client × Emulator) (reads : List ClientRead)
    (config : Config Emulator)
    : Prop :=
  ∃ state read,
    Arrives host start reads state read
    ∧ (Config.enter state.1 state.2 read).Reaches host config

/-- A run over a single read visits what the loop of that read visits. -/
theorem Visited.of_single {host : Host Emulator} {start : Client × Emulator}
    {read : ClientRead} {config : Config Emulator}
    (visited : Visited host start [read] config)
    : (Config.enter start.1 start.2 read).Reaches host config := by
  obtain ⟨state, last, arrives, reaches⟩ := visited
  cases arrives with
  | here => exact reaches
  | later _ further => cases further

/-- What every read comes to is what every visited configuration satisfies, if that holds
for each read.
-/
theorem forall_arrives_iff {host : Host Emulator} {start : Client × Emulator}
    {reads : List ClientRead} {atRead atVisit : Config Emulator → Prop}
    (wellFormed : start.1.WellFormed)
    (each
      : ∀ client emulator read,
          client.WellFormed
          → (atRead (Config.enter client emulator read)
            ↔ ∀ later, (Config.enter client emulator read).Reaches host later → atVisit later))
    : (∀ state read,
        Arrives host start reads state read → atRead (Config.enter state.1 state.2 read))
      ↔ ∀ config, Visited host start reads config → atVisit config := by
  constructor
  · rintro all config ⟨state, read, arrives, reaches⟩
    exact (each _ _ _ (arrives.kept wellFormed)).mp (all state read arrives) config reaches
  · intro all state read arrives
    exact (each _ _ _ (arrives.kept wellFormed)).mpr
      (fun later reaches => all later ⟨state, read, arrives, reaches⟩)

/-- The step rule for traces: what every visited iteration keeps of the events so far and
the configuration, a run keeps. Witness: induction on the reads, and the rule of the loop
for each of them.
-/
theorem feedReads_outputs {host : Host Emulator}
    {motive : List Event → Config Emulator → Prop} {goal : List Event → Prop}
    (weaken : ∀ trace config, motive trace config → goal trace)
    (enters
      : ∀ trace client emulator read,
          motive trace ⟨client, [], emulator⟩ → motive trace (Config.enter client emulator read))
    {start : Client × Emulator} {reads : List ClientRead} {trace : List Event}
    (wellFormed : start.1.WellFormed) (begins : motive trace ⟨start.1, [], start.2⟩)
    (step
      : ∀ trace config,
          Visited host start reads config
          → motive trace config
          → config.unread ≠ []
          → goal (trace ++ (iteration host config).emitted)
            ∧ ∀ next, (iteration host config).result = .ok next
              → motive (trace ++ (iteration host config).emitted) next)
    : goal (trace ++ (feedReads host start reads).emitted)
      ∧ ∀ last, (feedReads host start reads).result = .ok last
        → motive (trace ++ (feedReads host start reads).emitted) ⟨last.1, [], last.2⟩ := by
  induction reads generalizing start trace with
  | nil =>
      rw [feedReads_nil, Reaction.emitted_emit, List.append_nil]
      refine ⟨weaken _ _ begins, ?_⟩
      rintro last ⟨⟩
      exact begins
  | cons read rest ih =>
      have loop
          : Reaction.Ensures (fun trace last => motive trace last ∧ ¬ last.running)
              (fun trace _ => goal trace) trace
              (preprocessData host (Config.enter start.1 start.2 read)) := by
        refine .runWhile (fun trace config kept _ => ?_)
          (fun trace config reaches kept more => ?_) (enters _ _ _ _ begins)
        · exact weaken trace config kept
        · obtain ⟨goal, next⟩ := step trace config ⟨start, read, .here, reaches⟩ kept more
          rcases (iteration host config).cases_eq with ⟨events, after, run⟩ | ⟨events, reason, run⟩
          · rw [run] at next ⊢
            exact next after rfl
          · rw [run] at goal ⊢
            exact goal
      rcases (preprocessData host (Config.enter start.1 start.2 read)).cases_eq with
        ⟨events, last, run⟩ | ⟨events, reason, run⟩
      · have turn : feedRead host start read = .emit events (last.client, last.emulator) := by
          simp [feedRead, run]
        rw [run] at loop
        obtain ⟨kept, finished⟩ := loop
        have between : last = ⟨last.client, [], last.emulator⟩ := by
          rw [← not_not.mp finished]
        rw [between] at kept
        have later := ih (feedRead_kept wellFormed (by rw [turn]; rfl)).1 kept
          (fun trace config visited => by
            obtain ⟨state, second, arrives, reaches⟩ := visited
            exact step trace config ⟨state, second, .later (by rw [turn]; rfl) arrives, reaches⟩)
        rw [feedReads_cons, turn, Reaction.emit_andThen, Reaction.emitted_prepend,
          Reaction.result_prepend, ← List.append_assoc]
        exact later
      · have turn : feedRead host start read = .stop events reason := by
          rw [feedRead, run]
          rfl
        rw [run] at loop
        rw [feedReads_cons, turn]
        exact ⟨loop, nofun⟩

/-- Whether the peer or the embedding program can notice an event; heap operations stay
inside the server.
-/
def Event.observable : Event → Bool
  | .blockAllocated _ _ | .blockReleased _ => false
  | _ => true

/-- The observable trace of a connection and, unless it is still open, how it ended. -/
def observed {State : Type} (turn : Turn Emulator State) : List Event × Option Ending :=
  (
    turn.emitted.filter Event.observable,
    match turn.result with
    | .ok _ => none
    | .error stopped => some stopped.ending
  )

/-- An observed ending is the one that the turn stopped for. -/
theorem stopped_of_observed {State : Type} {turn : Turn Emulator State} {ending : Ending}
    (ended : (observed turn).2 = some ending)
    : ∃ final, turn.result = .error ⟨ending, final⟩ := by
  rcases turn.cases_eq with ⟨events, state, rfl⟩ | ⟨events, ⟨reason, final⟩, rfl⟩
  · cases ended
  · cases ended
    exact ⟨final, rfl⟩

end NetworkAccess
