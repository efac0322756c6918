import NetworkAccess.Parser.Simulation

/-! What can be observed of a run: what the byte reader shows as long as the reads are calm,
and nothing more once a read is at a surplus.
-/

namespace NetworkAccess

variable {Emulator : Type}

/-- What is observable of the byte reader. -/
def Parser.observed (reading : Reading Emulator (Parser × Emulator))
    : List Event × Option Ending :=
  (
    reading.emitted.filter Event.observable,
    match reading.result with
    | .ok _ => none
    | .error (ending, _) => some ending
  )

/-- What the reader does for a turn shows the same. -/
theorem observed_of_project {State : Type} {turn : Turn Emulator State}
    {live : State → Parser × Emulator} {reading : Reading Emulator (Parser × Emulator)}
    (same : turn.project live Stopped.final = reading)
    : observed turn = Parser.observed reading := by
  rw [← same]
  rcases turn.cases_eq with ⟨events, state, rfl⟩ | ⟨events, reason, rfl⟩ <;> rfl

/-- Events in front are observed first. -/
theorem observed_prepend {State : Type} (events : List Event) (turn : Turn Emulator State)
    : observed (turn.prepend events)
      = (events.filter Event.observable ++ (observed turn).1, (observed turn).2) := by
  simp only [observed, Reaction.emitted_prepend, Reaction.result_prepend, List.filter_append]

/-- Events in front of a reader's are observed first. -/
theorem Parser.observed_prepend (events : List Event)
    (reading : Reading Emulator (Parser × Emulator))
    : observed (reading.prepend events)
      = (events.filter Event.observable ++ (observed reading).1, (observed reading).2) := by
  simp only [observed, Reaction.emitted_prepend, Reaction.result_prepend, List.filter_append]

/-- A calm run shows what the reader shows. -/
theorem observed_of_calm {host : Host Emulator} {state : Client × Emulator}
    {reads : List ClientRead} (wellFormed : state.1.WellFormed)
    (calm : Reaction.CalmAlong (feedRead host) Calm state reads)
    : observed (feedReads host state reads)
      = Parser.observed
          (Parser.readBytes host (readerOf state) (reads.flatMap ClientRead.bytes)) :=
  observed_of_project (feedReads_simulates wellFormed calm)

/-- The bytes end a block that the reader has begun and can finish, and go on behind it. -/
def Parser.AtSurplus (parser : Parser) (bytes : Bytes) : Prop :=
  ∃ ticket size data,
    parser.phase = .block ticket size data
    ∧ 0 < data.length
    ∧ data.length < size
    ∧ size < data.length + bytes.length
    ∧ (ticket.swallow ∨ parser.writes)

/-- Whether a read is at a surplus depends on the reader and on the bytes alone. -/
theorem Config.surplus_iff {client : Client} (wellFormed : client.WellFormed)
    (emulator : Emulator) (read : ClientRead)
    : (Config.enter client emulator read).Surplus ↔ client.parser.AtSurplus read.bytes := by
  have formed := Config.wellFormed_enter wellFormed emulator read
  have length (state : client.state = .gettingBinaryData) (header : client.binaryHeaderSize = 5)
      : client.blockData.length = client.binaryBlockSize := by
    have filling : (Config.enter client emulator read).Filling _ _ _ := .resumed state header
    exact (filling.facts formed read.nonempty).reader.length
  constructor
  · intro surplus
    have state : client.state = .gettingBinaryData := surplus.state
    have header : client.binaryHeaderSize = 5 := surplus.header
    have length := length state header
    refine ⟨client.ticket, _, client.blockData, Client.phase_of_header state header, ?_, ?_, ?_,
      client.deliverable_iff.mp surplus.deliverable⟩
    · rw [length]; exact surplus.begun
    · rw [length]; exact surplus.unfinished
    · rw [length]; exact surplus.behind
  · rintro ⟨ticket, size, data, phase, begun, unfinished, behind, finishes⟩
    obtain ⟨state, header⟩ := Client.state_of_block wellFormed phase
    have length := length state header
    cases (Client.phase_of_header state header).symm.trans phase
    rw [length] at begun unfinished behind
    exact ⟨state, header, begun, unfinished, behind, client.deliverable_iff.mpr finishes⟩

/-- A surplus makes the next copy overflow the block. -/
theorem Config.Surplus.overflows (host : Host Emulator) {config : Config Emulator}
    (wellFormed : config.client.WellFormed) (surplus : config.Surplus)
    : preprocessData host config = .stop [] ⟨.undefined .blockOverflow, config⟩ := by
  obtain ⟨block, here, size, -⟩ := (wellFormed.block surplus.state).block surplus.header
  have begun := surplus.begun
  have behind := surplus.behind
  have unfinished := surplus.unfinished
  have more : config.unread ≠ [] := by
    intro ended
    exact config.not_surplus_of_read ended surplus
  have run : iteration host config = copyBlock host config := by
    simp only [iteration, surplus.state, gettingBinaryData, surplus.header, Nat.lt_irrefl,
      if_false]
  refine preprocessData_of_ends wellFormed (.halt more ?_)
  rw [run]
  exact copyBlock_overflow host config.emulator surplus.header here more rfl (by omega)

/-- A read at a surplus copies behind the block. -/
theorem feedRead_of_surplus (host : Host Emulator) {state : Client × Emulator}
    {read : ClientRead} (wellFormed : state.1.WellFormed)
    (surplus : (Config.enter state.1 state.2 read).Surplus)
    : feedRead host state read
      = .stop [] ⟨.undefined .blockOverflow, Config.enter state.1 state.2 read⟩ := by
  rw [feedRead, surplus.overflows host (Config.wellFormed_enter wellFormed state.2 read)]
  rfl

/-- A run that is not calm comes to a surplus, where it overflows a block; by induction on the
reads.
-/
theorem calmAlong_or_overflows {host : Host Emulator} {state : Client × Emulator}
    {reads : List ClientRead} (wellFormed : state.1.WellFormed)
    : Reaction.CalmAlong (feedRead host) Calm state reads
      ∨ ∃ final,
          (feedReads host state reads).result = .error ⟨.undefined .blockOverflow, final⟩ := by
  induction reads generalizing state with
  | nil => exact Or.inl trivial
  | cons read rest ih =>
      rw [feedReads_cons]
      by_cases surplus : (Config.enter state.1 state.2 read).Surplus
      · rw [feedRead_of_surplus host wellFormed surplus]
        exact Or.inr ⟨_, rfl⟩
      rcases (feedRead host state read).cases_eq with ⟨events, next, turn⟩ | ⟨events, reason, turn⟩
      · have continues : (feedRead host state read).result = .ok next := by rw [turn]; rfl
        rw [turn, Reaction.emit_andThen, Reaction.result_prepend]
        refine (ih (feedRead_kept wellFormed continues).1).imp_left (fun calm => ?_)
        refine ⟨surplus, fun other same => ?_⟩
        cases continues.symm.trans same
        exact calm
      · refine Or.inl ⟨surplus, fun next goes => ?_⟩
        rw [turn] at goes
        cases goes

/-- A calm run stops for what the reader stops for. -/
theorem feedReads_stops_iff {host : Host Emulator} {state : Client × Emulator}
    {reads : List ClientRead} (wellFormed : state.1.WellFormed)
    (calm : Reaction.CalmAlong (feedRead host) Calm state reads) (ending : Ending)
    : (∃ final, (feedReads host state reads).result = .error ⟨ending, final⟩)
      ↔ ∃ emulator,
          (Parser.readBytes host (readerOf state) (reads.flatMap ClientRead.bytes)).result
            = .error (ending, emulator) := by
  rw [← feedReads_simulates wellFormed calm]
  rcases (feedReads host state reads).cases_eq with
    ⟨events, last, turn⟩ | ⟨events, ⟨reason, last⟩, turn⟩
  · rw [turn]
    constructor <;> (rintro ⟨final, stops⟩; cases stops)
  · rw [turn]
    constructor
    · rintro ⟨final, stops⟩
      cases stops
      exact ⟨_, rfl⟩
    · rintro ⟨emulator, stops⟩
      cases stops
      exact ⟨_, rfl⟩

end NetworkAccess
