import NetworkAccess.Parser.ByteCases
import NetworkAccess.Parser.Observations
import NetworkAccess.Server.PollLoop

/-! Where and how input is refused: the requests in front of the refused byte are worked on as
the reader works on them, and nothing behind it is looked at.
-/

namespace NetworkAccess

variable {Emulator : Type}

/-- The three ways in which `preprocess_data` refuses its input. -/
inductive Refusal where
  | command
  | block
  | size (declared : Nat)
deriving DecidableEq, Repr

/-- The text that the peer is sent. -/
def Refusal.reason : Refusal → Bytes
  | .command => ascii "Expecting a command or a signal registration"
  | .block => ascii "Sending invalid binary data block"
  | .size _ => ascii "Binary block size does not match expected size"

/-- A block of a size that was not announced is allocated before it is refused. -/
def Refusal.allocated (socket : SOCKET) : Refusal → List Event
  | .size declared => [.blockAllocated socket declared]
  | _ => []

/-- What is done from the refused byte on. -/
def Refusal.events (socket : SOCKET) (refusal : Refusal) : List Event :=
  refusal.allocated socket ++ [.errorReply socket .protocolError refusal.reason]

/-- The block of a refusal is released with its client. -/
def Refusal.released (socket : SOCKET) : Refusal → List Event
  | .size _ => [.blockReleased socket]
  | _ => []

/-- A reply of the type `protocol_error`. -/
def Event.isRefusal : Event → Bool
  | .errorReply _ .protocolError _ => true
  | _ => false

/-- A call of a handler or of the write function. -/
def Event.isCall : Event → Bool
  | .handled _ _ _ _ | .blockWritten _ _ => true
  | _ => false

/-- What was refused, and what was done before, can be told from the events. -/
theorem Refusal.events_inj {left right : SOCKET} {completed worked : List Event}
    {refusal other : Refusal}
    (same : completed ++ refusal.events left = worked ++ other.events right)
    : completed = worked ∧ refusal = other ∧ left = right := by
  simp only [Refusal.events, ← List.append_assoc] at same
  obtain ⟨before, reply⟩ := List.append_inj' same rfl
  obtain ⟨rfl, reasons⟩ : left = right ∧ refusal.reason = other.reason := by simpa using reply
  have kinds
      : refusal = other
        ∨ ∃ declared again, refusal = .size declared ∧ other = .size again := by
    cases refusal with
    | command =>
        cases other with
        | command => exact Or.inl rfl
        | block | size => exact absurd reasons (by simp only [Refusal.reason]; decide)
    | block =>
        cases other with
        | block => exact Or.inl rfl
        | command | size => exact absurd reasons (by simp only [Refusal.reason]; decide)
    | size declared =>
        cases other with
        | size again => exact Or.inr ⟨declared, again, rfl, rfl⟩
        | command | block => exact absurd reasons (by simp only [Refusal.reason]; decide)
  rcases kinds with rfl | ⟨declared, again, rfl, rfl⟩
  · exact ⟨List.append_cancel_right before, rfl, rfl⟩
  · obtain ⟨completed, sizes⟩ := List.append_inj' before rfl
    exact ⟨completed, by simpa [Refusal.allocated] using sizes, rfl⟩

-----------------------------------------------------------------------------------------
-- The reader
-----------------------------------------------------------------------------------------

namespace Parser

variable {host : Host Emulator} {parser : Parser} {emulator : Emulator}

/-- A complete block is never refused for the byte behind it. -/
theorem settle_rejected {events : List Event} {final : Emulator}
    : settle host parser emulator ≠ .stop events (.rejected, final) := by
  intro same
  have settled := settle_case host parser emulator
  rw [same] at settled
  cases settled

/-- A byte is refused in one of three ways. -/
theorem consume_rejected {byte : UInt8} {events : List Event} {final : Emulator}
    (rejects : consume host byte (parser, emulator) = .stop events (.rejected, final))
    : ∃ refusal : Refusal, events = refusal.events parser.socket := by
  have cases := consume_case host parser emulator byte
  rw [rejects] at cases
  cases cases with
  | line _ extended => cases extended
  | refuseCommand => exact ⟨.command, rfl⟩
  | refuseBlock => exact ⟨.block, rfl⟩
  | @refuseSize ticket bytes size => exact ⟨.size size, rfl⟩

/-- The reader with every complete request in `front` carried out. -/
def completes (host : Host Emulator) (start : Parser × Emulator) (front : Bytes)
    : Reading Emulator (Parser × Emulator) :=
  (readBytes host start front).andThen (fun state => settle host state.1 state.2)

/-- A stream that is refused is refused for one of its bytes, and the bytes behind it do not
matter, by induction on the stream.
-/
theorem readBytes_rejected {start : Parser × Emulator} {stream : Bytes} {events : List Event}
    {final : Emulator} (rejects : readBytes host start stream = .stop events (.rejected, final))
    : ∃ front byte rest completed refused state,
        stream = front ++ byte :: rest
        ∧ completes host start front = .emit completed state
        ∧ consume host byte state = .stop refused (.rejected, final)
        ∧ events = completed ++ refused := by
  induction stream generalizing start events with
  | nil => cases rejects
  | cons byte rest ih =>
      rw [readBytes_cons] at rejects
      rcases (step host start byte).cases_eq with ⟨before, next, goes⟩ | ⟨before, reason, stops⟩
      · rw [goes, Reaction.emit_andThen] at rejects
        rcases (readBytes host next rest).cases_eq with
          ⟨more, last, later⟩ | ⟨more, reason, later⟩
        · rw [later] at rejects
          cases rejects
        · rw [later] at rejects
          cases rejects
          obtain ⟨front, refusedByte, back, completed, refused, state, rfl, reads, refuses, rfl⟩ :=
            ih later
          refine ⟨byte :: front, refusedByte, back, before ++ completed, refused, state, rfl, ?_,
            refuses, (List.append_assoc _ _ _).symm⟩
          rw [completes, readBytes_cons, goes, Reaction.emit_andThen, Reaction.prepend_andThen,
            ← completes, reads, Reaction.prepend_emit]
      · rw [stops] at rejects
        cases rejects
        rw [step] at stops
        rcases (settle host start.1 start.2).cases_eq with
          ⟨completed, state, settles⟩ | ⟨completed, reason, settles⟩
        · rw [settles, Reaction.emit_andThen] at stops
          rcases (consume host byte state).cases_eq with
            ⟨more, last, reads⟩ | ⟨more, reason, reads⟩
          · rw [reads] at stops
            cases stops
          · rw [reads] at stops
            cases stops
            exact ⟨[], byte, rest, completed, more, state, rfl, settles, reads, rfl⟩
        · rw [settles] at stops
          cases stops
          exact absurd settles settle_rejected

/-- A byte meets the reader with every complete request before it carried out. -/
theorem readBytes_completes (start : Parser × Emulator) (front : Bytes) (byte : UInt8)
    (rest : Bytes)
    : readBytes host start (front ++ byte :: rest)
      = (completes host start front).andThen (fun settled =>
          (consume host byte settled).andThen (fun after => readBytes host after rest)) := by
  have tail (next : Parser × Emulator)
      : readBytes host next (byte :: rest)
        = (settle host next.1 next.2).andThen (fun settled =>
            (consume host byte settled).andThen (fun after => readBytes host after rest)) := by
    rw [readBytes_cons, step, Reaction.andThen_assoc]
  rw [readBytes_append, funext tail, ← Reaction.andThen_assoc, ← completes]

/-- A byte that is refused ends the reading, whatever follows. -/
theorem readBytes_refuses {start state : Parser × Emulator} {front : Bytes} {byte : UInt8}
    {completed refused : List Event} {reason : Ending × Emulator}
    (reads : completes host start front = .emit completed state)
    (refuses : consume host byte state = .stop refused reason) (rest : Bytes)
    : readBytes host start (front ++ byte :: rest) = .stop (completed ++ refused) reason := by
  rw [readBytes_completes, reads, Reaction.emit_andThen, refuses, Reaction.stop_andThen,
    Reaction.prepend_stop]

/-- Bytes that do not go beyond the block they begin in are not refused. -/
theorem readBytes_inside {ticket : Ticket} {size : Nat} {data bytes : Bytes}
    (phase : parser.phase = .block ticket size data) (unfinished : data.length < size)
    (inside : data.length + bytes.length ≤ size) {events : List Event} {final : Emulator}
    : readBytes host (parser, emulator) bytes ≠ .stop events (.rejected, final) := by
  obtain ⟨socket, _, writes⟩ := parser
  cases phase
  rcases Nat.lt_or_eq_of_le inside with short | complete
  · have reads := readBytes_block host ⟨socket, .idle, writes⟩ emulator ticket size data bytes short
    intro same
    rw [reads] at same
    cases same
  · have reads := readBytes_blockDone host ⟨socket, .idle, writes⟩ emulator ticket size data bytes
      unfinished complete
    intro same
    rw [reads, finish] at same
    split at same
    case isTrue => cases same
    case isFalse => split at same <;> cases same

end Parser

-----------------------------------------------------------------------------------------
-- One read
-----------------------------------------------------------------------------------------

/-- What a refusal leaves behind: the events, and a block exactly if one was allocated for it. -/
def Stopped.Refused (socket : SOCKET) (trace : List Event) (stopped : Stopped Emulator) : Prop :=
  stopped.ending = .rejected
  → ∃ worked refusal,
      trace = worked ++ Refusal.events socket refusal
      ∧ (∀ event ∈ worked, event.isRefusal = false)
      ∧ stopped.config.client.freed socket = refusal.released socket

/-- Before the bytes of a block are copied, nothing is refused. -/
theorem Config.Filling.not_refusal {config : Config Emulator} {client : Client} {data : Bytes}
    {events : List Event} (filling : config.Filling client data events)
    : ∀ event ∈ events, event.isRefusal = false :=
  filling.forall_events fun _ _ => rfl

/-- A client whose input is refused between two requests holds no block. -/
theorem Stopped.refused_of_noBlock {socket : SOCKET} {trace : List Event} {config : Config Emulator}
    {refusal : Refusal} (silent : ∀ event ∈ trace, event.isRefusal = false)
    (noBlock : config.client.binaryBlock = none) (plain : refusal.released socket = [])
    : Stopped.Refused socket (trace ++ refusal.events socket) ⟨.rejected, config⟩ := by
  refine fun _ => ⟨trace, refusal, rfl, silent, ?_⟩
  rw [plain, Client.freed, noBlock]
  rfl

/-- Only a refusal replies with `protocol_error`, by the cases of an iteration. -/
theorem iteration_refuses (host : Host Emulator) {config : Config Emulator}
    (wellFormed : config.client.WellFormed) (more : config.unread ≠ []) {trace : List Event}
    (silent : ∀ event ∈ trace, event.isRefusal = false)
    : Reaction.Ensures (fun trace _ => ∀ event ∈ trace, event.isRefusal = false)
        (Stopped.Refused config.client.socketFd) trace (iteration host config) := by
  have cases := iteration_cases host wellFormed more
  generalize iteration host config = turn at cases
  cases cases with
  | refuseCommand state =>
      exact Stopped.refused_of_noBlock silent (wellFormed.waiting state).2.1
        (show Refusal.released _ .command = [] from rfl)
  | refuseBlock state =>
      exact Stopped.refused_of_noBlock silent (wellFormed.expecting state).2.2.2
        (show Refusal.released _ .block = [] from rfl)
  | @refuseSize client front rest header atHeader split complete stored mismatch =>
      have socket := (atHeader.facts wellFormed more).socketFd
      refine fun _ => ⟨trace, .size (networkSize header.toList), ?_, silent, rfl⟩
      rw [← socket]
      rfl
  | openLine | openHeader =>
      rw [Reaction.Ensures.emit_iff, List.append_nil]
      exact silent
  | longLine | faultyLine | overflow => nofun
  | @servedLine line rest data cmd args served atLine split open_ fits stored tokens serves =>
      subst serves
      refine List.forall_mem_append.mpr ⟨silent, List.forall_mem_cons.mpr ⟨rfl, ?_⟩⟩
      cases resolve host cmd <;> exact List.forall_mem_singleton.mpr rfl
  | noData filling | partBlock filling | stuckBlock filling =>
      exact List.forall_mem_append.mpr ⟨silent, filling.not_refusal⟩
  | swallowBlock filling =>
      exact List.forall_mem_append.mpr
        ⟨
          silent,
          List.forall_mem_append.mpr ⟨filling.not_refusal, List.forall_mem_singleton.mpr rfl⟩
        ⟩
  | writeBlock filling =>
      exact List.forall_mem_append.mpr
        ⟨
          silent,
          List.forall_mem_append.mpr
            ⟨
              filling.not_refusal,
              List.forall_mem_cons.mpr ⟨rfl, List.forall_mem_singleton.mpr rfl⟩
            ⟩
        ⟩

/-- A read that is refused ends with a refusal, and no earlier event of it is one. -/
theorem feedRead_refuses {host : Host Emulator} {state : Client × Emulator} {read : ClientRead}
    {last : Config Emulator} (wellFormed : state.1.WellFormed)
    (rejects : (feedRead host state read).result = .error ⟨.rejected, last⟩)
    : ∃ worked refusal,
        (feedRead host state read).emitted = worked ++ Refusal.events state.1.socketFd refusal
        ∧ (∀ event ∈ worked, event.isRefusal = false)
        ∧ last.client.freed state.1.socketFd = refusal.released state.1.socketFd := by
  have formed := Config.wellFormed_enter wellFormed state.2 read
  have loop
      : Reaction.Ensures
          (fun trace config => (∀ event ∈ trace, event.isRefusal = false) ∧ ¬ config.running)
          (Stopped.Refused state.1.socketFd) []
          (preprocessData host (Config.enter state.1 state.2 read)) := by
    refine .runWhile ?stuck ?each (List.forall_mem_nil _)
    case stuck => exact fun _ _ _ _ => nofun
    case each =>
      intro trace config reaches silent running
      have kept := Config.Reaches.kept reaches formed
      have refuses := iteration_refuses host kept.1 running silent
      rw [kept.2.1] at refuses
      exact refuses
  have refused := loop.error (feedRead_error.mp rejects) rfl
  rw [feedRead_emitted]
  simpa using refused

/-- A refused read has no bytes behind a block of an earlier read. -/
theorem calm_of_rejected {host : Host Emulator} {state : Client × Emulator} {read : ClientRead}
    {last : Config Emulator} (wellFormed : state.1.WellFormed)
    (rejects : (feedRead host state read).result = .error ⟨.rejected, last⟩)
    : Calm state read := by
  intro surplus
  rw [feedRead_of_surplus host wellFormed surplus] at rejects
  cases rejects

/-- Another read that is refused for the same byte has none either. -/
theorem calm_of_refused {host : Host Emulator} {state : Client × Emulator} {read : ClientRead}
    {events : List Event} {final : Emulator} (wellFormed : state.1.WellFormed)
    (calm : Calm state read)
    (refuses
      : Parser.readBytes host (readerOf state) read.bytes = .stop events (.rejected, final))
    (other : ClientRead)
    : Calm state other := by
  intro surplus
  obtain ⟨ticket, size, data, phase, begun, unfinished, -, finishes⟩ :=
    (Config.surplus_iff wellFormed state.2 other).mp surplus
  have inside : data.length + read.bytes.length ≤ size := by
    by_contra behind
    exact calm ((Config.surplus_iff wellFormed state.2 read).mpr
      ⟨ticket, size, data, phase, begun, unfinished, by omega, finishes⟩)
  exact Parser.readBytes_inside phase unfinished inside refuses

/-- What happens in a refused read: `completed` is done for the requests that are complete
before the refused byte, and then comes the refusal, whatever follows in the read.
-/
structure RefusedRead (host : Host Emulator) (state : Client × Emulator) (read : ClientRead)
    (last : Config Emulator) (completed : List Event) (refusal : Refusal)
    : Prop where
  emitted : (feedRead host state read).emitted = completed ++ refusal.events state.1.socketFd
  before : ∀ event ∈ completed, event.isRefusal = false
  block : last.client.freed state.1.socketFd = refusal.released state.1.socketFd
  place
    : ∃ front byte rest reader,
        read.bytes = front ++ byte :: rest
        ∧ Parser.completes host (readerOf state) front = .emit completed reader
        ∧ ∀ other : ClientRead,
            front ++ [byte] <+: other.bytes
            → (feedRead host state other).emitted = (feedRead host state read).emitted
              ∧ ∃ final, (feedRead host state other).result = .error ⟨.rejected, final⟩

/-- Every refused read is one. -/
theorem feedRead_rejected {host : Host Emulator} {state : Client × Emulator} {read : ClientRead}
    {last : Config Emulator} (wellFormed : state.1.WellFormed)
    (rejects : (feedRead host state read).result = .error ⟨.rejected, last⟩)
    : ∃ completed refusal, RefusedRead host state read last completed refusal := by
  have calm := calm_of_rejected wellFormed rejects
  obtain ⟨worked, refusal, emitted, before, block⟩ := feedRead_refuses wellFormed rejects
  have agrees (other : ClientRead) (calm : Calm state other)
      : (feedRead host state other).project readerOf Stopped.final
        = Parser.readBytes host (readerOf state) other.bytes :=
    (feedRead_readsAs host).agrees state other wellFormed calm
  have reads
      : Parser.readBytes host (readerOf state) read.bytes
        = .stop (feedRead host state read).emitted (.rejected, last.emulator) := by
    rw [← agrees read calm]
    rcases (feedRead host state read).cases_eq with ⟨events, next, run⟩ | ⟨events, reason, run⟩
    · rw [run] at rejects
      cases rejects
    · rw [run] at rejects ⊢
      cases rejects
      rfl
  obtain ⟨front, byte, rest, completed, refused, reader, split, completes, refuses, same⟩ :=
    Parser.readBytes_rejected reads
  have whole := Parser.readBytes_refuses completes refuses
  obtain ⟨kind, rfl⟩ := Parser.consume_rejected refuses
  rw [emitted] at same
  obtain ⟨rfl, rfl, socket⟩ := Refusal.events_inj same
  refine ⟨worked, refusal, emitted, before, block, front, byte, rest, reader, split, completes, ?_⟩
  rintro other ⟨more, extends_⟩
  have again := agrees other (calm_of_refused wellFormed calm reads other)
  rw [← extends_, List.append_assoc, List.singleton_append, whole] at again
  have stopped := stopped_of_project again
  refine ⟨?_, stopped.2⟩
  rw [stopped.1, emitted, socket]

end NetworkAccess
