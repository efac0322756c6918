import NetworkAccess.Parser.Observations
import NetworkAccess.Validator.Reading

/-! What becomes of a connection once a line that begins with `b` and its block have been
sent: for which commands the client waits for the next one.
-/

namespace NetworkAccess

variable {Emulator : Type}

/-- What the handler of a command returns, if it has one. -/
def Resolution.answer (socket : SOCKET) (args : List Bytes) (emulator : Emulator)
    : Resolution Emulator → Option Int
  | .unknown | .unimplemented _ => none
  | .generic _ entry => some (entry.function socket args emulator).1
  | .custom _ entry => some (entry.function socket args emulator).1

/-- A block has the size that the handler of its line announces, if it announces one. -/
def AsAnnounced (host : Host Emulator) (socket : SOCKET) (emulator : Emulator) (line : Bytes)
    (size : Nat)
    : Prop :=
  ∀ cmd args answer,
    tokenize line = .ok (cmd, args)
    → (resolve host cmd).answer socket args emulator = some answer
    → answer = 0 ∨ answer = size ∨ answer = -size

/-- The commands whose block the server gets past: `bCORE_WRITE` if it is implemented, and
with a block of one byte if it is not, and custom commands that fail.
-/
def Resolution.Resyncs (socket : SOCKET) (args : List Bytes) (emulator : Emulator)
    (size : Nat)
    : Resolution Emulator → Prop
  | .unknown => False
  | .unimplemented _ => size = 1
  | .generic _ _ => True
  | .custom _ entry => (entry.function socket args emulator).1 < 0

/-- The condition on the line before a block: it fits into the buffer, its arguments fit into their
array, and what it resolves to leaves the slot ready for a block of this size.
-/
def LineResyncs (host : Host Emulator) (socket : SOCKET) (emulator : Emulator) (line : Bytes)
    (size : Nat)
    : Prop :=
  line.length ≤ 2048
  ∧ ∃ cmd args,
      tokenize line = .ok (cmd, args) ∧ (resolve host cmd).Resyncs socket args emulator size

/-- Whether the event is a call of a handler. -/
def Event.isHandled : Event → Bool
  | .handled _ _ _ _ => true
  | _ => false

/-- Whether the event is an error reply about an invalid command. -/
def Event.isInvalidCommand : Event → Bool
  | .errorReply _ .invalidCommand _ => true
  | _ => false

/-- A command that no handler took was answered once, and its block was swallowed. -/
def RejectionAnswered (socket : SOCKET) (events : List Event) : Prop :=
  (∀ event ∈ events, event.isHandled = false)
  → events.countP Event.isInvalidCommand = 1
    ∧ (∀ event ∈ events, event.isWrite = false)
    ∧ .blockReleased socket ∈ events

/-- The client waits for a command, a rejected command was answered and its block swallowed,
and a text command is handled as for a client that was just added.
-/
structure Resynchronised (host : Host Emulator) (socket : SOCKET) (events : List Event)
    (state : Client × Emulator)
    : Prop where
  waiting : state.1.state = .waitingForCommand
  rejected : RejectionAnswered socket events
  next
    : ∀ slot text reads,
        CommandLine text
        → text.head? ≠ some lowerB
        → reads.flatMap ClientRead.bytes = text
        → observed (feedReads host state reads)
          = observed (feedReads host (Client.add slot socket, state.2) reads)

/-- Which text line a reader between two requests is given decides what it does. -/
theorem Parser.readBytes_textLine (host : Host Emulator) {parser : Parser}
    (emulator : Emulator) (idle : parser.phase = .idle) {text : Bytes}
    (command : CommandLine text)
    : .blockReleased parser.socket ∉ (readBytes host (parser, emulator) text).emitted
      ∧ ∀ writes,
          observed (readBytes host (parser, emulator) text)
          = observed (readBytes host (.fresh parser.socket writes, emulator) text) := by
  by_cases fits : text.length ≤ 2048
  · have run (parser : Parser) (idle : parser.phase = .idle)
        : readBytes host (parser, emulator) text = dispatch host parser emulator text := by
      have whole := readBytes_commandLine host parser emulator idle command fits []
      rw [List.append_nil] at whole
      exact whole.trans (Reaction.andThen_emit_nil _)
    rw [run parser idle, dispatch]
    cases tokens : tokenize text with
    | error fault =>
        refine ⟨List.not_mem_nil, fun writes => ?_⟩
        rw [run _ rfl, dispatch, tokens]
    | ok command =>
        refine ⟨Resolution.serve_silent host _ _ _ _ _ _, fun writes => ?_⟩
        rw [run _ rfl, dispatch, tokens]
        rfl
  · have run (parser : Parser) (idle : parser.phase = .idle)
        : readBytes host (parser, emulator) text
          = .stop [] (.undefined .commandOverflow, emulator) := by
      have whole := readBytes_longLine host parser emulator idle command (by omega) []
      rw [List.append_nil] at whole
      exact whole
    rw [run parser idle]
    refine ⟨List.not_mem_nil, fun writes => ?_⟩
    rw [run _ rfl]

/-- The next text command does not depend on what the slot keeps of earlier ones. -/
theorem observed_textLine (host : Host Emulator) {client : Client}
    (wellFormed : client.WellFormed) (idle : client.parser.phase = .idle) (emulator : Emulator)
    (slot : Client) {text : Bytes} {reads : List ClientRead} (command : CommandLine text)
    (stream : reads.flatMap ClientRead.bytes = text)
    : observed (feedReads host (client, emulator) reads)
      = observed (feedReads host (slot.add client.socketFd, emulator) reads) := by
  have reading := Parser.readBytes_textLine host emulator idle command
  have fresh := Parser.readBytes_textLine host emulator
    (rfl : (slot.add client.socketFd).parser.phase = .idle) command
  have calm : Reaction.CalmAlong (feedRead host) Calm (client, emulator) reads :=
    calmAlong_of_no_release wellFormed (by rw [stream]; exact reading.1)
  have freshCalm
      : Reaction.CalmAlong (feedRead host) Calm (slot.add client.socketFd, emulator) reads :=
    calmAlong_of_no_release (slot.wellFormed_add _) (by rw [stream]; exact fresh.1)
  rw [observed_of_calm wellFormed calm, observed_of_calm (slot.wellFormed_add _) freshCalm, stream]
  exact reading.2 _

-----------------------------------------------------------------------------------------
-- The line and its block
-----------------------------------------------------------------------------------------

/-- Before the last byte of the block no block is released. -/
theorem Parser.readBytes_binarySilent (host : Host Emulator) (parser : Parser)
    (emulator : Emulator) (idle : parser.phase = .idle) {line : Bytes}
    (announces : BinaryLine line) {size : Nat} (fits : size < 2 ^ 32) {part : Bytes}
    (short : part.length < size)
    : .blockReleased parser.socket
      ∉ (readBytes host (parser, emulator) (line ++ (blockHeader size ++ part))).emitted := by
  by_cases stored : line.length ≤ 2048
  · cases tokens : tokenize line with
    | error fault =>
        rw [readBytes_commandLine host parser emulator idle announces.commandLine stored, dispatch,
          tokens]
        exact List.not_mem_nil
    | ok command =>
        rw [readBytes_binaryLine host parser emulator idle announces stored tokens,
          Reaction.emitted_prepend, List.mem_append, not_or]
        refine ⟨Resolution.serve_silent host _ _ _ _ _ _, ?_⟩
        generalize ((resolve host command.1).serve host parser.socket command.2 emulator).size
          = answer
        by_cases agreed : size = announced answer ∨ announced answer = 0
        · rw [readBytes_blockPart host _ _ rfl fits agreed short]
          simp
        · rw [readBytes_blockMismatch host _ _ rfl fits agreed]
          simp [refuse]
  · rw [readBytes_longLine host parser emulator idle announces.commandLine (by omega)]
    exact List.not_mem_nil

/-- The reader gets past a block that agrees with the announced size if it is to be
swallowed, or if the command is `bCORE_WRITE`.
-/
theorem Parser.binaryBlock_iff (host : Host Emulator) (parser : Parser) (emulator : Emulator)
    (idle : parser.phase = .idle) {line : Bytes} (announces : BinaryLine line)
    (stored : line.length ≤ 2048) {cmd : Bytes} {args : List Bytes}
    (tokens : tokenize line = .ok (cmd, args)) {data : Bytes} (positive : 1 ≤ data.length)
    (fits : data.length < 2 ^ 32) {resolution : Resolution Emulator}
    (resolves : resolve host cmd = resolution)
    (agreed
      : let answer := (resolution.serve host parser.socket args emulator).size
        data.length = announced answer ∨ announced answer = 0)
    : let served := resolution.serve host parser.socket args emulator
      let events :=
        .command parser.socket cmd args :: served.events
          ++ [.blockAllocated parser.socket data.length]
      (∃ events next,
        readBytes host (parser, emulator) (line ++ sendData data) = .emit events next
        ∧ next.1.phase = .idle
        ∧ RejectionAnswered parser.socket events)
      ↔ if served.size < 0 then
          RejectionAnswered parser.socket (events ++ [.blockReleased parser.socket])
        else
          resolution.writes parser.writes
          ∧ RejectionAnswered parser.socket
              (events ++ [.blockWritten parser.socket data, .blockReleased parser.socket]) := by
  subst resolves
  intro served events
  rw [readBytes_binaryLine host parser emulator idle announces stored tokens,
    readBytes_sendData host _ _ rfl positive fits agreed, Reaction.prepend_prepend]
  by_cases refused : served.size < 0
  · rw [finish_swallow host _ _ (decide_eq_true refused), Reaction.prepend_emit, if_pos refused]
    constructor
    · rintro ⟨events, next, same, -, answered⟩
      cases same
      exact answered
    · exact fun answered => ⟨_, _, rfl, rfl, answered⟩
  · rw [if_neg refused]
    by_cases writes : (resolve host cmd).writes parser.writes
    · rw [finish_write host _ _ (decide_eq_false refused) writes, Reaction.prepend_emit]
      constructor
      · rintro ⟨events, next, same, -, answered⟩
        cases same
        exact ⟨writes, answered⟩
      · exact fun both => ⟨_, _, rfl, rfl, both.2⟩
    · rw [finish_stuck host _ _
          (not_or.mpr ⟨fun swallow => refused (of_decide_eq_true swallow), writes⟩),
        Reaction.prepend_emit]
      constructor
      · rintro ⟨events, next, same, waits, -⟩
        cases same
        cases waits
      · exact fun both => absurd both.1 writes

/-- The events of a handled command never show a rejection. -/
theorem rejectionAnswered_of_handled {socket : SOCKET} {events : List Event}
    (handled : events.any Event.isHandled)
    : RejectionAnswered socket events := by
  intro quiet
  obtain ⟨event, member, taken⟩ := List.any_eq_true.mp handled
  rw [quiet event member] at taken
  cases taken

/-- The reader gets past exactly the blocks of commands that resynchronise; the cases are
those of the command.
-/
theorem Parser.resyncs_iff (host : Host Emulator) (parser : Parser) (emulator : Emulator)
    (idle : parser.phase = .idle) {line : Bytes} (announces : BinaryLine line) {data : Bytes}
    (positive : 1 ≤ data.length) (fits : data.length < 2 ^ 32)
    (agrees : AsAnnounced host parser.socket emulator line data.length)
    (stored : line.length ≤ 2048) {cmd : Bytes} {args : List Bytes}
    (tokens : tokenize line = .ok (cmd, args))
    : (∃ events next,
        readBytes host (parser, emulator) (line ++ sendData data) = .emit events next
        ∧ next.1.phase = .idle
        ∧ RejectionAnswered parser.socket events)
      ↔ (resolve host cmd).Resyncs parser.socket args emulator data.length := by
  have block {resolution : Resolution Emulator} (resolves : resolve host cmd = resolution) :=
    binaryBlock_iff host parser emulator idle announces stored tokens positive fits resolves
  have answers := fun answer => agrees cmd args answer tokens
  cases resolves : resolve host cmd with
  | unknown =>
      -- the reply is there, but the block is written or stays
      refine (block resolves (Or.inr rfl)).trans ?_
      simp [Resolution.serve, Resolution.Resyncs, RejectionAnswered, Event.isHandled,
        Event.isWrite]
  | unimplemented command =>
      by_cases agreed : data.length = 1
      · refine (block resolves (Or.inl agreed)).trans ?_
        simp [Resolution.serve, Resolution.Resyncs, RejectionAnswered, Event.isHandled,
          Event.isWrite, agreed]
        rfl
      · rw [readBytes_binaryLine host parser emulator idle announces stored tokens, sendData,
          readBytes_blockMismatch host _ _ rfl fits]
        · refine iff_of_false ?_ agreed
          rintro ⟨events, next, same, -⟩
          cases same
        · rw [resolves, not_or]
          exact ⟨agreed, Nat.one_ne_zero⟩
  | generic command entry =>
      rw [resolves] at answers
      cases resolve_generic_binary resolves
        (tokenize_head tokens announces.binary (by decide) (by decide))
      refine (block resolves (announced_of_answer fits (answers _ rfl))).trans ?_
      refine iff_of_true ?_ trivial
      split
      case isTrue =>
        exact rejectionAnswered_of_handled (by simp [Resolution.serve, Event.isHandled])
      case isFalse =>
        exact ⟨
          by simp [Resolution.writes],
          rejectionAnswered_of_handled (by simp [Resolution.serve, Event.isHandled])
        ⟩
  | custom index entry =>
      rw [resolves] at answers
      refine (block resolves (announced_of_answer fits (answers _ rfl))).trans ?_
      have other : (Resolution.custom index entry).writes parser.writes = false :=
        decide_eq_false (by simp only [EmulatorCommand.value]; omega)
      split
      case isTrue fails =>
        refine iff_of_true (rejectionAnswered_of_handled ?_) fails
        simp [Resolution.serve, Event.isHandled]
      case isFalse succeeds =>
        refine iff_of_false (fun both => ?_) succeeds
        rw [other] at both
        cases both.1

-----------------------------------------------------------------------------------------
-- Whole runs
-----------------------------------------------------------------------------------------

/-- A slot that waits for a command stands for a reader between two requests. -/
theorem Client.idle_of_waiting {client : Client} (waits : client.state = .waitingForCommand)
    : client.parser.phase = .idle := by
  simp only [parser, phase, waits]

/-- From any state in which a client waits for a command, a line that begins with `b` and a
block of the announced size bring it back there, with the reply and the next command that
the protocol promises, if and only if the command of the line resynchronises.
-/
theorem resynchronised_iff (host : Host Emulator) (slot : Client) (fd : SOCKET)
    (start emulator : Emulator) (before : List ClientRead) (client : Client)
    (reached
      : (feedReads host (slot.add fd, start) before).result = .ok (client, emulator))
    (waits : client.state = .waitingForCommand) (line data : Bytes)
    (announces : BinaryLine line) (positive : 1 ≤ data.length) (fits : data.length < 2 ^ 32)
    (agrees : AsAnnounced host fd emulator line data.length) (reads : List ClientRead)
    (stream : reads.flatMap ClientRead.bytes = line ++ sendData data)
    : (∃ events state,
        feedReads host (client, emulator) reads = .emit events state
        ∧ Resynchronised host fd events state)
      ↔ LineResyncs host fd emulator line data.length := by
  obtain ⟨wellFormed, socket⟩ := feedReads_kept (slot.wellFormed_add fd) reached
  cases socket
  have idle := Client.idle_of_waiting waits
  have nonempty : data ≠ [] := List.length_pos_iff.mp positive
  have short := length_dropLast_lt positive
  have calm : Reaction.CalmAlong (feedRead host) Calm (client, emulator) reads := by
    rw [sendData_concat nonempty, ← List.append_assoc] at stream
    exact calmAlong_of_last wellFormed stream
      (Parser.readBytes_binarySilent host client.parser emulator idle announces fits short)
  have simulates := feedReads_simulates wellFormed calm
  rw [stream] at simulates
  -- what the server leaves is what the reader leaves
  have reads_iff
      : (∃ events state,
          feedReads host (client, emulator) reads = .emit events state
          ∧ Resynchronised host client.socketFd events state)
        ↔ ∃ events next,
            Parser.readBytes host (client.parser, emulator) (line ++ sendData data)
              = .emit events next
            ∧ next.1.phase = .idle
            ∧ RejectionAnswered client.socketFd events := by
    constructor
    · rintro ⟨events, state, run, resynced⟩
      rw [run] at simulates
      exact ⟨events, readerOf state, simulates.symm, Client.idle_of_waiting resynced.waiting,
        resynced.rejected⟩
    · rintro ⟨events, next, run, between, answered⟩
      rw [readerOf, run] at simulates
      obtain ⟨⟨last, later⟩, turn, rfl⟩ := Reaction.emit_of_project simulates
      have kept := feedReads_kept wellFormed (by rw [turn]; rfl : _ = Except.ok (last, later))
      refine ⟨events, (last, later), turn, last.waiting_of_idle between, answered, ?_⟩
      intro fresh text more command _ same
      rw [← kept.2]
      exact observed_textLine host kept.1 between later fresh command same
  rw [reads_iff]
  by_cases stored : line.length ≤ 2048
  · cases tokens : tokenize line with
    | error fault =>
        refine iff_of_false ?_ ?_
        · rintro ⟨events, next, run, -⟩
          rw [Parser.readBytes_commandLine host client.parser emulator idle announces.commandLine
            stored, Parser.dispatch, tokens] at run
          cases run
        · rintro ⟨-, cmd, args, same, -⟩
          rw [tokens] at same
          cases same
    | ok command =>
        refine (Parser.resyncs_iff host client.parser emulator idle announces positive fits agrees
          stored tokens).trans ⟨fun resyncs => ⟨stored, _, _, tokens, resyncs⟩, ?_⟩
        rintro ⟨-, cmd, args, same, resyncs⟩
        rw [tokens] at same
        cases same
        exact resyncs
  · refine iff_of_false ?_ (fun resyncs => stored resyncs.1)
    rintro ⟨events, next, run, -⟩
    rw [Parser.readBytes_longLine host client.parser emulator idle announces.commandLine
      (by omega)] at run
    cases run

/-- Witness: the server gets past a block of one byte behind a `bCORE_WRITE` that the host
does not implement.
-/
theorem resynchronised_unimplemented
    : ∃ events state,
        feedReads (Host.fixed []) (Client.zero.add 4, ())
          [
            ⟨ascii "bCORE_WRITE RAM\n", by decide, by decide⟩,
            ⟨sendData [7], by decide, by decide⟩
          ]
          = .emit events state
        ∧ Resynchronised (Host.fixed []) 4 events state := by
  have tokens : tokenize (ascii "bCORE_WRITE RAM\n") = .ok (bCoreWriteName, [ascii "RAM"]) := by
    decide
  refine (resynchronised_iff (Host.fixed []) Client.zero 4 () () [] (Client.zero.add 4) rfl rfl
    (ascii "bCORE_WRITE RAM\n") [7] ⟨rfl, ascii "bCORE_WRITE RAM", rfl, by decide⟩ (by decide)
    (by decide) ?_ _ rfl).mpr ⟨by decide, bCoreWriteName, [ascii "RAM"], tokens, rfl⟩
  intro cmd args answer same handles
  rw [tokens] at same
  cases same
  cases handles

/-- Behind an unknown command and its block the client is still inside the block. -/
theorem unknown_not_resynchronised
    : BinaryLine (ascii "bX\n")
      ∧ AsAnnounced (Host.fixed []) 4 () (ascii "bX\n") 1
      ∧ ¬ ∃ events state,
        feedReads (Host.fixed []) (Client.zero.add 4, ())
          [⟨ascii "bX\n" ++ sendData [7], by decide, by decide⟩]
          = .emit events state
        ∧ Resynchronised (Host.fixed []) 4 events state := by
  refine ⟨⟨rfl, ascii "bX", rfl, by decide⟩, ?_, ?_⟩
  · intro cmd args answer same handles
    rw [show tokenize (ascii "bX\n") = .ok (ascii "bX", []) by decide] at same
    cases same
    cases handles
  · rintro ⟨events, state, run, resynced⟩
    have stuck
        : ((feedReads (Host.fixed []) (Client.zero.add 4, ())
            [⟨ascii "bX\n" ++ sendData [7], by decide, by decide⟩]).result.map
              (fun state => state.1.state)).toOption
          = some .gettingBinaryData := by
      decide
    rw [run] at stuck
    cases stuck.symm.trans (congrArg some resynced.waiting)

end NetworkAccess
