import NetworkAccess.Connections.Attend
import NetworkAccess.Parser.Simulation
import NetworkAccess.Validator.Reading

/-! The size of a block is compared with the result of its handler, of which only 32 bits are kept.
-/

namespace NetworkAccess

variable {Emulator : Type}

/-- A line that the handler of `bCORE_WRITE` takes. -/
structure WriteLineFor (host : Host Emulator) (entry : GenericEntry Emulator) (line cmd : Bytes)
    (args : List Bytes)
    : Prop where
  announces : BinaryLine line
  fits : line.length ≤ 2048
  tokens : tokenize line = .ok (cmd, args)
  builtin : resolve host cmd = .generic .bCoreWrite entry

/-- The call of the handler, as it is observed. -/
def called (socket : SOCKET) (cmd : Bytes) (args : List Bytes) (result : Int) : List Event :=
  [.command socket cmd args, .handled socket (.generic .bCoreWrite) args result]

/-- The block is filled; it is written once if the handler's `result` is not negative, and else
swallowed. The client waits for the next command, without a swallow flag.
-/
def BlockAccepted (host : Host Emulator) (before : List Event) (socket : SOCKET) (result : Int)
    (after : Emulator) (data : Bytes) (run : Turn Emulator (Client × Emulator))
    : Prop :=
  ∃ client : Client,
    run
      = (if result < 0 then
          .emit (before ++ [.blockAllocated socket data.length, .blockReleased socket])
            (client, after)
        else
          .emit
            (before
              ++ [
                .blockAllocated socket data.length,
                .blockWritten socket data,
                .blockReleased socket
              ])
            (client, (host.writeFunction socket data after).2))
    ∧ client.state = .waitingForCommand
    ∧ client.shallowBinaryBlock = false

/-- The header is answered with `protocol_error`, nothing is written, and the connection is closed
and leaves.
-/
def BlockRefused (host : Host Emulator) (before : List Event) (start : Client × Emulator)
    (data : Bytes) (reads : List ClientRead)
    : Prop :=
  ∃ last state read events client emulator,
    feedReads host start reads
      = .stop
          (before
            ++ [
              .blockAllocated start.1.socketFd data.length,
              .errorReply start.1.socketFd .protocolError
                (ascii "Binary block size does not match expected size")
            ])
          ⟨.rejected, last⟩
    ∧ Arrives host start reads state read
    ∧ attend host ⟨true, false, false⟩ (some read) state
      = .emit (events ++ [.closed start.1.socketFd]) ⟨false, client, emulator⟩

/-- The 32 bits that are kept of the size. -/
theorem announced_eq (result : Int) : announced result = result.natAbs % 2 ^ 32 := by
  rw [announced, toUnsigned]
  split <;> omega

section Runs

variable {host : Host Emulator} {entry : GenericEntry Emulator} {line cmd : Bytes}
  {args : List Bytes} (write : WriteLineFor host entry line cmd args) {result : Int}
  {after : Emulator}
include write

/-- Behind the line the reader expects a block of the announced size. -/
theorem WriteLineFor.readBytes (parser : Parser) (emulator : Emulator)
    (idle : parser.phase = .idle)
    (returns : entry.function parser.socket args emulator = (result, after)) (rest : Bytes)
    : Parser.readBytes host (parser, emulator) (line ++ rest)
      = (Parser.readBytes host
          (
            {
              parser with
              phase := .expecting ⟨result < 0, announced result⟩
              writes := true
            },
            after
          )
          rest).prepend (called parser.socket cmd args result) := by
  have served : (resolve host cmd).serve host parser.socket args emulator
      = ⟨result, after, [.handled parser.socket (.generic .bCoreWrite) args result]⟩ := by
    rw [write.builtin, Resolution.serve, returns]
  have run := Parser.readBytes_binaryLine host parser emulator idle write.announces write.fits
    write.tokens rest
  simp only [served] at run
  rw [run, write.builtin]
  rfl

variable {client : Client} (wellFormed : client.WellFormed)
  (waiting : client.state = .waitingForCommand) {emulator : Emulator}
  (returns : entry.function client.socketFd args emulator = (result, after)) {data : Bytes}
  (positive : 0 < data.length) (counted : data.length < 2 ^ 32) {reads : List ClientRead}
  (stream : reads.flatMap ClientRead.bytes = line ++ sendData data)
include wellFormed waiting returns positive counted stream

/-- A block of the size that was kept is accepted. -/
theorem WriteLineFor.accepted (agreed : data.length = announced result ∨ announced result = 0)
    : BlockAccepted host (called client.socketFd cmd args result) client.socketFd result after data
        (feedReads host (client, emulator) reads) := by
  have idle : client.parser.phase = .idle := by
    simp only [Client.parser, Client.phase, waiting]
  have nonempty : data ≠ [] := List.length_pos_iff.mp positive
  have short := length_dropLast_lt positive
  have split : reads.flatMap ClientRead.bytes
      = line ++ (blockHeader data.length ++ data.dropLast) ++ [data.getLast nonempty] := by
    rw [stream, sendData_concat nonempty]
    simp only [List.append_assoc]
  have calm : Reaction.CalmAlong (feedRead host) Calm (client, emulator) reads := by
    have front := write.readBytes client.parser emulator idle returns
      (blockHeader data.length ++ data.dropLast)
    rw [Parser.readBytes_blockPart host _ _ rfl counted agreed short] at front
    refine calmAlong_of_last wellFormed split ?_
    rw [readerOf, front]
    simp [called]
  have simulates := feedReads_simulates wellFormed calm
  rw [stream, readerOf, write.readBytes client.parser emulator idle returns,
    Parser.readBytes_sendData host _ _ rfl positive counted agreed] at simulates
  have kept {events : List Event} {last : Emulator} {reader : Parser}
      (between : reader.phase = .idle)
      (run
        : (feedReads host (client, emulator) reads).project readerOf Stopped.final
          = .emit events (reader, last))
      : ∃ slot : Client,
          feedReads host (client, emulator) reads = .emit events (slot, last)
          ∧ slot.state = .waitingForCommand
          ∧ slot.shallowBinaryBlock = false := by
    obtain ⟨⟨slot, later⟩, turn, same⟩ := Reaction.emit_of_project run
    obtain ⟨rfl, rfl⟩ := Prod.mk.inj same
    have formed := (feedReads_kept wellFormed (by rw [turn]; rfl : _ = Except.ok (slot, later))).1
    have waits := slot.waiting_of_idle between
    exact ⟨slot, turn, waits, (formed.waiting waits).2.2⟩
  by_cases negative : result < 0
  · rw [Parser.finish_swallow host _ _ (decide_eq_true negative), Reaction.prepend_emit,
      Reaction.prepend_emit] at simulates
    obtain ⟨slot, turn, state⟩ := kept rfl simulates
    refine ⟨slot, ?_, state⟩
    rw [if_pos negative, turn]
    rfl
  · rw [Parser.finish_write host _ _ (decide_eq_false negative) rfl, Reaction.prepend_emit,
      Reaction.prepend_emit] at simulates
    obtain ⟨slot, turn, state⟩ := kept rfl simulates
    refine ⟨slot, ?_, state⟩
    rw [if_neg negative, turn]
    rfl

omit positive in

/-- A block of another size is refused. -/
theorem WriteLineFor.refused
    (mismatch : ¬ (data.length = announced result ∨ announced result = 0))
    : BlockRefused host (called client.socketFd cmd args result) (client, emulator) data reads := by
  have idle : client.parser.phase = .idle := by
    simp only [Client.parser, Client.phase, waiting]
  have whole := write.readBytes client.parser emulator idle returns (sendData data)
  rw [sendData, Parser.readBytes_blockMismatch host _ _ rfl counted mismatch, Parser.refuse,
    Reaction.prepend_stop, Reaction.prepend_stop] at whole
  have calm : Reaction.CalmAlong (feedRead host) Calm (client, emulator) reads := by
    refine calmAlong_of_no_release wellFormed ?_
    rw [stream, sendData, readerOf, whole]
    simp [called]
  have simulates := feedReads_simulates wellFormed calm
  rw [stream, sendData, readerOf, whole] at simulates
  rcases (feedReads host (client, emulator) reads).cases_eq with
    ⟨events, state, run⟩ | ⟨events, ⟨ending, last⟩, run⟩
  · rw [run] at simulates
    cases simulates
  · rw [run, Reaction.project_stop] at simulates
    obtain ⟨rfl, stops⟩ := Reaction.stop_inj simulates
    obtain ⟨rfl, -⟩ := Prod.mk.inj stops
    obtain ⟨state, read, arrives, ended⟩ := arrives_of_stops (by rw [run]; rfl)
    have up
        : ¬ ((⟨true, false, false⟩ : Revents).pollErr ∨ Revents.pollHup ⟨true, false, false⟩) := by
      simp
    have attends := (attend_ready host state up rfl).2 read
    rw [settle, ended, arrives.socketFd wellFormed] at attends
    exact ⟨last, state, read, _, _, _, run, arrives, attends⟩

end Runs

/-- For every result of the handler and every size of the block behind it, in whatever reads they
come: the block is accepted if the result is 0 or has this absolute value, and refused else, exactly
if the 32 bits that are kept do not say otherwise.
-/
theorem blockSizes_agree_iff (host : Host Emulator) {entry : GenericEntry Emulator}
    {line cmd : Bytes} {args : List Bytes} (write : WriteLineFor host entry line cmd args)
    (client : Client) (wellFormed : client.WellFormed)
    (waiting : client.state = .waitingForCommand) (emulator : Emulator) (result : Int)
    (after : Emulator) (returns : entry.function client.socketFd args emulator = (result, after))
    (data : Bytes) (positive : 0 < data.length) (counted : data.length < 2 ^ 32)
    (reads : List ClientRead) (stream : reads.flatMap ClientRead.bytes = line ++ sendData data)
    : let before := called client.socketFd cmd args result
      (result = 0 ∨ result.natAbs = data.length
          → BlockAccepted host before client.socketFd result after data
              (feedReads host (client, emulator) reads))
        ∧ (¬ (result = 0 ∨ result.natAbs = data.length)
          → BlockRefused host before (client, emulator) data reads)
      ↔ result.natAbs < 2 ^ 32
        ∨ result.natAbs % 2 ^ 32 ≠ 0 ∧ result.natAbs % 2 ^ 32 ≠ data.length := by
  intro before
  have kept := announced_eq result
  by_cases agreed : data.length = announced result ∨ announced result = 0
  · have accepted :=
      write.accepted wellFormed waiting returns positive counted stream agreed
    have notRefused : ¬ BlockRefused host before (client, emulator) data reads := by
      rintro ⟨last, _, _, _, _, _, refused, -⟩
      obtain ⟨_, run, -⟩ := accepted
      rw [refused] at run
      split at run <;> cases run
    have asked : (result = 0 ∨ result.natAbs = data.length)
        ↔ result.natAbs < 2 ^ 32
          ∨ result.natAbs % 2 ^ 32 ≠ 0 ∧ result.natAbs % 2 ^ 32 ≠ data.length := by
      omega
    rw [← asked]
    constructor
    · intro both
      by_contra other
      exact notRefused (both.2 other)
    · exact fun same => ⟨fun _ => accepted, fun other => absurd same other⟩
  · have refused := write.refused wellFormed waiting returns counted stream agreed
    refine iff_of_true ⟨fun same => absurd ?_ agreed, fun _ => refused⟩ ?_ <;> omega

/-- A line for a handler that returns `size`. -/
theorem Host.fixed_writeLine (size : Int)
    : WriteLineFor (Host.fixed [(.bCoreWrite, size)]) ⟨.bCoreWrite, fun _ _ _ => (size, ())⟩
        (ascii "bCORE_WRITE RAM\n") (ascii "bCORE_WRITE") [ascii "RAM"] where
  announces := ⟨rfl, ascii "bCORE_WRITE RAM", rfl, by decide⟩
  fits := by decide
  tokens := by decide
  builtin := rfl

/-- The line and a block of three bytes behind it, in one read. -/
def threeByteWrite : ClientRead := {
  bytes := ascii "bCORE_WRITE RAM\n" ++ sendData [1, 2, 3]
  nonempty := by decide
  fits := by decide
}

/-- A handler that expects three bytes gets them. -/
theorem blockSizes_agree_three
    : BlockAccepted (Host.fixed [(.bCoreWrite, 3)]) (called 4 (ascii "bCORE_WRITE") [ascii "RAM"] 3)
        4 3 () [1, 2, 3]
        (feedReads (Host.fixed [(.bCoreWrite, 3)]) (Client.zero.add 4, ()) [threeByteWrite]) :=
  ((blockSizes_agree_iff (Host.fixed [(.bCoreWrite, 3)]) (Host.fixed_writeLine 3)
      (Client.zero.add 4) (Client.zero.wellFormed_add 4) rfl () 3 () rfl [1, 2, 3] (by decide)
      (by decide) [threeByteWrite] rfl).mpr
    (by decide)).1
    (by decide)

/-- Of the 33 bits of 4294967296 the lower 32 are zero, which stands for any size. -/
theorem wrapped_size_accepted
    : ¬ ((4294967296 : Int) = 0 ∨ (4294967296 : Int).natAbs = [1, 2, 3].length)
      ∧ BlockAccepted (Host.fixed [(.bCoreWrite, 4294967296)])
          (called 4 (ascii "bCORE_WRITE") [ascii "RAM"] 4294967296) 4 4294967296 () [1, 2, 3]
          (feedReads (Host.fixed [(.bCoreWrite, 4294967296)]) (Client.zero.add 4, ())
            [threeByteWrite]) :=
  ⟨by decide,
    (Host.fixed_writeLine 4294967296).accepted (Client.zero.wellFormed_add 4) rfl rfl (by decide)
      (by decide) rfl (Or.inr (by decide))⟩

end NetworkAccess
