import NetworkAccess.Library.Ensures
import NetworkAccess.Parser.ByteParser

/-! Invariants of a reader from the few things that it can do: serve a command, refuse its input,
and allocate, release or hand over a block.
-/

namespace NetworkAccess

variable {Emulator : Type}

/-- What the work for one connection keeps of the events so far and of the emulator. -/
structure ReaderInvariant (host : Host Emulator) (socket : SOCKET) where
  kept : List Event → Emulator → Prop
  serve
    : ∀ {trace emulator} (cmd : Bytes) (args : List Bytes),
        kept trace emulator
        → let served := (resolve host cmd).serve host socket args emulator
          kept (trace ++ .command socket cmd args :: served.events) served.emulator
  refuse
    : ∀ {trace emulator} (reason : Bytes),
        kept trace emulator
        → kept (trace ++ [.errorReply socket .protocolError reason])
            (host.write socket (errorReplyText .protocolError reason) emulator)
  allocate
    : ∀ {trace emulator} (size : Nat),
        kept trace emulator → kept (trace ++ [.blockAllocated socket size]) emulator
  release
    : ∀ {trace emulator},
        kept trace emulator → kept (trace ++ [.blockReleased socket]) emulator
  write
    : ∀ {trace emulator} (data : Bytes),
        kept trace emulator
        → kept (trace ++ [.blockWritten socket data, .blockReleased socket])
            (host.writeFunction socket data emulator).2

namespace ReaderInvariant

variable {host : Host Emulator} {socket : SOCKET} (invariant : ReaderInvariant host socket)

/-- A reading keeps it, and the reader goes on reading for the same connection. -/
abbrev Holds (trace : List Event) (reading : Reading Emulator (Parser × Emulator)) : Prop :=
  reading.Ensures
    (fun trace state => invariant.kept trace state.2 ∧ state.1.socket = socket)
    (fun trace reason => invariant.kept trace reason.2) trace

variable {trace : List Event} {parser : Parser} {emulator : Emulator}
  (kept : invariant.kept trace emulator) (own : parser.socket = socket)
include kept own

/-- A reader that emits nothing keeps the invariant. -/
theorem silent {phase : Phase}
    : invariant.Holds trace (.emit [] ({ parser with phase }, emulator)) :=
  ⟨(List.append_nil trace).symm ▸ kept, own⟩

/-- Dispatching a line keeps the invariant. -/
theorem dispatch (line : Bytes)
    : invariant.Holds trace (Parser.dispatch host parser emulator line) := by
  subst own
  rw [Parser.dispatch]
  split
  case h_1 =>
    rw [Holds, Reaction.Ensures.stop_iff, List.append_nil]
    exact kept
  case h_2 cmd args _ => exact ⟨invariant.serve cmd args kept, rfl⟩

/-- Refusing a byte keeps the invariant. -/
theorem refuseInput (reason : Bytes)
    : invariant.Holds trace (Parser.refuse host parser emulator reason) := by
  subst own
  exact invariant.refuse reason kept

/-- Extending a line keeps the invariant. -/
theorem extendLine (line : Bytes) (byte : UInt8)
    : invariant.Holds trace (Parser.extendLine host parser emulator line byte) := by
  rw [Parser.extendLine]
  split
  case isTrue =>
    split
    case isTrue => exact invariant.dispatch kept own _
    case isFalse => exact invariant.silent kept own
  case isFalse =>
    rw [Holds, Reaction.Ensures.stop_iff, List.append_nil]
    exact kept

/-- Finishing a block keeps the invariant. -/
theorem finish (ticket : Ticket) (data : Bytes)
    : invariant.Holds trace (Parser.finish host parser emulator ticket data) := by
  subst own
  rw [Parser.finish]
  split
  case isTrue => exact ⟨invariant.release kept, rfl⟩
  case isFalse =>
    split
    case isTrue => exact ⟨invariant.write data kept, rfl⟩
    case isFalse => exact invariant.silent kept rfl

/-- Settling keeps the invariant. -/
theorem settle : invariant.Holds trace (Parser.settle host parser emulator) := by
  have stops (ending : Ending) : invariant.Holds trace (.stop [] (ending, emulator)) := by
    rw [Holds, Reaction.Ensures.stop_iff, List.append_nil]
    exact kept
  rw [Parser.settle]
  split
  case h_1 ticket size data _ =>
    split
    case isTrue => exact invariant.silent kept own
    case isFalse =>
      split
      case isTrue =>
        split
        case isTrue => exact invariant.finish kept own ticket data
        case isFalse => exact stops _
      case isFalse => exact stops _
  case h_2 => exact invariant.silent kept own

/-- A settled byte; the cases are those of the phase. -/
theorem consume (byte : UInt8)
    : invariant.Holds trace (Parser.consume host byte (parser, emulator)) := by
  obtain ⟨fd, phase, writes⟩ := parser
  cases phase with
  | idle =>
      simp only [Parser.consume]
      split
      case isTrue => exact invariant.extendLine kept own _ _
      case isFalse => exact invariant.refuseInput kept own _
  | line bytes => exact invariant.extendLine kept own _ _
  | expecting ticket =>
      simp only [Parser.consume]
      split
      case isTrue => exact invariant.refuseInput kept own _
      case isFalse => exact ⟨(List.append_nil trace).symm ▸ kept, own⟩
  | header ticket bytes =>
      simp only [Parser.consume]
      split
      case isTrue => exact ⟨(List.append_nil trace).symm ▸ kept, own⟩
      case isFalse =>
        cases own
        split
        case isTrue => exact ⟨invariant.allocate _ kept, rfl⟩
        case isFalse =>
          rw [Holds, Reaction.emit_andThen, Reaction.Ensures.prepend_iff]
          exact invariant.refuse _ (invariant.allocate _ kept)
  | block ticket size data =>
      simp only [Parser.consume]
      split
      case isTrue => exact invariant.finish kept own _ _
      case isFalse => exact ⟨(List.append_nil trace).symm ▸ kept, own⟩

/-- Reading a stream keeps the invariant, by induction on its bytes. -/
theorem readBytes (stream : Bytes)
    : invariant.Holds trace (Parser.readBytes host (parser, emulator) stream) := by
  induction stream generalizing parser emulator trace with
  | nil => exact invariant.silent kept own
  | cons byte rest ih =>
      rw [Parser.readBytes_cons, Parser.step, Reaction.andThen_assoc]
      refine (invariant.settle kept own).andThen (fun trace state settled => ?_)
      refine (invariant.consume settled.1 settled.2 byte).andThen (fun trace state next => ?_)
      exact ih next.1 next.2

end ReaderInvariant
end NetworkAccess
