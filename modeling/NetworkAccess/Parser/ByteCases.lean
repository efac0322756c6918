import NetworkAccess.Parser.ByteParser

/-! The complete list of what the byte reader can do with one byte. The facts about its phases are
case analyses over this list.
-/

namespace NetworkAccess
namespace Parser

variable {Emulator : Type}

/-- The byte belongs to a line of which the reader has this much: it begins the line, or the reader
is inside it.
-/
def LineAhead (parser : Parser) (byte : UInt8) (line : Bytes) : Prop :=
  parser.phase = .idle ∧ line = [] ∧ startsCommand byte ∨ parser.phase = .line line

/-- Everything that one more byte on a line can do. -/
inductive LineCase (host : Host Emulator) (parser : Parser) (emulator : Emulator) (line : Bytes)
    (byte : UInt8)
    : Reading Emulator (Parser × Emulator) → Prop
  | stored (room : line.length < 2048) (ordinary : byte ≠ newline)
    : LineCase host parser emulator line byte
        (.emit [] ({ parser with phase := .line (line ++ [byte]) }, emulator))
  | executed {cmd args events next} (room : line.length < 2048) (ends : byte = newline)
    (behind : next.1.phase = .idle ∨ ∃ ticket, next.1.phase = .expecting ticket)
    : LineCase host parser emulator line byte
        (.emit (.command parser.socket cmd args :: events) next)
  | faults {fault} (room : line.length < 2048) (ends : byte = newline)
    (tokens : tokenize (line ++ [newline]) = .error fault)
    : LineCase host parser emulator line byte (.stop [] (.undefined fault, emulator))
  | overflows (full : 2048 ≤ line.length)
    : LineCase host parser emulator line byte (.stop [] (.undefined .commandOverflow, emulator))

/-- Everything that reading a byte in a settled phase can do. -/
inductive ByteCase (host : Host Emulator) (parser : Parser) (emulator : Emulator) (byte : UInt8)
    : Reading Emulator (Parser × Emulator) → Prop
  | line {line turn} (ahead : parser.LineAhead byte line)
    (extended : LineCase host parser emulator line byte turn)
    : ByteCase host parser emulator byte turn
  | refuseCommand (phase : parser.phase = .idle)
    : ByteCase host parser emulator byte
        (refuse host parser emulator (ascii "Expecting a command or a signal registration"))
  | refuseBlock {ticket} (phase : parser.phase = .expecting ticket)
    : ByteCase host parser emulator byte
        (refuse host parser emulator (ascii "Sending invalid binary data block"))
  | refuseSize {ticket bytes size} (phase : parser.phase = .header ticket bytes)
    : ByteCase host parser emulator byte
        ((refuse host parser emulator
          (ascii "Binary block size does not match expected size")).prepend
            [.blockAllocated parser.socket size])
  | header {ticket bytes}
    (phase
      : parser.phase = .expecting ticket ∨ ∃ before, parser.phase = .header ticket before)
    : ByteCase host parser emulator byte
        (.emit [] ({ parser with phase := .header ticket bytes }, emulator))
  | opened {ticket bytes size} (phase : parser.phase = .header ticket bytes)
    : ByteCase host parser emulator byte
        (.emit [.blockAllocated parser.socket size]
          ({ parser with phase := .block ticket size [] }, emulator))
  | stored {ticket size data} (phase : parser.phase = .block ticket size data)
    (waits : (data ++ [byte]).length = size → ¬ (ticket.swallow ∨ parser.writes))
    : ByteCase host parser emulator byte
        (.emit [] ({ parser with phase := .block ticket size (data ++ [byte]) }, emulator))
  | finished {ticket size data events later} (phase : parser.phase = .block ticket size data)
    : ByteCase host parser emulator byte (.emit events ({ parser with phase := .idle }, later))

/-- Everything that settling a phase can do. -/
inductive SettleCase (parser : Parser) (emulator : Emulator)
    : Reading Emulator (Parser × Emulator) → Prop
  | still (open_ : parser.phase.Open) : SettleCase parser emulator (.emit [] (parser, emulator))
  | finished {events later}
    : SettleCase parser emulator (.emit events ({ parser with phase := .idle }, later))
  | spins {ticket data} (phase : parser.phase = .block ticket 0 data)
    (stuck : ¬ (ticket.swallow ∨ parser.writes))
    : SettleCase parser emulator (.stop [] (.spinning, emulator))
  | overflows {ticket size data} (phase : parser.phase = .block ticket size data)
    (full : size ≤ data.length) (some_ : 0 < size)
    : SettleCase parser emulator (.stop [] (.undefined .blockOverflow, emulator))

variable (host : Host Emulator) (parser : Parser) (emulator : Emulator)

/-- A block that can be finished leaves the reader between two requests. -/
theorem finish_idle {ticket : Ticket} (done : ticket.swallow ∨ parser.writes) (data : Bytes)
    : ∃ events later,
        finish host parser emulator ticket data
          = .emit events ({ parser with phase := .idle }, later)
        ∧ ∀ event ∈ events, event.isCommand = false := by
  by_cases swallow : ticket.swallow
  · exact ⟨_, _, finish_swallow host parser emulator swallow data, by simp [Event.isCommand]⟩
  · exact ⟨_, _, finish_write host parser emulator (by simpa using swallow)
      (done.resolve_left swallow) data, by simp [Event.isCommand]⟩

/-- A byte on a line is one of the cases. -/
theorem extendLine_case (line : Bytes) (byte : UInt8)
    : LineCase host parser emulator line byte (extendLine host parser emulator line byte) := by
  rw [extendLine]
  split
  case isTrue room =>
    split
    case isTrue ends =>
      rw [dispatch]
      split
      case h_1 fault tokens => exact .faults room ends (ends ▸ tokens)
      case h_2 cmd args _ =>
        refine .executed room ends ?_
        dsimp only
        rw [Phase.after]
        split
        case isTrue => exact Or.inr ⟨_, rfl⟩
        case isFalse => exact Or.inl rfl
    case isFalse ordinary => exact .stored room ordinary
  case isFalse full => exact .overflows (Nat.not_lt.mp full)

/-- Settling a phase is one of the cases. -/
theorem settle_case : SettleCase parser emulator (settle host parser emulator) := by
  rw [settle]
  split
  case h_1 ticket size data phase =>
    split
    case isTrue room => exact .still (phase ▸ room)
    case isFalse full =>
      split
      case isTrue empty =>
        subst empty
        split
        case isTrue done =>
          obtain ⟨events, later, finished, -⟩ := finish_idle host parser emulator done data
          rw [finished]
          exact .finished
        case isFalse stuck => exact .spins phase stuck
      case isFalse some_ =>
        exact .overflows phase (Nat.not_lt.mp full) (Nat.pos_of_ne_zero some_)
  case h_2 other =>
    refine .still ?_
    cases phase : parser.phase with
    | block ticket size data => exact absurd phase (other ticket size data)
    | idle | line | expecting | header => trivial

/-- Reading a byte is one of the cases. -/
theorem consume_case (byte : UInt8)
    : ByteCase host parser emulator byte (consume host byte (parser, emulator)) := by
  simp only [consume]
  split
  case h_1 idle =>
    split
    case isTrue starts =>
      exact .line (Or.inl ⟨idle, rfl, starts⟩) (extendLine_case host parser emulator [] byte)
    case isFalse => exact .refuseCommand idle
  case h_2 line inside =>
    exact .line (Or.inr inside) (extendLine_case host parser emulator line byte)
  case h_3 ticket phase =>
    split
    case isTrue => exact .refuseBlock phase
    case isFalse => exact .header (Or.inl phase)
  case h_4 ticket bytes phase =>
    split
    case isTrue => exact .header (Or.inr ⟨bytes, phase⟩)
    case isFalse =>
      split
      case isTrue => exact .opened phase
      case isFalse => exact .refuseSize phase
  case h_5 ticket size data phase =>
    split
    case isTrue full =>
      by_cases done : ticket.swallow ∨ parser.writes
      · obtain ⟨events, later, finished, -⟩ :=
          finish_idle host parser emulator done (data ++ [byte])
        rw [finished]
        exact .finished phase
      · rw [finish_stuck host parser emulator done, full]
        exact .stored phase (fun _ => done)
    case isFalse short => exact .stored phase (fun full => absurd full short)

end Parser
end NetworkAccess
