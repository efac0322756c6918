import Mathlib.Data.List.Induction
import NetworkAccess.Parser.ByteCases

/-! How the phases of the byte reader follow one another: where a block begins, and what
lies between two blocks.
-/

namespace NetworkAccess
namespace Parser

variable {Emulator : Type} (host : Host Emulator)

/-- The reader is between two requests or inside a line. -/
def AtLine (parser : Parser) : Prop :=
  parser.phase = .idle ∨ ∃ bytes, parser.phase = .line bytes

/-- Nothing is pending at a line. -/
theorem AtLine.open_ {parser : Parser} (atLine : parser.AtLine) : parser.phase.Open := by
  rcases atLine with phase | ⟨bytes, phase⟩ <;> (rw [phase]; trivial)

/-- An ending that only a block can cause. -/
def BlockEnding (ending : Ending) : Prop :=
  ending = .undefined .blockOverflow ∨ ending = .spinning

/-- A byte that is read at a line dispatches a command, or the reader stays at lines or stops. -/
theorem AtLine.step_cases {parser : Parser} (atLine : parser.AtLine) (emulator : Emulator)
    (byte : UInt8)
    : (∃ events next,
        step host (parser, emulator) byte = .emit events next
        ∧ ((∃ name args, .command parser.socket name args ∈ events)
          ∨ events = [] ∧ next.1.AtLine))
      ∨ ∃ events ending last,
          step host (parser, emulator) byte = .stop events (ending, last)
          ∧ ¬ BlockEnding ending := by
  have other (fault : Fault) (different : fault ≠ .blockOverflow)
      : ¬ BlockEnding (.undefined fault) := by
    rintro (same | same)
    · exact different (Ending.undefined.inj same)
    · cases same
  rw [step_of_open host parser emulator atLine.open_]
  have cases := consume_case host parser emulator byte
  generalize consume host byte (parser, emulator) = turn at cases ⊢
  cases cases with
  | line _ extended =>
      cases extended with
      | stored => exact Or.inl ⟨_, _, rfl, Or.inr ⟨rfl, Or.inr ⟨_, rfl⟩⟩⟩
      | executed => exact Or.inl ⟨_, _, rfl, Or.inl ⟨_, _, List.mem_cons_self⟩⟩
      | faults _ _ tokens =>
          refine Or.inr ⟨_, _, _, rfl, other _ ?_⟩
          rintro rfl
          rcases tokenize_fault tokens with same | same | same <;> cases same
      | overflows =>
          refine Or.inr ⟨_, _, _, rfl, other _ ?_⟩
          intro same
          cases same
  | refuseCommand =>
      refine Or.inr ⟨_, _, _, rfl, ?_⟩
      rintro (same | same) <;> cases same
  | refuseBlock phase | refuseSize phase | opened phase | stored phase | finished phase =>
      rcases atLine with idle | ⟨bytes, line⟩
      · cases idle.symm.trans phase
      · cases line.symm.trans phase
  | header phase =>
      rcases atLine with idle | ⟨bytes, line⟩
      · rcases phase with phase | ⟨before, phase⟩ <;> cases idle.symm.trans phase
      · rcases phase with phase | ⟨before, phase⟩ <;> cases line.symm.trans phase

/-- Without a command the reader stays at lines and meets no block, by induction on the
bytes.
-/
theorem AtLine.of_no_command {parser : Parser} (atLine : parser.AtLine) (emulator : Emulator)
    (bytes : Bytes)
    (quiet
      : ∀ socket name args,
          .command socket name args ∉ (readBytes host (parser, emulator) bytes).emitted)
    : (∃ events next,
        readBytes host (parser, emulator) bytes = .emit events next ∧ next.1.AtLine)
      ∨ ∃ events ending last,
          readBytes host (parser, emulator) bytes = .stop events (ending, last)
          ∧ ¬ BlockEnding ending := by
  induction bytes generalizing parser emulator with
  | nil => exact Or.inl ⟨[], (parser, emulator), rfl, atLine⟩
  | cons byte rest ih =>
      rw [readBytes_cons] at quiet ⊢
      rcases atLine.step_cases host emulator byte with
        ⟨events, ⟨next, later⟩, run, ⟨name, args, member⟩ | ⟨rfl, further⟩⟩
        | ⟨events, ending, last, run, other⟩
      · rw [run, Reaction.emit_andThen, Reaction.emitted_prepend] at quiet
        exact absurd (List.mem_append_left _ member) (quiet parser.socket name args)
      · rw [run, Reaction.emit_andThen, Reaction.prepend_nil] at quiet ⊢
        exact ih further later quiet
      · rw [run]
        exact Or.inr ⟨events, ending, last, rfl, other⟩

/-- A byte that leads into a block opens it, or is stored as its last byte. -/
theorem consume_to_block {parser next : Parser} {emulator later : Emulator} {byte : UInt8}
    {events : List Event} {ticket : Ticket} {size : Nat} {data : Bytes}
    (run : consume host byte (parser, emulator) = .emit events (next, later))
    (inside : next.phase = .block ticket size data)
    : data = []
      ∨ ∃ stored,
          data = stored ++ [byte]
          ∧ events = []
          ∧ parser = { next with phase := .block ticket size stored }
          ∧ later = emulator
          ∧ (data.length = size → ¬ (ticket.swallow ∨ next.writes)) := by
  have cases := consume_case host parser emulator byte
  rw [run] at cases
  cases cases with
  | line _ extended =>
      cases extended with
      | stored => cases inside
      | executed _ _ behind =>
          rcases behind with phase | ⟨ticket, phase⟩ <;> cases phase.symm.trans inside
  | header => cases inside
  | opened =>
      cases inside
      exact Or.inl rfl
  | stored phase waits =>
      cases inside
      exact Or.inr ⟨_, rfl, rfl, by rw [← phase], rfl, waits⟩
  | finished => cases inside

/-- A byte that leads into a block opens it or is stored as its last byte, whatever is settled
before.
-/
theorem step_to_block {parser next : Parser} {emulator later : Emulator} {byte : UInt8}
    {events : List Event} {ticket : Ticket} {size : Nat} {data : Bytes}
    (run : step host (parser, emulator) byte = .emit events (next, later))
    (inside : next.phase = .block ticket size data)
    : data = []
      ∨ ∃ stored,
          data = stored ++ [byte]
          ∧ events = []
          ∧ parser = { next with phase := .block ticket size stored }
          ∧ later = emulator := by
  obtain ⟨early, ⟨middle, between⟩, late, settles, consumes, rfl⟩ :=
    Reaction.andThen_eq_emit.mp run
  rcases consume_to_block host consumes inside with empty | ⟨stored, last, rfl, same, rfl, -⟩
  · exact Or.inl empty
  · have settled := settle_case host parser emulator
    rw [settles] at settled
    cases settled with
    | still => exact Or.inr ⟨stored, last, rfl, same, rfl⟩
    | finished => cases congrArg Parser.phase same

/-- A block that the reader is in began at one place of the bytes. Witness: the bytes
without those of the block, by induction from their end.
-/
theorem AtLine.block_begins {parser next : Parser} {emulator later : Emulator}
    {bytes : Bytes} {events : List Event} {ticket : Ticket} {size : Nat} {data : Bytes}
    (atLine : parser.AtLine)
    (run : readBytes host (parser, emulator) bytes = .emit events (next, later))
    (inside : next.phase = .block ticket size data)
    : ∃ front,
        bytes = front ++ data
        ∧ readBytes host (parser, emulator) front
          = .emit events ({ next with phase := .block ticket size [] }, later) := by
  induction bytes using List.reverseRecOn generalizing next later events data with
  | nil =>
      cases run
      rcases atLine with phase | ⟨bytes, phase⟩ <;> (rw [phase] at inside; cases inside)
  | append_singleton front byte ih =>
      rcases (readBytes host (parser, emulator) front).cases_eq with
        ⟨before, ⟨middle, between⟩, first⟩ | ⟨before, reason, first⟩
      · rw [readBytes_append, first, Reaction.emit_andThen, readBytes_singleton] at run
        rcases (step host (middle, between) byte).cases_eq with
          ⟨more, ⟨after, final⟩, last⟩ | ⟨more, reason, last⟩
        · rw [last] at run
          cases run
          rcases step_to_block host last inside with
            rfl | ⟨stored, rfl, rfl, rfl, rfl⟩
          · refine ⟨front ++ [byte], (List.append_nil _).symm, ?_⟩
            rw [readBytes_append, first, Reaction.emit_andThen, readBytes_singleton, last,
              ← inside]
            rfl
          · obtain ⟨early, rfl, begun⟩ := ih first rfl
            refine ⟨early, List.append_assoc _ _ _, ?_⟩
            rw [begun, Reaction.emitted_emit, List.append_nil]
        · rw [last] at run
          cases run
      · rw [readBytes_append, first] at run
        cases run

end Parser
end NetworkAccess
