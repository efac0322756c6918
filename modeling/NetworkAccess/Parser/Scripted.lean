import NetworkAccess.Library.Recorded
import NetworkAccess.Parser.ByteParser

/-! The readers of a host, run again on what its handlers returned: with these results in the place
of the emulator, the same bytes lead to the same events.
-/

namespace NetworkAccess

variable {Emulator : Type}

/-- The result that an event records. -/
def Event.answer : Event → Option Int
  | .handled _ _ _ result => some result
  | _ => none

/-- What the handlers returned, in the order of their calls. -/
def answers (trace : List Event) : List Int := trace.filterMap Event.answer

/-- The results of two traces are those of the first and then those of the second. -/
theorem answers_append (trace more : List Event)
    : answers (trace ++ more) = answers trace ++ answers more :=
  List.filterMap_append

/-- A handler that returns the next result of a list, and 0 behind its end. -/
def answerNext : Handler (List Int) := fun _ _ script => (script.headD 0, script.tail)

/-- An entry whose handler returns the next result of a script. -/
def GenericEntry.scripted (entry : GenericEntry Emulator) : GenericEntry (List Int) :=
  ⟨entry.command, answerNext⟩

/-- A custom entry whose handler does so. -/
def CustomEntry.scripted (entry : CustomEntry Emulator) : CustomEntry (List Int) :=
  ⟨entry.string, entry.nulFree, answerNext⟩

/-- The tables of the host, with a list of results for its emulator. -/
def Host.scripted (host : Host Emulator) : Host (List Int) := {
  genericMap := host.genericMap.map GenericEntry.scripted
  customMap := host.customMap.map CustomEntry.scripted
  writeFunction := fun _ _ script => (true, script)
  write := fun _ _ script => script
}

/-- What is found for a name, with such a handler. -/
def Resolution.scripted : Resolution Emulator → Resolution (List Int)
  | .unknown => .unknown
  | .unimplemented command => .unimplemented command
  | .generic command entry => .generic command entry.scripted
  | .custom index entry => .custom index entry.scripted

-----------------------------------------------------------------------------------------
-- Commands
-----------------------------------------------------------------------------------------

/-- Over a script the same custom command is found, by induction on the entries. -/
theorem lookupCustom_scripted (entries : List (CustomEntry Emulator)) (index : Nat) (cmd : Bytes)
    : lookupCustom (entries.map CustomEntry.scripted) index cmd
      = (lookupCustom entries index cmd).map (fun found => (found.1, found.2.scripted)) := by
  induction entries generalizing index with
  | nil => rfl
  | cons entry rest ih =>
      have same : entry.scripted.string = entry.string := rfl
      rw [List.map_cons, lookupCustom, lookupCustom, ih, same]
      by_cases begins : entry.string.isPrefixOf cmd
      · rw [if_pos begins, if_pos begins]
        rfl
      · rw [if_neg begins, if_neg begins]

/-- A name resolves to the same entry. -/
theorem resolve_scripted (host : Host Emulator) (cmd : Bytes)
    : resolve host.scripted cmd = (resolve host cmd).scripted := by
  simp only [resolve, Host.scripted, lookupCustom_scripted]
  cases lookupCustom host.customMap 0 cmd with
  | some found => rfl
  | none =>
      cases lookupCommand cmd with
      | none => rfl
      | some command =>
          dsimp only [Option.map_none]
          have found
              : (host.genericMap.map GenericEntry.scripted).find? (fun entry =>
                  entry.command = command)
                = (host.genericMap.find? (fun entry => entry.command = command)).map
                    GenericEntry.scripted :=
            List.find?_map ..
          rw [found]
          cases host.genericMap.find? (fun entry => entry.command = command) <;> rfl

/-- Serving a command takes its result from the list. -/
theorem Resolution.serve_scripted (host : Host Emulator) (socket : SOCKET) (args : List Bytes)
    (emulator : Emulator) (resolution : Resolution Emulator) (more : List Int)
    : let served := resolution.serve host socket args emulator
      resolution.scripted.serve host.scripted socket args (answers served.events ++ more)
        = ⟨served.size, more, served.events⟩ := by
  cases resolution <;> rfl

/-- The write flag does not depend on the handlers. -/
theorem Resolution.writes_scripted (previous : Bool) (resolution : Resolution Emulator)
    : resolution.scripted.writes previous = resolution.writes previous := by
  cases resolution <;> rfl

-----------------------------------------------------------------------------------------
-- Readers
-----------------------------------------------------------------------------------------

namespace Parser

variable (host : Host Emulator) (parser : Parser) (emulator : Emulator)

/-- The reading goes again without the emulator. -/
abbrev ReadsAgain (reading : Reading Emulator (Parser × Emulator))
    (replay : List Int → Reading (List Int) (Parser × List Int))
    : Prop :=
  Reaction.Records Event.answer Prod.fst Prod.fst reading replay

/-- A refusal is repeated on the script. -/
theorem refuse_again (reason : Bytes)
    : ReadsAgain (refuse host parser emulator reason)
        (fun script => refuse host.scripted parser script reason) :=
  .of_stop (fun _ => rfl)

/-- A line is dispatched again with the results that its handler returned. -/
theorem dispatch_again (line : Bytes)
    : ReadsAgain (dispatch host parser emulator line)
        (fun script => dispatch host.scripted parser script line) := by
  rw [dispatch]
  cases tokens : tokenize line with
  | error fault => exact .of_stop (fun _ => by simp only [dispatch, tokens]; rfl)
  | ok command =>
      obtain ⟨cmd, args⟩ := command
      refine .of_emit (fun more => ?_)
      have served := Resolution.serve_scripted host parser.socket args emulator (resolve host cmd)
        more
      simp only [answers] at served
      simp only [dispatch, tokens, resolve_scripted, Resolution.writes_scripted,
        List.filterMap_cons, Event.answer, served]

/-- A line is extended again. -/
theorem extendLine_again (line : Bytes) (byte : UInt8)
    : ReadsAgain (extendLine host parser emulator line byte)
        (fun script => extendLine host.scripted parser script line byte) := by
  by_cases room : line.length < 2048
  · by_cases ends : byte = newline
    · simp only [extendLine, if_pos room, if_pos ends]
      exact dispatch_again host parser emulator _
    · simp only [extendLine, if_pos room, if_neg ends]
      exact .of_emit (fun _ => rfl)
  · simp only [extendLine, if_neg room]
    exact .of_stop (fun _ => rfl)

/-- A block is finished again. -/
theorem finish_again (ticket : Ticket) (data : Bytes)
    : ReadsAgain (finish host parser emulator ticket data)
        (fun script => finish host.scripted parser script ticket data) := by
  by_cases swallow : ticket.swallow
  · simp only [finish, if_pos swallow]
    exact .of_emit (fun _ => rfl)
  · by_cases writes : parser.writes
    · simp only [finish, if_neg swallow, if_pos writes]
      exact .of_emit (fun _ => rfl)
    · simp only [finish, if_neg swallow, if_neg writes]
      exact .of_emit (fun _ => rfl)

/-- A settled byte; the cases are those of the phase. -/
theorem consume_again (byte : UInt8)
    : ReadsAgain (consume host byte (parser, emulator))
        (fun script => consume host.scripted byte (parser, script)) := by
  obtain ⟨socket, phase, writes⟩ := parser
  cases phase with
  | idle =>
      simp only [consume]
      split
      case isTrue => exact extendLine_again host _ emulator _ _
      case isFalse => exact refuse_again host _ emulator _
  | line bytes => exact extendLine_again host _ emulator _ _
  | expecting ticket =>
      simp only [consume]
      split
      case isTrue => exact refuse_again host _ emulator _
      case isFalse => exact .of_emit (fun _ => rfl)
  | header ticket bytes =>
      simp only [consume]
      split
      case isTrue => exact .of_emit (fun _ => rfl)
      case isFalse =>
        split
        case isTrue => exact .of_emit (fun _ => rfl)
        case isFalse => exact (refuse_again host _ emulator _).prepend rfl
  | block ticket size data =>
      simp only [consume]
      split
      case isTrue => exact finish_again host _ emulator _ _
      case isFalse => exact .of_emit (fun _ => rfl)

/-- A reader settles again. -/
theorem settle_again
    : ReadsAgain (settle host parser emulator)
        (fun script => settle host.scripted parser script) := by
  obtain ⟨socket, phase, writes⟩ := parser
  cases phase with
  | block ticket size data =>
      simp only [settle]
      split
      case isTrue => exact .of_emit (fun _ => rfl)
      case isFalse =>
        split
        case isTrue =>
          split
          case isTrue => exact finish_again host _ emulator _ _
          case isFalse => exact .of_stop (fun _ => rfl)
        case isFalse => exact .of_stop (fun _ => rfl)
  | _ => exact .of_emit (fun _ => rfl)

/-- A stream is read again on the results that its events record. -/
theorem readBytes_again (stream : Bytes)
    : ReadsAgain (readBytes host (parser, emulator) stream)
        (fun script => readBytes host.scripted (parser, script) stream) :=
  Reaction.Records.foldlM
    (fun state byte =>
      (settle_again host state.1 state.2).andThen (fun next _ =>
        consume_again host next.1 next.2 byte))
    (parser, emulator) stream

end Parser
end NetworkAccess
