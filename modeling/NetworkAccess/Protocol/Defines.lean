import Mathlib.Algebra.Group.Int.Defs
import Mathlib.Algebra.GroupWithZero.Nat
import Mathlib.Data.List.Basic
import Mathlib.Data.List.TakeWhile

/-! The command and error vocabularies of the protocol header: enumerations, their
numeric values and the tables that give each entry its spelling on the wire.
-/

namespace NetworkAccess

/-- Bytes as they are stored in the buffers of the server. -/
abbrev Bytes := List UInt8

/-- The bytes of an ASCII text, without a terminating NUL. -/
def ascii (text : String) : Bytes := text.toList.map (fun letter => UInt8.ofNat letter.toNat)

/-- `\n`. -/
def newline : UInt8 := 10

/-- A space. -/
def space : UInt8 := 32

/-- `;`. -/
def semicolon : UInt8 := 59

/-- The text that C string functions see in a buffer: the bytes before the first NUL. -/
def cString (buffer : Bytes) : Bytes := buffer.takeWhile (· ≠ 0)

/-- Bytes without a NUL are the C string that they hold. -/
theorem cString_clean {bytes : Bytes} (clean : (0 : UInt8) ∉ bytes) : cString bytes = bytes := by
  refine List.takeWhile_eq_self_iff.mpr (fun letter member => ?_)
  exact decide_eq_true (fun zero => clean (zero ▸ member))

/-- `emulator_network_access_command`. -/
inductive EmulatorCommand where
  | emulatorInfo
  | emulationStatus
  | emulationPause
  | emulationStop
  | emulationReset
  | emulationResume
  | emulationReload
  | myNameIs
  | loadGame
  | gameInfo
  | coresList
  | coreInfo
  | coreCurrentInfo
  | loadCore
  | coreMemories
  | coreRead
  | bCoreWrite
  | debugBreak
  | debugContinue
  | loadState
  | saveState
  | custom
deriving DecidableEq, Repr

/-- The value of the enumerator, as stored in a client's `current_command`. -/
def EmulatorCommand.value : EmulatorCommand → Nat
  | .emulatorInfo => 1
  | .emulationStatus => 2
  | .emulationPause => 3
  | .emulationStop => 4
  | .emulationReset => 5
  | .emulationResume => 6
  | .emulationReload => 7
  | .myNameIs => 8
  | .loadGame => 9
  | .gameInfo => 10
  | .coresList => 11
  | .coreInfo => 12
  | .coreCurrentInfo => 13
  | .loadCore => 14
  | .coreMemories => 15
  | .coreRead => 16
  | .bCoreWrite => 17
  | .debugBreak => 18
  | .debugContinue => 19
  | .loadState => 20
  | .saveState => 21
  | .custom => 128

/-- One entry of `emulator_network_access_command_strings`. -/
structure CommandString where
  command : EmulatorCommand
  string : Bytes

/-- `emulator_network_access_command_strings`. -/
def commandStrings : List CommandString := [
  ⟨.emulatorInfo, ascii "EMULATOR_INFO"⟩,
  ⟨.emulationStatus, ascii "EMULATION_STATUS"⟩,
  ⟨.emulationPause, ascii "EMULATION_PAUSE"⟩,
  ⟨.emulationStop, ascii "EMULATION_STOP"⟩,
  ⟨.emulationReset, ascii "EMULATION_RESET"⟩,
  ⟨.emulationResume, ascii "EMULATION_RESUME"⟩,
  ⟨.emulationReload, ascii "EMULATION_RELOAD"⟩,
  ⟨.myNameIs, ascii "MY_NAME_IS"⟩,
  ⟨.loadGame, ascii "LOAD_GAME"⟩,
  ⟨.gameInfo, ascii "GAME_INFO"⟩,
  ⟨.coresList, ascii "CORES_LIST"⟩,
  ⟨.coreInfo, ascii "CORE_INFO"⟩,
  ⟨.coreCurrentInfo, ascii "CORE_CURRENT_INFO"⟩,
  ⟨.loadCore, ascii "LOAD_CORE"⟩,
  ⟨.coreMemories, ascii "CORE_MEMORIES"⟩,
  ⟨.coreRead, ascii "CORE_READ"⟩,
  ⟨.bCoreWrite, ascii "bCORE_WRITE"⟩,
  ⟨.debugBreak, ascii "DEBUG_BREAK"⟩,
  ⟨.debugContinue, ascii "DEBUG_CONTINUE"⟩,
  ⟨.loadState, ascii "LOAD_STATE"⟩,
  ⟨.saveState, ascii "SAVE_STATE"⟩
]

/-- `emulator_network_access_error_type`. -/
inductive ErrorType where
  | protocolError
  | invalidCommand
  | invalidArgument
  | commandError
  | notAllowed
deriving DecidableEq, Repr

/-- One entry of `emulator_network_access_error_type_strings`. -/
structure ErrorTypeString where
  errorType : ErrorType
  string : Bytes

/-- `emulator_network_access_error_type_strings`. -/
def errorTypeStrings : List ErrorTypeString := [
  ⟨.protocolError, ascii "protocol_error"⟩,
  ⟨.invalidCommand, ascii "invalid_command"⟩,
  ⟨.invalidArgument, ascii "invalid_argument"⟩,
  ⟨.commandError, ascii "command_error"⟩,
  ⟨.notAllowed, ascii "not_allowed"⟩
]

/-- Only `bCORE_WRITE` is both a builtin command and announces a binary block. -/
theorem commandStrings_binary (entry : CommandString) (member : entry ∈ commandStrings)
    (binary : entry.string.head? = some (98 : UInt8))
    : entry.command = .bCoreWrite := by
  revert entry
  decide

/-- Only the `bCORE_WRITE` entry carries the value that selects the write function. -/
theorem value_eq_bCoreWrite {command : EmulatorCommand}
    (same : command.value = EmulatorCommand.bCoreWrite.value)
    : command = .bCoreWrite := by
  cases command <;> first | rfl | exact absurd same (by decide)

/-- Each name stands for one command. -/
theorem commandStrings_injective (left : CommandString) (here : left ∈ commandStrings)
    (right : CommandString) (there : right ∈ commandStrings) (same : left.string = right.string)
    : left.command = right.command := by
  revert left right
  decide

end NetworkAccess
