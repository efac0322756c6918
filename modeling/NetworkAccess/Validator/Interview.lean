import NetworkAccess.Validator.DecodedText
import NetworkAccess.Validator.Main

/-! What the validator does, as an interview: questions, each with the answer that it demands, and
which of them the answers so far give reason to ask.
-/

namespace NetworkAccess

open Numerals

/-- A subtraction modulo `2 ^ 32`. -/
def wrapped (left right : Nat) : Nat := (left + 2 ^ 32 - right) % 2 ^ 32

/-- The parts of a memory that are read or written. -/
inductive Trial where
  | first
  | hexadecimal
  | whole
  | behind
  | several
  | unfinished
deriving DecidableEq

/-- The arguments that ask for these parts. -/
def Trial.argString (memory : AvailableMemory) : Trial → Bytes
  | .first => memory.name ++ ascii ";0;5"
  | .hexadecimal => memory.name ++ ascii ";$0;$5"
  | .whole => memory.name
  | .behind => memory.name ++ ascii ";20"
  | .several => memory.name ++ ascii ";8;5;25;4;30;1"
  | .unfinished => memory.name ++ ascii ";20;2;" ++ decimal (wrapped memory.size 2)

/-- How many bytes the parts have. -/
def Trial.size (memory : AvailableMemory) : Trial → Nat
  | .first | .hexadecimal => 5
  | .whole => memory.size
  | .behind => wrapped memory.size 20
  | .several => 10
  | .unfinished => 4

/-- The questions of the validator, with what they are about. -/
inductive Ask where
  | emulatorInfo
  | coresList
  | coresListOf (platform : Bytes)
  | invalidPlatform
  | status
  | coreInfo (core platform : Bytes)
  | invalidCore
  | myName
  | unexpectedBlock
  | behindBlock (reply : EmulatorReply)
  | myNameAgain
  | statusAgain
  | memories
  | read (trial : Trial) (memory : AvailableMemory)
  | write (trial : Trial) (memory : AvailableMemory)

/-- The line of a question. -/
def Ask.line : Ask → Option Bytes
  | .emulatorInfo | .behindBlock _ => some (executeRawCommand (ascii "EMULATOR_INFO") none)
  | .coresList => some (executeRawCommand (ascii "CORES_LIST") none)
  | .coresListOf platform => some (executeRawCommand (ascii "CORES_LIST") (some platform))
  | .invalidPlatform =>
      some (executeRawCommand (ascii "CORES_LIST") (some (ascii "BLABLACORE")))
  | .status | .statusAgain => some (executeRawCommand (ascii "EMULATION_STATUS") none)
  | .coreInfo core _ => some (executeRawCommand (ascii "CORE_INFO") (some core))
  | .invalidCore =>
      some (executeRawCommand (ascii "CORE_INFO") (some (ascii "invalid_core_name")))
  | .myName | .myNameAgain =>
      some (executeRawCommand (ascii "MY_NAME_IS") (some (ascii "NWA validator")))
  | .unexpectedBlock => none
  | .memories => some (executeRawCommand (ascii "CORE_MEMORIES") none)
  | .read trial memory =>
      some (executeRawCommand (ascii "CORE_READ") (some (trial.argString memory)))
  | .write trial memory =>
      some (executeRawCommand (ascii "bCORE_WRITE") (some (trial.argString memory)))

/-- The data of a question that has a block. -/
def Ask.block : Ask → Option Bytes
  | .unexpectedBlock => some [1, 2, 3]
  | .write trial memory => some (List.replicate (trial.size memory) 0)
  | _ => none

/-- What is written for a question. -/
def Ask.writes (ask : Ask) : List Bytes :=
  ask.line.toList
    ++ match ask.block with
      | some data => [blockHeader data.length, data]
      | none => []

/-- How a question ends: it could not be written, it has a reply, or `get_reply` failed. -/
inductive Answer where
  | unsent (error : IoError)
  | replied (reply : EmulatorReply)
  | failed (failure : Failure)

/-- What an answer reports under a key. -/
def Answer.report (key : Bytes) : Answer → Option Bytes
  | .replied (.ascii (.hash map)) => map.lookup key
  | _ => none

/-- The answer is an error of this kind. -/
def Answer.Refuses (kind : NWAErrorKind) (answer : Answer) : Prop :=
  ∃ reason, answer = .replied (.error ⟨kind, reason⟩)

/-- The connection is closed. -/
def Answer.Aborted : Answer → Prop
  | .unsent error | .failed (.io error) => error.kind = .connectionAborted
  | _ => False

/-- What the validator demands of the answer to a question. -/
def Ask.Accepts (answer : Answer) : Ask → Prop
  | .emulatorInfo =>
      (answer.report (ascii "name")).isSome
      ∧ (answer.report (ascii "version")).isSome
      ∧ (answer.report (ascii "id")).isSome
      ∧ answer.report (ascii "nwa_version") = some (ascii "1.0")
      ∧ ∃ commands,
          answer.report (ascii "commands") = some commands
          ∧ ∀ command ∈ mandatoryCommands, command ∈ commands.splitOn comma
  | .coresList | .coresListOf _ =>
      (answer.report (ascii "name")).isSome ∧ (answer.report (ascii "platform")).isSome
  | .status =>
      ∃ state,
        answer.report (ascii "state") = some state
        ∧ (state = ascii "running" ∨ state = ascii "paused"
          → (answer.report (ascii "game")).isSome)
  | .coreInfo core platform =>
      answer.report (ascii "platform") = some platform
      ∧ answer.report (ascii "name") = some core
  | .myName => (answer.report (ascii "name")).isSome
  | .invalidPlatform => answer = .replied (.ascii .ok)
  | .invalidCore => answer.Refuses .invalidArgument
  | .behindBlock reply => (Answer.replied reply).Refuses .protocolError ∧ answer.Aborted
  | .memories =>
      (∃ error, answer = .replied (.error error))
      ∨ (answer.report (ascii "name")).isSome
        ∧ (answer.report (ascii "access")).isSome
        ∧ (answer.report (ascii "size")).isSome
  | .read .unfinished _ | .write .unfinished _ => answer.Refuses .invalidArgument
  | .read trial memory =>
      ∃ data, answer = .replied (.binary data) ∧ data.length = trial.size memory
  | .write _ _ => answer = .replied (.ascii .ok)
  | .unexpectedBlock | .myNameAgain | .statusAgain => True

/-- Whether a question has a check of its own. The one about the unexpected block is judged together
with the question behind it.
-/
def Ask.judged : Ask → Bool
  | .unexpectedBlock | .myNameAgain | .statusAgain => false
  | _ => true

/-- What the validator does with its connection: a question with what came of it, or connecting
again.
-/
inductive Inquiry where
  | asked (ask : Ask) (answer : Answer)
  | reconnected (succeeds : Bool)

/-- The calls of an exchange. A connection that should have been closed is closed. -/
def Inquiry.calls : Inquiry → List NetworkCall
  | .asked ask answer =>
      ask.writes.map .write
        ++ match answer with
          | .unsent _ => []
          | .failed failure => [.getReply (.error failure)]
          | .replied reply =>
              .getReply (.ok reply)
                :: match ask with
                  | .behindBlock _ => [.close]
                  | _ => []
  | .reconnected succeeds => [.reconnected succeeds]

/-- Whether a check is about it. -/
def Inquiry.judged : Inquiry → Bool
  | .asked ask _ => ask.judged
  | .reconnected _ => false

/-- Whether the answer is the one that the question demands. -/
def Inquiry.Accepted : Inquiry → Prop
  | .asked ask answer => ask.Accepts answer
  | .reconnected _ => True

-----------------------------------------------------------------------------------------
-- Reasons to ask
-----------------------------------------------------------------------------------------

/-- The emulator has reported this when it was asked that. -/
def Told (history : List Inquiry) (ask : Ask) (key value : Bytes) : Prop :=
  ∃ answer, .asked ask answer ∈ history ∧ answer.report key = some value

/-- A record of a memory to read and to write, whose size is 0 if it has none. -/
structure StringMap.Offers (map : StringMap) (memory : AvailableMemory) : Prop where
  name : map.lookup (ascii "name") = some memory.name
  access : ∃ access, map.lookup (ascii "access") = some access ∧ ascii "rw" <:+: access
  size
    : match map.lookup (ascii "size") with
      | some size => parseU32 size = some memory.size
      | none => memory.size = 0
  fits : memory.size < 2 ^ 32

/-- The emulator has reported this memory. -/
def Offered (history : List Inquiry) (memory : AvailableMemory) : Prop :=
  ∃ map : StringMap,
    .asked .memories (.replied (.ascii (.hash map))) ∈ history ∧ map.Offers memory

/-- The size of a memory that was offered fits into 32 bits. -/
theorem Offered.fits {history : List Inquiry} {memory : AvailableMemory}
    (offered : Offered history memory)
    : memory.size < 2 ^ 32 := by
  obtain ⟨map, -, record⟩ := offered
  exact record.fits

/-- What the emulator must have told before a question is asked. -/
def Ask.Justified (history : List Inquiry) : Ask → Prop
  | .coresListOf platform => Told history .coresList (ascii "platform") platform
  | .coreInfo core platform =>
      Told history .coresList (ascii "name") core
      ∧ (platform = noPlatform
        ∨ Told history .coresList (ascii "platform") platform
        ∨ ∃ earlier, Told history (.coresListOf earlier) (ascii "platform") platform)
  | .behindBlock reply => history.getLast? = some (.asked .unexpectedBlock (.replied reply))
  | .memories =>
      ∃ commands,
        Told history .emulatorInfo (ascii "commands") commands
        ∧ ascii "CORE_MEMORIES" ∈ commands.splitOn comma
  | .read _ memory => Offered history memory
  | .write trial memory => trial ≠ .behind ∧ Offered history memory
  | _ => True

/-- A question whose error ends the validator, which is every question but one. -/
def Ask.Ordinary (ask : Ask) : Prop := ∀ reply, ask ≠ .behindBlock reply

/-- An exchange that may follow a history. A question with a block has an answer in any case. -/
def Inquiry.Justified (history : List Inquiry) : Inquiry → Prop
  | .asked ask answer =>
      ask.Justified history
      ∧ match answer with
        | .unsent _ => ask.block = none
        | .replied reply => reply.Decoded
        | .failed _ => True
  | .reconnected _ => True

-----------------------------------------------------------------------------------------
-- Ends
-----------------------------------------------------------------------------------------

/-- Why the validator does not go on behind a reply. -/
def Ask.breaks (overflowChecks : Bool) (reply : EmulatorReply) : Ask → Bool
  | .statusAgain =>
      match reply with
      | .ascii (.hash map) => (map.lookup (ascii "state")).isNone
      | _ => false
  | .memories =>
      match reply with
      | .ascii (.hash map) =>
          accessible map && (map.lookup (ascii "size")).any (fun size => (parseU32 size).isNone)
      | _ => false
  | .read .behind memory => overflowChecks && decide (memory.size < 20)
  | _ => false

/-- Why the validator ends behind an exchange, if it does. -/
def Inquiry.halts (overflowChecks : Bool) : Inquiry → Option Halt
  | .asked _ (.failed .waits) => some (.fails .waits)
  | .asked _ (.failed .panics) => some (.fails .panics)
  | .asked (.behindBlock _) (.failed (.io _)) | .asked (.behindBlock _) (.unsent _) => none
  | .asked _ (.failed (.io _)) | .asked _ (.unsent _) => some (.fails .panics)
  | .asked ask (.replied reply) =>
      if ask.breaks overflowChecks reply then some (.fails .panics) else none
  | .reconnected _ => none

/-- Why the validator ends behind a history, if it does. -/
def halts (overflowChecks : Bool) (history : List Inquiry) : Option Halt :=
  history.getLast?.bind (Inquiry.halts overflowChecks)

/-- Every inquiry has its reasons, and the validator went on behind the ones before it. -/
inductive Interview (overflowChecks : Bool) : List Inquiry → Prop
  | nil : Interview overflowChecks []
  | concat {history inquiry} (interview : Interview overflowChecks history)
      (goesOn : halts overflowChecks history = none) (justified : inquiry.Justified history)
    : Interview overflowChecks (history ++ [inquiry])

end NetworkAccess
