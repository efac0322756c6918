import NetworkAccess.Validator.CoresList
import NetworkAccess.Validator.Session

/-! `main` of the validator, in sections that are named after their checks. What it prints on the
way to its report is left out.
-/

namespace NetworkAccess

open Numerals

/-- The letter between two commands. -/
def comma : UInt8 := 44

-----------------------------------------------------------------------------------------
-- What is made of the replies
-----------------------------------------------------------------------------------------

/-- The commands that `main` looks for, in its order. -/
def mandatoryCommands : List Bytes := [
  ascii "EMULATOR_INFO",
  ascii "EMULATION_STATUS",
  ascii "CORES_LIST",
  ascii "CORE_INFO",
  ascii "CORE_CURRENT_INFO",
  ascii "MY_NAME_IS"
]

/-- The sub-check about one mandatory command. -/
def judgeMandatory (available : List Bytes) (command : Bytes) : Judging Unit :=
  Judging.addSubcheck (ascii "Mandatory command " ++ command) (ascii "Plop")
    (available.contains command)

/-- The judgement of EMULATOR_INFO, which returns `available_commands`. -/
def judgeEmulatorInfo (reply : EmulatorReply) : Judging (List Bytes) := do
  if ← Judging.expectAsciiHash reply then
    let _ ← Judging.addKeyCheck reply (ascii "name") none
    let _ ← Judging.addKeyCheck reply (ascii "version") none
    let _ ← Judging.addKeyCheck reply (ascii "id") none
    let _ ← Judging.addKeyCheck reply (ascii "nwa_version") (some (ascii "1.0"))
    match ← Judging.addKeyCheck reply (ascii "commands") none with
    | some cmd =>
        let availableCommands := cmd.splitOn comma
        mandatoryCommands.forM (judgeMandatory availableCommands)
        pure availableCommands
    | none => pure []
  else
    pure []

/-- The judgement of CORES_LIST for a platform, which returns `available_platform`, known before.
The loop over a list passes the check at its end only.
-/
def judgePlatform (reply : EmulatorReply) (platform : Bytes) : Judging Bytes :=
  match reply with
  | .ascii (.hash map) => do
      let _ ← Judging.addKeyCheck reply (ascii "name") none
      let _ ← Judging.addKeyCheck reply (ascii "platform") none
      Judging.setPassed true
      pure ((map.lookup (ascii "platform")).getD platform)
  | .ascii (.listHash maps) => do
      let record (platform : Bytes) (map : StringMap) : Judging Bytes := do
        let _ ← Judging.addKeyCheck reply (ascii "name") none
        let _ ← Judging.addKeyCheck reply (ascii "platform") none
        pure (keepPlatform platform map)
      let platform ← maps.foldlM record platform
      Judging.setPassed true
      pure platform
  | _ => pure platform

/-- The game is asked for only while the emulation runs or pauses. -/
def judgeStatus (reply : EmulatorReply) : Judging Unit := do
  let _ ← Judging.expectAsciiHash reply
  match ← Judging.addKeyCheck reply (ascii "state") none with
  | some state =>
      if state = ascii "running" ∨ state = ascii "paused" then
        let _ ← Judging.addKeyCheck reply (ascii "game") none
  | none => pure ()

/-- A core is asked to report its own platform and name. -/
def judgeCoreInfo (core platform : Bytes) (reply : EmulatorReply) : Judging Unit := do
  let _ ← Judging.expectAsciiHash reply
  let _ ← Judging.addKeyCheck reply (ascii "platform") (some platform)
  let _ ← Judging.addKeyCheck reply (ascii "name") (some core)

/-- The emulator is asked to report a name. -/
def judgeMyName (reply : EmulatorReply) : Judging Unit := do
  let _ ← Judging.expectAsciiHash reply
  let _ ← Judging.addKeyCheck reply (ascii "name") none

/-- `parse::<u32>`: digits, with a plus in front of them or without. -/
def parseU32 (text : Bytes) : Option Nat :=
  let digits := if text.head? = some plus ∧ text ≠ [plus] then text.tail else text
  let value := readDigits 10 digits 0
  if digits ≠ [] ∧ (digits.all (fun letter => 48 ≤ letter ∧ letter ≤ 57)) ∧ value < 2 ^ 32 then
    some value
  else
    none

/-- `available_memory_name` and `available_memory_size`. -/
structure AvailableMemory where
  name : Bytes
  size : Nat
deriving DecidableEq

/-- Whether a record is about a memory that can be read and written. -/
def accessible (map : StringMap) : Bool :=
  (map.lookup (ascii "name")).isSome
  ∧ (map.lookup (ascii "access")).any (fun access => ascii "rw" <:+: access)

/-- The memory behind a record that is taken. A size that is not a number panics. -/
def takeMemory (map : StringMap) (memory : AvailableMemory) : Except Failure AvailableMemory :=
  let name := (map.lookup (ascii "name")).getD memory.name
  match map.lookup (ascii "size") with
  | some size =>
      match parseU32 size with
      | some size => .ok ⟨name, size⟩
      | none => .error .panics
  | none => .ok ⟨name, memory.size⟩

/-- The three key checks of a record, about the whole reply. -/
def judgeMemoryKeys (reply : EmulatorReply) : Judging Unit := do
  let _ ← Judging.addKeyCheck reply (ascii "name") none
  let _ ← Judging.addKeyCheck reply (ascii "access") none
  let _ ← Judging.addKeyCheck reply (ascii "size") none

/-- The first memory of the reply that can be read and written; `noPlatform` in place of its name
stands for none.
-/
def judgeMemories (reply : EmulatorReply) : Judging AvailableMemory :=
  let memory := ⟨noPlatform, 0⟩
  match reply with
  | .ascii (.hash map) => do
      Judging.setPassed true
      judgeMemoryKeys reply
      if accessible map then takeMemory map memory else pure memory
  | .ascii (.listHash maps) => do
      Judging.setPassed true
      let record (memory : AvailableMemory) (map : StringMap) : Judging AvailableMemory := do
        judgeMemoryKeys reply
        if memory.name = noPlatform ∧ accessible map then takeMemory map memory else pure memory
      maps.foldlM record memory
  | .ascii .ok => pure memory
  | .error _ => do
      Judging.setPassed true
      pure memory
  | .binary _ => pure memory

-----------------------------------------------------------------------------------------
-- The sections
-----------------------------------------------------------------------------------------

namespace Validator

/-- EMULATOR_INFO, with the commands that it lists. -/
def checkEmulatorInfo : Validator (List Bytes) := do
  judge (Judging.newCheck (ascii "Mandatory EMULATOR_INFO command")
    (ascii "Testing for the firt requiered command"))
  let reply ← ask (ascii "EMULATOR_INFO") none
  judge (judgeEmulatorInfo reply)

/-- `coresList` begins the check; the source begins it before the request. -/
def checkCoresList : Validator Available := do
  let reply ← ask (ascii "CORES_LIST") none
  judge (coresList reply)

/-- CORES_LIST for a platform, with the platform of the reply. -/
def checkCoresListFilter (platform : Bytes) : Validator Bytes := do
  judge (Judging.newCheck (ascii "Command CORES_LIST filter capability")
    (ascii ("Test if the CORES_LIST command reply correctly with a given platform taken from "
      ++ "the previous request")))
  let reply ← ask (ascii "CORES_LIST") (some platform)
  judge (judgePlatform reply platform)

/-- CORES_LIST for a platform that does not exist. -/
def checkInvalidPlatform : Validator Unit := do
  judge (Judging.newCheck (ascii "Command CORES_LIST with invalid platform")
    (ascii "Test the mandaroty CORES_LIST command with an invalid plaform"))
  let reply ← ask (ascii "CORES_LIST") (some (ascii "BLABLACORE"))
  let _ ← judge (Judging.expectAsciiOk reply)

/-- EMULATION_STATUS. -/
def checkStatus : Validator Unit := do
  judge (Judging.newCheck (ascii "Checking Mandatory EMULATION_STATUS command")
    (ascii "Test the mandatory EMULATION_STATUS command"))
  let reply ← ask (ascii "EMULATION_STATUS") none
  judge (judgeStatus reply)

/-- CORE_INFO for a core that exists. -/
def checkCoreInfo (core platform : Bytes) : Validator Unit := do
  judge (Judging.newCheck (ascii "Mandatory CORE_INFO")
    (ascii "Testing the mandatory CORE_INFO command"))
  let reply ← ask (ascii "CORE_INFO") (some core)
  judge (judgeCoreInfo core platform reply)

/-- CORE_INFO for a core that does not exist. -/
def checkInvalidCore : Validator Unit := do
  judge (Judging.newCheck (ascii "Mandatory CORE_INFO with invalid core name")
    (ascii ("Test if the CORE_INFo command return properly an error when given a uncorrect core "
      ++ "name")))
  let reply ← ask (ascii "CORE_INFO") (some (ascii "invalid_core_name"))
  let _ ← judge (Judging.expectError reply .invalidArgument)

/-- MY_NAME_IS. -/
def checkMyName : Validator Unit := do
  judge (Judging.newCheck (ascii "Checking Mandatory MY_NAME_IS command")
    (ascii "Test the MY_NAME_IS command, check if it returns the id"))
  let reply ← ask (ascii "MY_NAME_IS") (some (ascii "NWA validator"))
  judge (judgeMyName reply)

/-- Whether the connection was closed; otherwise it is closed here. This is the only request whose
error is looked at.
-/
def closedBehind : Validator Bool := do
  match ← executeCommand (ascii "EMULATOR_INFO") none with
  | .error error => pure (decide (error.kind = .connectionAborted))
  | .ok _ => do
      close
      pure false

/-- A block where a command is expected. -/
def checkUnexpectedBlock : Validator Unit := do
  judge (Judging.newCheck (ascii "Unexpected binary block")
    (ascii ("Test how the emulator react when giving a binary block when expecting a command, "
      ++ "we expect a protocol error and a closed connection")))
  sendBlock [1, 2, 3]
  let reply ← expectReply (← getReply)
  let _ ← judge (Judging.expectError reply .protocolError)
  let closed ← closedBehind
  judge (Judging.addSubcheck (ascii "The emulator closed the connection")
    (ascii "After a protocol error the emulator should close the connection") closed)

/-- The state is only looked at for a warning. -/
def readState : Validator Bytes := do
  match ← ask (ascii "EMULATION_STATUS") none with
  | .ascii (.hash map) =>
      match map.lookup (ascii "state") with
      | some state => pure state
      | none => panic
  | _ => pure (ascii "no_game")

/-- CORE_MEMORIES, with the memory that the later sections use. -/
def checkMemories : Validator AvailableMemory := do
  judge (Judging.newCheck (ascii "Checking CORE_MEMORIES command")
    (ascii "Checking if CORE_MEMORIES behave correctly"))
  let reply ← ask (ascii "CORE_MEMORIES") none
  judge (judgeMemories reply)

/-- A `CORE_READ` and how its reply is judged. -/
def checkCoreRead (name description argString : Bytes) (expect : EmulatorReply → Judging Bool)
    : Validator Unit := do
  judge (Judging.newCheck name description)
  let reply ← ask (ascii "CORE_READ") (some argString)
  let _ ← judge (expect reply)

/-- A `bCORE_WRITE` of zeros and how its reply is judged. -/
def checkCoreWrite (name description argString : Bytes) (size : Nat)
    (expect : EmulatorReply → Judging Bool)
    : Validator Unit := do
  judge (Judging.newCheck name description)
  executeRaw (ascii "bCORE_WRITE") (some argString)
  sendBlock (List.replicate size 0)
  let reply ← expectReply (← getReply)
  let _ ← judge (expect reply)

/-- A subtraction of `u32`, which panics below zero if overflow is checked, and wraps otherwise. -/
def subtract (overflowChecks : Bool) (left right : Nat) : Validator Nat :=
  if right ≤ left then
    pure (left - right)
  else if overflowChecks then
    panic
  else
    pure (left + 2 ^ 32 - right)

/-- The `CORE_READ` whose size is known only behind its reply. -/
def checkReadBehind (overflowChecks : Bool) (memory : AvailableMemory) : Validator Unit := do
  judge (Judging.newCheck (ascii "CORE_READ, whole memory starting at 20")
    (ascii "Reading whole memory minus 20"))
  let reply ← ask (ascii "CORE_READ") (some (memory.name ++ ascii ";20"))
  let size ← subtract overflowChecks memory.size 20
  let _ ← judge (Judging.expectBinaryBlock reply size)

/-- All reads of a memory. -/
def checkReads (overflowChecks : Bool) (memory : AvailableMemory) : Validator Unit := do
  let name := memory.name
  checkCoreRead (ascii "Basic CORE_READ") (ascii "Reading 5 bytes from one readable memory")
    (name ++ ascii ";0;5") (Judging.expectBinaryBlock · 5)
  checkCoreRead (ascii "Basic CORE_READ, using hexa notation")
    (ascii "Reading 5 bytes from one readable memory with hexanotation")
    (name ++ ascii ";$0;$5") (Judging.expectBinaryBlock · 5)
  checkCoreRead (ascii "CORE_READ, whole memory") (ascii "Reading a whole readable memory")
    name (Judging.expectBinaryBlock · memory.size)
  checkReadBehind overflowChecks memory
  checkCoreRead (ascii "CORE_READ, multiple offset")
    (ascii "Reading multiple offset of a memory, 8;5;25;4;30;1")
    (name ++ ascii ";8;5;25;4;30;1") (Judging.expectBinaryBlock · 10)
  let last ← subtract overflowChecks memory.size 2
  checkCoreRead (ascii "CORE_READ, multiple offset without size")
    (ascii "Reading multiple offset but without specify the size of the last one 20;2;size - 2")
    (name ++ ascii ";20;2;" ++ decimal last) (Judging.expectError · .invalidArgument)

/-- All writes to a memory. -/
def checkWrites (overflowChecks : Bool) (memory : AvailableMemory) : Validator Unit := do
  let name := memory.name
  checkCoreWrite (ascii "Basic bCORE_WRITE")
    (ascii "Write to the first 5 bytes of the available memory")
    (name ++ ascii ";0;5") 5 Judging.expectAsciiOk
  checkCoreWrite (ascii "Basic bCORE_WRITE with hexa notation")
    (ascii "Write to the first 5 bytes of the available memory with $ notation")
    (name ++ ascii ";$0;$5") 5 Judging.expectAsciiOk
  checkCoreWrite (ascii "bCORE_WRITE whole memory")
    (ascii "Write to the whole available memory")
    name memory.size Judging.expectAsciiOk
  checkCoreWrite (ascii "bCORE_WRITE multiple offset")
    (ascii "Writing to multiple location 8;5;25;4;30;1")
    (name ++ ascii ";8;5;25;4;30;1") 10 Judging.expectAsciiOk
  let last ← subtract overflowChecks memory.size 2
  checkCoreWrite (ascii "bCORE_WRITE multiple offset without ending size")
    (ascii "Writing to multiple location 20;2;size-2")
    (name ++ ascii ";20;2;" ++ decimal last) 4 (Judging.expectError · .invalidArgument)

/-- The filter is only tested with a platform; it returns `available_platform`. -/
def checkKnownPlatform (platform : Bytes) : Validator Bytes :=
  if platform ≠ noPlatform then checkCoresListFilter platform else pure platform

/-- CORE_INFO is asked for only if CORES_LIST gave a core. -/
def checkKnownCore (availableCore : Option Bytes) (platform : Bytes) : Validator Unit :=
  match availableCore with
  | some core => checkCoreInfo core platform
  | none => pure ()

/-- What is done with a memory. -/
def checkMemory (overflowChecks : Bool) (memory : AvailableMemory) : Validator Unit :=
  if memory.name ≠ noPlatform then do
    checkReads overflowChecks memory
    checkWrites overflowChecks memory
  else
    pure ()

/-- The memories are asked for only if EMULATOR_INFO lists the command. -/
def checkKnownMemories (overflowChecks : Bool) (availableCommands : List Bytes)
    : Validator Unit :=
  if availableCommands.contains (ascii "CORE_MEMORIES") then do
    let memory ← checkMemories
    checkMemory overflowChecks memory
  else
    pure ()

/-- `main` behind its first check. -/
def checks (overflowChecks : Bool) : Validator Unit := do
  let availableCommands ← checkEmulatorInfo
  let available ← checkCoresList
  let platform ← checkKnownPlatform available.platform
  checkInvalidPlatform
  checkStatus
  checkKnownCore available.core platform
  checkInvalidCore
  checkMyName
  checkUnexpectedBlock
  reconnected
  let _ ← ask (ascii "MY_NAME_IS") (some (ascii "NWA validator"))
  let _ ← readState
  checkKnownMemories overflowChecks availableCommands

end Validator

/-- What the validator meets: the number of addresses of `localhost`, if it can be resolved, what
connecting gives, to the first of them and to `127.0.0.1`, and what connecting again gives.
-/
structure Network where
  addresses : Option Nat
  localhost : Option Socket
  explicit : Option Socket
  again : Option Socket

/-- The first check, in the end. -/
def localhostCheck (passed : Bool) : NWACheck := {
  name := ascii "Address type for localhost"
  description := ascii ("Checking if the emulator listen on the first localhost address. \n"
    ++ "     Meaning if it properly bind on the first one, like in case of ipv6. Note that this "
    ++ "is not specified but should be the right behavior")
  passed
  subChecks := []
}

/-- The program starts with the check of the connection that it opened. -/
def Network.opened (network : Network) (passed : Bool) (socket : Socket) : Session :=
  { socket, again := network.again, checker := ⟨[localhostCheck passed]⟩ }

/-- The first check: it passes if the first address is connected to. -/
def Network.connect (network : Network) : Reaction NetworkCall Halt Session :=
  match network.addresses with
  | none | some 0 => .stop [] (.fails .panics)
  | some (others + 1) =>
      match network.localhost with
      | some socket => .emit [] (network.opened true socket)
      | none =>
          if others + 1 = 2 then
            match network.explicit with
            | some socket => .emit [] (network.opened false socket)
            | none => .stop [] (.fails .panics)
          else
            .stop [] .exits

/-- `main` of the validator. -/
def validatorMain (overflowChecks : Bool) (network : Network) : Reaction NetworkCall Halt Report :=
  do
    let session ← network.connect
    let (_, session) ← Validator.checks overflowChecks session
    pure session.checker.repport

end NetworkAccess
