import NetworkAccess.Server.MemoryArguments
import NetworkAccess.Server.Replies

/-! The dummy emulator: its memories, the process-wide variables of a write, and its tables. Debug
output is on in its build, so the buffer of `hexString` belongs to the model.
-/

namespace NetworkAccess

open Numerals

/-- `dummy_state`. -/
inductive DummyStatus where
  | running
  | paused
  | stopped
deriving DecidableEq, Repr

/-- The memories that a request can name. -/
inductive MemoryName where
  | wram
  | sram
  | cartrom
deriving DecidableEq, Repr

/-- An allocated memory; no object has 2^63 bytes. -/
structure Allocation where
  bytes : Bytes
  fits : bytes.length < 2 ^ 63
deriving DecidableEq

/-- Bytes with others in the place from `offset` on. -/
def overwritten (bytes : Bytes) (offset : Nat) (source : Bytes) : Bytes :=
  bytes.take offset ++ source ++ bytes.drop (offset + source.length)

/-- `memcpy(memory + offset, source, length of source)`, or `none` where it would write behind the
memory.
-/
def Allocation.memcpy (allocation : Allocation) (offset : Nat) (source : Bytes)
    : Option Allocation :=
  if inside : offset + source.length ≤ allocation.bytes.length then
    some {
      bytes := overwritten allocation.bytes offset source
      fits := by
        have fits := allocation.fits
        simp only [overwritten, List.length_append, List.length_take, List.length_drop]
        omega
    }
  else
    none

/-- A `memcpy` into `memory_to_write`, which may be `NULL`, on behalf of a socket. -/
structure MemoryCopy where
  socket : SOCKET
  memory : Option MemoryName
  offset : Nat
  data : Bytes
deriving DecidableEq

/-- The variables of the program. `sent` and `copies` record its calls of `write` and `memcpy`, and
`undefined` that it has left its defined behaviour.
-/
structure Dummy where
  dummyState : DummyStatus
  romPath : Bytes
  memory : MemoryName → Allocation
  memoryToWrite : Option MemoryName
  offsetToWrite : Nat
  sizeWritten : Nat
  sizeToWrite : Nat
  sizeHeaderGet : Bool
  sent : List (SOCKET × Bytes)
  copies : List MemoryCopy
  undefined : Bool

/-- The program after it has loaded its memories. -/
def Dummy.start (romPath : Bytes) (memory : MemoryName → Allocation) : Dummy := {
  dummyState := .running
  romPath
  memory
  memoryToWrite := none
  offsetToWrite := 0
  sizeWritten := 0
  sizeToWrite := 0
  sizeHeaderGet := false
  sent := []
  copies := []
  undefined := false
}

/-- A `write` on a socket, which is recorded. -/
def Dummy.write (socket : SOCKET) (buffer : Bytes) (dummy : Dummy) : Dummy :=
  { dummy with sent := dummy.sent ++ [(socket, buffer)] }

/-- Undefined behaviour: what follows says nothing about the program. -/
def Dummy.leave (dummy : Dummy) : Dummy := { dummy with undefined := true }

-----------------------------------------------------------------------------------------
-- Arguments
-----------------------------------------------------------------------------------------

/-- `atoi`, the conversion of a `long` to `int`. -/
def atoi (text : Bytes) : Int := (strtoll (cString text) + 2 ^ 31) % 2 ^ 32 - 2 ^ 31

/-- The comparisons with the names of the memories. -/
def memoryNamed (text : Bytes) : Option MemoryName :=
  let name := cString text
  if name = ascii "WRAM" then some .wram
  else if name = ascii "SRAM" then some .sram
  else if name = ascii "CARTROM" then some .cartrom
  else none

/-- `hexString` allocates `size * 3 + 1` bytes, computed in an `unsigned int`. -/
def HexStringFits (size : Nat) : Prop := size * 3 + 1 < 2 ^ 32

instance : DecidablePred HexStringFits :=
  fun size => inferInstanceAs (Decidable (size * 3 + 1 < 2 ^ 32))

-----------------------------------------------------------------------------------------
-- Commands without memory
-----------------------------------------------------------------------------------------

/-- A reply with these texts, and the result 0. -/
def replyHash (pairs : List (String × Bytes)) (socket : SOCKET) (dummy : Dummy) : Int × Dummy :=
  let pairs := pairs.map (fun pair => (ascii pair.1, pair.2))
  (0, sendFullHashReply Dummy.write socket pairs dummy)

/-- `dummy_emu_info`. -/
def dummyEmuInfo : Handler Dummy := fun socket _ =>
  replyHash
    [
      ("name", ascii "Dummy emulator"),
      ("version", ascii "0.1"),
      ("id", ascii "I am dumb"),
      ("nwa_version", ascii "1.0"),
      ("commands", ascii ("EMULATOR_INFO,EMULATION_STATUS,GAME_INFO,CORES_LIST,CORE_CURRENT_INFO,"
        ++ "CORE_INFO,EMULATION_PAUSE,EMULATION_RESUME,EMULATION_RESET,EMULATION_STOP"))
    ]
    socket

/-- `dummy_emu_status`. -/
def dummyEmuStatus : Handler Dummy := fun socket _ dummy =>
  let status :=
    match dummy.dummyState with
    | .running => ascii "state:running"
    | .paused => ascii "state:paused"
    | .stopped => ascii "state:stopped"
  let dummy := Dummy.write socket (ascii "\n") dummy
  let dummy := Dummy.write socket status dummy
  (0, Dummy.write socket (ascii "\ngame:Dummy game\n\n") dummy)

/-- `dummy_emu_pause`. -/
def dummyEmuPause : Handler Dummy := fun _ _ dummy => (0, { dummy with dummyState := .paused })

/-- `dummy_emu_stop`. -/
def dummyEmuStop : Handler Dummy := fun _ _ dummy => (0, { dummy with dummyState := .stopped })

/-- `dummy_emu_resume`. -/
def dummyEmuResume : Handler Dummy := fun _ _ dummy => (0, { dummy with dummyState := .running })

/-- `dummy_np`, and what all handlers of commands that the dummy does not act on do. -/
def dummyNp : Handler Dummy := fun _ _ dummy => (0, dummy)

/-- `dummy_emu_reset`. -/
@[simp] def dummyEmuReset : Handler Dummy := dummyNp

/-- `dummy_emu_reload`. -/
@[simp] def dummyEmuReload : Handler Dummy := dummyNp

/-- `dummy_load_game`. -/
@[simp] def dummyLoadGame : Handler Dummy := dummyNp

/-- `dummy_core_load`. -/
@[simp] def dummyCoreLoad : Handler Dummy := dummyNp

/-- `dummy_load_state`. -/
@[simp] def dummyLoadState : Handler Dummy := dummyNp

/-- `dummy_save_state`. -/
@[simp] def dummySaveState : Handler Dummy := dummyNp

/-- `dummy_game_info`. -/
def dummyGameInfo : Handler Dummy := fun socket _ dummy =>
  replyHash
    [("name", ascii "Dummy Game"), ("file", dummy.romPath), ("region", ascii "EU")] socket dummy

/-- `dummy_cores_list`. -/
def dummyCoresList : Handler Dummy := fun socket _ =>
  replyHash
    [("platform", ascii "SNES"), ("name", ascii "dummy core"), ("version", ascii "0.1")] socket

/-- `dummy_core_info`. -/
@[simp] def dummyCoreInfo : Handler Dummy := dummyCoresList

/-- `dummy_core_current_info`. -/
@[simp] def dummyCoreCurrentInfo : Handler Dummy := dummyCoresList

/-- `dummy_core_memories`. -/
def dummyCoreMemories : Handler Dummy := fun socket _ =>
  replyHash
    [
      ("name", ascii "WRAM"), ("access", ascii "rw"),
      ("name", ascii "SRAM"), ("access", ascii "rw"),
      ("name", ascii "CARTROM"), ("access", ascii "rw")
    ]
    socket

-----------------------------------------------------------------------------------------
-- Memory
-----------------------------------------------------------------------------------------

/-- The bytes at `ptr + offset`, unless they are not all in the memory. -/
def Dummy.load (dummy : Dummy) (ptr : Option MemoryName) (offset size : Nat) : Option Bytes :=
  if size = 0 then
    some []
  else
    match ptr with
    | none => none
    | some name =>
        let bytes := (dummy.memory name).bytes
        if offset + size ≤ bytes.length then some ((bytes.drop offset).take size) else none

/-- `dummy_core_memory_read`, which reads three arguments however many there are. -/
def dummyCoreMemoryRead : Handler Dummy := fun socket args dummy =>
  match args with
  | name :: offset :: size :: _ =>
      let ptr := memoryNamed name
      let size := toUnsigned (atoi size)
      let dummy := Dummy.write socket [0] dummy
      let dummy := Dummy.write socket (htonl size) dummy
      match dummy.load ptr (getOffset offset) size with
      | none => (0, dummy.leave)
      | some data =>
          if HexStringFits size then (0, Dummy.write socket data dummy) else (0, dummy.leave)
  | _ => (0, dummy.leave)

/-- An unknown name leaves `memory_to_write` as it is. -/
def dummyCoreMemoryWrite : Handler Dummy := fun _ args dummy =>
  match args with
  | name :: offset :: rest =>
      let memoryToWrite := (memoryNamed name).or dummy.memoryToWrite
      let sizeToWrite : Nat :=
        match rest with
        | [size] => toUnsigned (atoi size)
        | _ => 0
      (
        sizeToWrite,
        {
          dummy with
          memoryToWrite
          offsetToWrite := getOffset offset
          sizeToWrite
          sizeWritten := 0
        }
      )
  | _ => (0, dummy.leave)

/-- `ntohl` of the four bytes at `data`. -/
def ntohl (data : Bytes) : Nat :=
  (data.take 4).foldl (fun size byte => size * 256 + byte.toNat) 0

/-- `write_to_memory` behind its header: `memcpy`, and the reply once everything is written. -/
def Dummy.copyToMemory (socket : SOCKET) (data : Bytes) (dummy : Dummy) : Dummy :=
  if data = [] then
    dummy
  else
    let copy := ⟨socket, dummy.memoryToWrite, dummy.offsetToWrite, data⟩
    let dummy := { dummy with copies := dummy.copies ++ [copy] }
    match dummy.memoryToWrite with
    | none => dummy.leave
    | some name =>
        match (dummy.memory name).memcpy dummy.offsetToWrite data with
        | none => dummy.leave
        | some written =>
            let dummy := {
              dummy with
              memory := fun other => if other = name then written else dummy.memory other
              sizeWritten := (dummy.sizeWritten + data.length) % 2 ^ 32
            }
            if dummy.sizeWritten = dummy.sizeToWrite then
              let dummy := {
                dummy with
                sizeToWrite := 0
                sizeWritten := 0
                offsetToWrite := 0
                memoryToWrite := none
                sizeHeaderGet := false
              }
              Dummy.write socket (ascii "\n\n") dummy
            else
              dummy

/-- `write_to_memory`. -/
def writeToMemory (socket : SOCKET) (data : Bytes) (dummy : Dummy) : Bool × Dummy :=
  if ¬ HexStringFits data.length then
    (false, dummy.leave)
  else if dummy.sizeHeaderGet = false then
    if data.length < 4 then
      (false, dummy.leave)
    else
      let dummy := { dummy with sizeToWrite := ntohl data, sizeHeaderGet := true }
      (false, dummy.copyToMemory socket (data.drop 4))
  else
    (false, dummy.copyToMemory socket data)

/-- The dummy has no table of custom commands. -/
def Dummy.host : Host Dummy := {
  genericMap := [
    ⟨.emulatorInfo, dummyEmuInfo⟩,
    ⟨.emulationStatus, dummyEmuStatus⟩,
    ⟨.emulationPause, dummyEmuPause⟩,
    ⟨.emulationStop, dummyEmuStop⟩,
    ⟨.emulationReset, dummyEmuReset⟩,
    ⟨.emulationResume, dummyEmuResume⟩,
    ⟨.emulationReload, dummyEmuReload⟩,
    ⟨.loadGame, dummyLoadGame⟩,
    ⟨.gameInfo, dummyGameInfo⟩,
    ⟨.coresList, dummyCoresList⟩,
    ⟨.coreInfo, dummyCoreInfo⟩,
    ⟨.coreCurrentInfo, dummyCoreCurrentInfo⟩,
    ⟨.loadCore, dummyCoreLoad⟩,
    ⟨.coreMemories, dummyCoreMemories⟩,
    ⟨.coreRead, dummyCoreMemoryRead⟩,
    ⟨.bCoreWrite, dummyCoreMemoryWrite⟩,
    ⟨.debugBreak, dummyNp⟩,
    ⟨.debugContinue, dummyNp⟩,
    ⟨.loadState, dummyLoadState⟩,
    ⟨.saveState, dummySaveState⟩
  ]
  customMap := []
  writeFunction := writeToMemory
  write := Dummy.write
}

end NetworkAccess
