import NetworkAccess.Library.Reaction
import NetworkAccess.Protocol.Defines

/-! The state a server keeps for one connection, what it needs from the emulator that
embeds it, and what can be observed of its work.
-/

namespace NetworkAccess

/-- A socket descriptor; the C type `SOCKET` is `int`. -/
abbrev SOCKET := Int

/-- `generic_poll_server_client_state`. -/
inductive ClientState where
  | waitingForCommand
  | gettingCommand
  | expectingBinaryData
  | gettingBinaryData
deriving DecidableEq, Repr

/-- A heap buffer for a binary block: `size` bytes were allocated, and `bytes` is the part
of it that has been filled. The buffer cannot hold more than was allocated.
-/
structure Block where
  size : Nat
  bytes : Bytes
  fits : bytes.length ≤ size
deriving DecidableEq

/-- A successful `malloc(size)`; the buffer holds nothing that may be read yet. -/
def Block.malloc (size : Nat) : Block := ⟨size, [], Nat.zero_le _⟩

/-- `memcpy(block + offset, source, length of source)`, or `none` where it would write
behind the allocated bytes.
-/
def Block.memcpy (block : Block) (offset : Nat) (source : Bytes) : Option Block :=
  if inside : offset + source.length ≤ block.size then
    some {
      size := block.size
      bytes :=
        block.bytes.take offset ++ source ++ block.bytes.drop (offset + source.length)
      fits := by
        have fits := block.fits
        simp only [List.length_append, List.length_take, List.length_drop]
        omega
    }
  else
    none

/-- A slot of the server's `clients` array. `readed_data` is kept as the bytes of the last
read, so its length is `readed_size`.
-/
structure Client where
  socketFd : SOCKET
  readedData : Bytes
  commandData : Vector UInt8 2048
  commandDataSize : Nat
  commandDataPos : Nat
  shallowBinaryBlock : Bool
  state : ClientState
  currentCommand : Nat
  binaryHeader : Vector UInt8 5
  binaryHeaderSize : Nat
  binaryBlock : Option Block
  binaryBlockDefinedSize : Nat
  binaryBlockSize : Nat
  expectedBlockSize : Nat
deriving DecidableEq

/-- The command buffer has a first byte. -/
theorem commandData_pos : 0 < 2048 := by decide

/-- The arrays `command_data` and `binary_header` have a first byte. -/
instance commandData_neZero : NeZero 2048 := ⟨Nat.ne_of_gt commandData_pos⟩
instance binaryHeader_neZero : NeZero 5 := ⟨by decide⟩

/-- A slot of the zero-initialised static array. -/
def Client.zero : Client := {
  socketFd := 0
  readedData := []
  commandData := Vector.replicate 2048 0
  commandDataSize := 0
  commandDataPos := 0
  shallowBinaryBlock := false
  state := .waitingForCommand
  currentCommand := 0
  binaryHeader := Vector.replicate 5 0
  binaryHeaderSize := 0
  binaryBlock := none
  binaryBlockDefinedSize := 0
  binaryBlockSize := 0
  expectedBlockSize := 0
}

/-- The slot after `add_to_clients` has chosen it for `fd`. The fields that are not named
keep what an earlier connection left in them.
-/
def Client.add (slot : Client) (fd : SOCKET) : Client := {
  slot with
  socketFd := fd
  commandData := slot.commandData.set 0 0 commandData_pos
  commandDataSize := 0
  commandDataPos := 0
  state := .waitingForCommand
  binaryBlockSize := 0
  binaryBlock := none
  binaryHeaderSize := 0
  shallowBinaryBlock := false
}

/-- The slot after `remove_client` has freed it. -/
def Client.remove (slot : Client) : Client := {
  slot with
  binaryBlock := none
  socketFd := 0
}

/-- The bytes of a successful `read(fd, buff, 2048)`. -/
structure ClientRead where
  bytes : Bytes
  nonempty : bytes ≠ []
  fits : bytes.length ≤ 2048
deriving DecidableEq

-----------------------------------------------------------------------------------------
-- The embedding emulator
-----------------------------------------------------------------------------------------

/-- A command handler: socket, arguments and emulator state to the returned expected size
and the emulator state it leaves.
-/
abbrev Handler (Emulator : Type) := SOCKET → List Bytes → Emulator → Int × Emulator

/-- An entry of `generic_emu_mwa_map`. -/
structure GenericEntry (Emulator : Type) where
  command : EmulatorCommand
  function : Handler Emulator

/-- An entry of `custom_emu_nwa_map`; its name is a C string. -/
structure CustomEntry (Emulator : Type) where
  string : Bytes
  nulFree : (0 : UInt8) ∉ string
  function : Handler Emulator

/-- What the embedding program supplies: its command maps, the function that receives
binary blocks, and the effect of the `write` system call on a socket.
-/
structure Host (Emulator : Type) where
  genericMap : List (GenericEntry Emulator)
  customMap : List (CustomEntry Emulator)
  writeFunction : SOCKET → Bytes → Emulator → Bool × Emulator
  write : SOCKET → Bytes → Emulator → Emulator

/-- An embedding program without state of its own, whose builtin handlers return fixed
values.
-/
def Host.fixed (results : List (EmulatorCommand × Int)) : Host Unit := {
  genericMap := results.map (fun (command, result) => ⟨command, fun _ _ _ => (result, ())⟩)
  customMap := []
  writeFunction := fun _ _ _ => (true, ())
  write := fun _ _ _ => ()
}

/-- The table entry whose function runs a command. -/
inductive Target where
  | generic (command : EmulatorCommand)
  | custom (index : Nat)
deriving DecidableEq, Repr

/-- What the server does for a socket, in the order in which it does it. -/
inductive Event where
  | command (socket : SOCKET) (name : Bytes) (args : List Bytes)
  | handled (socket : SOCKET) (target : Target) (args : List Bytes) (result : Int)
  | errorReply (socket : SOCKET) (errorType : ErrorType) (reason : Bytes)
  | blockAllocated (socket : SOCKET) (size : Nat)
  | blockWritten (socket : SOCKET) (block : Bytes)
  | blockReleased (socket : SOCKET)
  | accepted (socket : SOCKET)
  | closed (socket : SOCKET)
  | clientAdded (socket : SOCKET)
  | clientRemoved (socket : SOCKET)
deriving DecidableEq, Repr

/-- The connection that an event is about. -/
def Event.socket : Event → SOCKET
  | .command socket _ _
  | .handled socket _ _ _
  | .errorReply socket _ _
  | .blockAllocated socket _
  | .blockWritten socket _
  | .blockReleased socket
  | .accepted socket
  | .closed socket
  | .clientAdded socket
  | .clientRemoved socket => socket

/-- A command line that was dispatched. -/
def Event.isCommand : Event → Bool
  | .command _ _ _ => true
  | _ => false

/-- A call of the write function. -/
def Event.isWrite : Event → Bool
  | .blockWritten _ _ => true
  | _ => false

/-- Ways in which the C program leaves its defined behaviour. -/
inductive Fault where
  | commandOverflow
  | blockOverflow
  | argumentCount
  | argumentLength
  | unterminatedLine
  | nullClient
  | pollOverflow
deriving DecidableEq, Repr

/-- Why no further byte of a connection is processed: the server refused its input, it
reached undefined behaviour, or its loop never ends.
-/
inductive Ending where
  | rejected
  | undefined (fault : Fault)
  | spinning
deriving DecidableEq, Repr

/-- A point inside `preprocess_data`. The bytes of `readed_data` from `read_pos` on stand
for `read_pos` itself.
-/
structure Config (Emulator : Type) where
  client : Client
  unread : Bytes
  emulator : Emulator

/-- Where and why processing ended. -/
structure Stopped (Emulator : Type) where
  ending : Ending
  config : Config Emulator

/-- The reactions of the server's functions. -/
abbrev Turn (Emulator State : Type) := Reaction Event (Stopped Emulator) State

end NetworkAccess
