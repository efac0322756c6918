import NetworkAccess.Library.WhileLoop
import NetworkAccess.Server.Commands

/-! `preprocess_data`: the state machine that turns the bytes of each read into command
lines and binary blocks, one iteration of its outer loop at a time.
-/

namespace NetworkAccess

variable {Emulator : Type}

/-- `isalnum` of the C locale; bytes from 128 on are not alphanumeric. -/
def isAlnum (letter : UInt8) : Bool :=
  (48 ≤ letter && letter ≤ 57) || (65 ≤ letter && letter ≤ 90) || (97 ≤ letter && letter ≤ 122)

/-- `!`. -/
def exclamation : UInt8 := 33

/-- `b`. -/
def lowerB : UInt8 := 98

/-- The test that lets a byte begin a command. -/
def startsCommand (letter : UInt8) : Bool := letter == exclamation || isAlnum letter

/-- `ntohl` of the four header bytes behind the leading zero. -/
def networkSize (header : Bytes) : Nat :=
  (header.drop 1).foldl (fun size byte => size * 256 + byte.toNat) 0

/-- Refuse the input: `send_error` with `protocol_error`, then `return false`. -/
def refuse (host : Host Emulator) (config : Config Emulator) (reason : Bytes)
    : Turn Emulator (Config Emulator) := do
  let emulator ← sendError host config.client.socketFd .protocolError reason config.emulator
  .stop [] ⟨.rejected, { config with emulator }⟩

/-- A block is handed over only if the current command is `bCORE_WRITE`; for every other
command nothing changes, the state included.
-/
def processBinaryBlock (host : Host Emulator) (config : Config Emulator)
    : Turn Emulator (Config Emulator) :=
  let client := config.client
  if client.currentCommand = EmulatorCommand.bCoreWrite.value then
    let data := ((client.binaryBlock.map Block.bytes).getD []).take client.binaryBlockSize
    let (_, emulator) := host.writeFunction client.socketFd data config.emulator
    let client := {
      client with
      binaryBlock := none
      binaryBlockSize := 0
      binaryHeaderSize := 0
      expectedBlockSize := 0
      state := .waitingForCommand
    }
    .emit [.blockWritten client.socketFd data, .blockReleased client.socketFd]
      { config with client, emulator }
  else
    pure config

/-- The header loop: bytes go into `binary_header` until it has five. -/
def fillHeader (client : Client) : Bytes → Client × Bytes
  | [] => (client, [])
  | byte :: rest =>
      if room : client.binaryHeaderSize < 5 then
        fillHeader
          {
            client with
            binaryHeader := client.binaryHeader.set client.binaryHeaderSize byte room
            binaryHeaderSize := client.binaryHeaderSize + 1
          }
          rest
      else
        (client, byte :: rest)

/-- A complete block: deliver it or, when it is to be swallowed, drop it. -/
def finishBlock (host : Host Emulator) (config : Config Emulator)
    : Turn Emulator (Config Emulator) := do
  let config ←
    if config.client.shallowBinaryBlock then
      let client := {
        config.client with
        binaryBlock := none
        binaryBlockSize := 0
        binaryBlockDefinedSize := 0
        state := .waitingForCommand
      }
      Reaction.emit [.blockReleased client.socketFd] { config with client }
    else
      processBinaryBlock host config
  pure { config with client := { config.client with shallowBinaryBlock := false } }

/-- Once the header is there, copy what the read has; the copy size is bounded by the
declared size alone.
-/
def copyBlock (host : Host Emulator) (config : Config Emulator)
    : Turn Emulator (Config Emulator) :=
  let client := config.client
  if client.binaryHeaderSize = 5 ∧ config.unread ≠ [] then
    let copySize := min config.unread.length client.binaryBlockDefinedSize
    let source := config.unread.take copySize
    match client.binaryBlock.bind (fun block => block.memcpy client.binaryBlockSize source) with
    | none => .stop [] ⟨.undefined .blockOverflow, config⟩
    | some block =>
        let client := {
          client with
          binaryBlock := some block
          binaryBlockSize := client.binaryBlockSize + copySize
        }
        let config := { config with client, unread := config.unread.drop copySize }
        if client.binaryBlockSize = client.binaryBlockDefinedSize then
          finishBlock host config
        else
          pure config
  else
    pure config

/-- The part of an iteration in `GETTING_BINARY_DATA`. -/
def gettingBinaryData (host : Host Emulator) (config : Config Emulator)
    : Turn Emulator (Config Emulator) :=
  if config.client.binaryHeaderSize < 5 then
    let (client, unread) := fillHeader config.client config.unread
    let config := { config with client, unread }
    if client.binaryHeaderSize = 5 then do
      let size := networkSize client.binaryHeader.toList
      let client := {
        client with
        binaryBlockDefinedSize := size
        binaryBlock := some (Block.malloc size)
        binaryBlockSize := 0
      }
      let config ← Reaction.emit [.blockAllocated client.socketFd size] { config with client }
      if ¬ (size = client.expectedBlockSize ∨ client.expectedBlockSize = 0) then
        refuse host config (ascii "Binary block size does not match expected size")
      else
        copyBlock host config
    else
      copyBlock host config
  else
    copyBlock host config

-----------------------------------------------------------------------------------------
-- Command lines
-----------------------------------------------------------------------------------------

/-- The newline of a line was stored: the line is processed, and a line that begins with
`b` expects binary data.
-/
def finishLine (host : Host Emulator) (config : Config Emulator)
    : Turn Emulator (Config Emulator) := do
  let client := config.client
  let client := { client with commandDataSize := client.commandDataPos }
  let client :=
    if client.commandData.head = lowerB then
      { client with state := .expectingBinaryData }
    else
      client
  let config ← processCommand host { config with client }
  pure {
    config with
    client := { config.client with commandDataPos := 0, commandDataSize := 0 }
  }

/-- The `for` loop of `GETTING_COMMAND`: bytes go into `command_data` until a newline
completes the line.
-/
def getCommand (host : Host Emulator) (client : Client) (emulator : Emulator)
    : Bytes → Turn Emulator (Config Emulator)
  | [] => pure ⟨client, [], emulator⟩
  | byte :: rest =>
      if room : client.commandDataPos < 2048 then
        let client := {
          client with
          commandData := client.commandData.set client.commandDataPos byte room
          commandDataPos := client.commandDataPos + 1
        }
        if byte = newline then
          finishLine host ⟨client, rest, emulator⟩
        else
          getCommand host client emulator rest
      else
        .stop [] ⟨.undefined .commandOverflow, ⟨client, byte :: rest, emulator⟩⟩

-----------------------------------------------------------------------------------------
-- The outer loop
-----------------------------------------------------------------------------------------

/-- The condition of the outer loop. Reads are never empty, so `read_pos == 0` adds
nothing to `read_pos < readed_size`.
-/
def Config.running (config : Config Emulator) : Prop := config.unread ≠ []

instance : DecidablePred (Config.running : Config Emulator → Prop) :=
  fun config => inferInstanceAs (Decidable (config.unread ≠ []))

/-- One iteration of the outer loop. The C `if`s stand in sequence, but a block step that
does not `continue` leaves the client in `GETTING_BINARY_DATA`, which the later ones skip.
-/
def iteration (host : Host Emulator) (config : Config Emulator)
    : Turn Emulator (Config Emulator) :=
  let client := config.client
  let first := config.unread.headD 0
  match client.state with
  | .expectingBinaryData =>
      let client := {
        client with
        state := .gettingBinaryData
        binaryHeaderSize := 0
        binaryHeader := Vector.replicate 5 0
      }
      if first ≠ 0 then
        refuse host { config with client } (ascii "Sending invalid binary data block")
      else
        gettingBinaryData host { config with client }
  | .gettingBinaryData => gettingBinaryData host config
  | .waitingForCommand =>
      if startsCommand first then
        getCommand host { client with state := .gettingCommand } config.emulator config.unread
      else
        refuse host config (ascii "Expecting a command or a signal registration")
  | .gettingCommand => getCommand host client config.emulator config.unread

/-- Unread bytes count twice, and leaving `GETTING_BINARY_DATA` counts once. -/
def Config.work (config : Config Emulator) : Nat :=
  2 * config.unread.length + if config.client.state = .gettingBinaryData then 1 else 0

/-- What a number of iterations does; `spinning` reports that they were not enough. -/
def preprocessLoop (host : Host Emulator) (fuel : Nat) (config : Config Emulator)
    : Turn Emulator (Config Emulator) :=
  Reaction.runWhile (iteration host) Config.running (fun config => ⟨.spinning, config⟩)
    fuel config

/-- Where `preprocess_data` enters its loop after `readed_data` was filled by a read. -/
def Config.enter (client : Client) (emulator : Emulator) (read : ClientRead)
    : Config Emulator :=
  ⟨{ client with readedData := read.bytes }, read.bytes, emulator⟩

/-- `preprocess_data`. The fuel exceeds `Config.work`, so running out of it means that the
loop never ends (`preprocessData_decides`).
-/
def preprocessData (host : Host Emulator) (config : Config Emulator)
    : Turn Emulator (Config Emulator) :=
  preprocessLoop host (config.work + 1) config

/-- One read of a connection: the client and the emulator between two reads. -/
def feedRead (host : Host Emulator) (state : Client × Emulator) (read : ClientRead)
    : Turn Emulator (Client × Emulator) := do
  let config ← preprocessData host (Config.enter state.1 state.2 read)
  pure (config.client, config.emulator)

/-- Successive reads of a connection; reads after an end are dropped. -/
def feedReads (host : Host Emulator) (state : Client × Emulator) (reads : List ClientRead)
    : Turn Emulator (Client × Emulator) :=
  reads.foldlM (feedRead host) state

end NetworkAccess
