import NetworkAccess.Parser.ByteParser

/-! A client slot seen as a byte reader: the representation invariant that the slot keeps
between iterations, and the reader that a slot stands for.
-/

namespace NetworkAccess

variable {Emulator : Type}

/-- The part of the current line that has been stored. -/
def Client.partialLine (client : Client) : Bytes :=
  client.commandData.toList.take client.commandDataPos

/-- The header bytes that have been stored. -/
def Client.partialHeader (client : Client) : Bytes :=
  client.binaryHeader.toList.take client.binaryHeaderSize

/-- The bytes of the current block that have been copied. -/
def Client.blockData (client : Client) : Bytes :=
  (client.binaryBlock.map Block.bytes).getD []

/-- The current block goes to the write function or is dropped once it is complete. -/
def Client.deliverable (client : Client) : Prop :=
  client.shallowBinaryBlock = true
  ∨ client.currentCommand = EmulatorCommand.bCoreWrite.value

instance (client : Client) : Decidable client.deliverable :=
  inferInstanceAs (Decidable (_ ∨ _))

/-- A line that is being stored: it fits the buffer, holds no newline and begins like a
command.
-/
structure Client.LineStored (client : Client) : Prop where
  fits : client.commandDataPos ≤ 2048
  starts : ∀ letter, client.partialLine.head? = some letter → startsCommand letter
  open_ : newline ∉ client.partialLine
  noBlock : client.binaryBlock = none
  noSwallow : client.shallowBinaryBlock = false

/-- A header that is being stored, or a block that is being filled. -/
structure Client.BlockStored (client : Client) : Prop where
  noLine : client.commandDataPos = 0
  started : client.partialHeader.head? = some 0
  header : client.binaryHeaderSize ≤ 5
  noBlock : client.binaryHeaderSize < 5 → client.binaryBlock = none
  block
    : client.binaryHeaderSize = 5
      → ∃ block,
          client.binaryBlock = some block
          ∧ block.size = client.binaryBlockDefinedSize
          ∧ block.bytes.length = client.binaryBlockSize
  agreed
    : client.binaryHeaderSize = 5
      → client.binaryBlockDefinedSize = client.expectedBlockSize ∨ client.expectedBlockSize = 0

/-- The representation invariant of a slot between two iterations. -/
structure Client.WellFormed (client : Client) : Prop where
  waiting
    : client.state = .waitingForCommand
      → client.commandDataPos = 0
        ∧ client.binaryBlock = none
        ∧ client.shallowBinaryBlock = false
  line
    : client.state = .gettingCommand
      → 0 < client.commandDataPos ∧ client.LineStored
  expecting
    : client.state = .expectingBinaryData
      → client.commandDataPos = 0
        ∧ client.commandData.head = lowerB
        ∧ client.binaryHeaderSize = 0
        ∧ client.binaryBlock = none
  block : client.state = .gettingBinaryData → client.BlockStored

/-- A slot that was just given to a connection satisfies the invariant, whatever it holds
from earlier ones.
-/
theorem Client.wellFormed_add (slot : Client) (fd : SOCKET) : (slot.add fd).WellFormed where
  waiting := fun _ => ⟨rfl, rfl, rfl⟩
  line := nofun
  expecting := nofun
  block := nofun

/-- The bytes of the last read are no part of the invariant. -/
theorem Client.WellFormed.read {client : Client} (wellFormed : client.WellFormed)
    (bytes : Bytes)
    : { client with readedData := bytes : Client }.WellFormed where
  waiting := wellFormed.waiting
  line := fun state =>
    ⟨(wellFormed.line state).1, { (wellFormed.line state).2 with }⟩
  expecting := wellFormed.expecting
  block := fun state => { wellFormed.block state with }

/-- What the command has left for the block: whether to swallow it, and its expected size. -/
def Client.ticket (client : Client) : Ticket :=
  ⟨client.shallowBinaryBlock, client.expectedBlockSize⟩

/-- The phase of the reader that a slot stands for. -/
def Client.phase (client : Client) : Phase :=
  match client.state with
  | .waitingForCommand => .idle
  | .gettingCommand => .line client.partialLine
  | .expectingBinaryData => .expecting client.ticket
  | .gettingBinaryData =>
      if client.binaryHeaderSize < 5 then
        .header client.ticket client.partialHeader
      else
        .block client.ticket client.binaryBlockDefinedSize client.blockData

/-- The reader that a slot stands for. -/
def Client.parser (client : Client) : Parser := {
  socket := client.socketFd
  phase := client.phase
  writes := client.currentCommand = EmulatorCommand.bCoreWrite.value
}

/-- A block can be finished for the slot exactly if it can for the reader. -/
theorem Client.deliverable_iff (client : Client)
    : client.deliverable ↔ client.ticket.swallow ∨ client.parser.writes :=
  or_congr Iff.rfl decide_eq_true_iff.symm

/-- Only a slot that waits for a command stands for a reader between two requests. -/
theorem Client.waiting_of_idle (client : Client) (idle : client.parser.phase = .idle)
    : client.state = .waitingForCommand := by
  simp only [parser, phase] at idle
  split at idle
  case h_1 state => exact state
  case h_4 => split at idle <;> cases idle
  all_goals cases idle

end NetworkAccess
