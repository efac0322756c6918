import NetworkAccess.Parser.ClientView

/-! What one iteration of `preprocess_data` can do, once for all later proofs: the inner
loops in closed form, and the complete list of cases of an iteration.
-/

namespace NetworkAccess

variable {Emulator : Type}

/-- The unread bytes of the current line, its newline included. -/
def lineBytes : Bytes → Bytes
  | [] => []
  | byte :: rest => if byte = newline then [byte] else byte :: lineBytes rest

/-- Bytes without a newline are all of the line. -/
theorem lineBytes_open {bytes : Bytes} (open_ : newline ∉ bytes) : lineBytes bytes = bytes := by
  induction bytes with
  | nil => rfl
  | cons byte rest ih =>
      rw [List.mem_cons, not_or] at open_
      rw [lineBytes, if_neg (Ne.symm open_.1), ih open_.2]

/-- A line ends with its first newline. -/
theorem lineBytes_complete {line : Bytes} (rest : Bytes) (open_ : newline ∉ line)
    : lineBytes (line ++ newline :: rest) = line ++ [newline] := by
  induction line with
  | nil => rfl
  | cons byte tail ih =>
      rw [List.mem_cons, not_or] at open_
      rw [List.cons_append, lineBytes, if_neg (Ne.symm open_.1), ih open_.2, List.cons_append]

/-- A part of the unread bytes with no newline before its last byte is in the line. -/
theorem length_le_lineBytes {line : Bytes} (rest : Bytes) (open_ : newline ∉ line.dropLast)
    : line.length ≤ (lineBytes (line ++ rest)).length := by
  induction line with
  | nil => exact Nat.zero_le _
  | cons byte tail ih =>
      rw [List.cons_append, lineBytes, List.length_cons]
      by_cases last : tail = []
      · subst last
        split <;> simp
      · rw [List.dropLast_cons_of_ne_nil last, List.mem_cons, not_or] at open_
        rw [if_neg (Ne.symm open_.1), List.length_cons]
        exact Nat.succ_le_succ (ih open_.2)

/-- Storing the next letter of an array extends its filled prefix. -/
theorem take_set_succ {size : Nat} (letters : Vector UInt8 size) (position : Nat)
    (letter : UInt8) (room : position < size)
    : (letters.set position letter room).toList.take (position + 1)
      = letters.toList.take position ++ [letter] := by
  have short : (letters.toList.take position).length ≤ position :=
    List.length_take_le _ _
  simp [Vector.toList_set, List.take_add_one, List.take_set, room,
    List.set_eq_of_length_le short]

/-- Bytes without a newline are stored behind the partial line, and the loop goes on behind them:
by induction on these bytes.
-/
theorem getCommand_append (host : Host Emulator) (client : Client) (emulator : Emulator)
    (bytes : Bytes) (open_ : newline ∉ bytes)
    (fits : client.commandDataPos + bytes.length ≤ 2048)
    : ∃ data : Vector UInt8 2048,
        data.toList.take (client.commandDataPos + bytes.length)
          = client.partialLine ++ bytes
        ∧ ∀ rest,
            getCommand host client emulator (bytes ++ rest)
            = getCommand host
                {
                  client with
                  commandData := data
                  commandDataPos := client.commandDataPos + bytes.length
                }
                emulator rest := by
  induction bytes generalizing client with
  | nil => exact ⟨client.commandData, by simp [Client.partialLine], fun _ => rfl⟩
  | cons byte tail ih =>
      rw [List.length_cons] at fits
      have room : client.commandDataPos < 2048 := by omega
      simp only [List.mem_cons, not_or] at open_
      obtain ⟨data, stored, run⟩ := ih
        {
          client with
          commandData := client.commandData.set client.commandDataPos byte room
          commandDataPos := client.commandDataPos + 1
        }
        open_.2 (by dsimp only; omega)
      have position
          : client.commandDataPos + 1 + tail.length
            = client.commandDataPos + (tail.length + 1) := by
        omega
      refine ⟨data, ?_, fun rest => ?_⟩
      · rw [List.length_cons, ← position, stored, Client.partialLine, take_set_succ]
        simp [Client.partialLine]
      · rw [List.cons_append, getCommand, dif_pos room]
        dsimp only
        rw [if_neg (Ne.symm open_.1), run, List.length_cons, ← position]

/-- The loop over the bytes of a line stores all of them if none is a newline. -/
theorem getCommand_open (host : Host Emulator) (client : Client) (emulator : Emulator)
    (bytes : Bytes) (open_ : newline ∉ bytes)
    (fits : client.commandDataPos + bytes.length ≤ 2048)
    : ∃ data : Vector UInt8 2048,
        data.toList.take (client.commandDataPos + bytes.length)
          = client.partialLine ++ bytes
        ∧ getCommand host client emulator bytes
          = .emit []
              ⟨
                {
                  client with
                  commandData := data
                  commandDataPos := client.commandDataPos + bytes.length
                },
                [],
                emulator
              ⟩ := by
  obtain ⟨data, stored, run⟩ := getCommand_append host client emulator bytes open_ fits
  have all := run []
  rw [List.append_nil] at all
  exact ⟨data, stored, all⟩

/-- A newline that finds room completes the line. -/
theorem getCommand_line (host : Host Emulator) (client : Client) (emulator : Emulator)
    (line rest : Bytes) (open_ : newline ∉ line)
    (fits : client.commandDataPos + line.length < 2048)
    : ∃ data : Vector UInt8 2048,
        data.toList.take (client.commandDataPos + line.length + 1)
          = client.partialLine ++ line ++ [newline]
        ∧ getCommand host client emulator (line ++ newline :: rest)
          = finishLine host
              ⟨
                {
                  client with
                  commandData := data
                  commandDataPos := client.commandDataPos + line.length + 1
                },
                rest,
                emulator
              ⟩ := by
  obtain ⟨data, stored, run⟩ :=
    getCommand_append host client emulator line open_ (Nat.le_of_lt fits)
  refine ⟨data.set (client.commandDataPos + line.length) newline fits, ?_, ?_⟩
  · rw [take_set_succ, stored]
  · rw [run, getCommand, dif_pos fits]
    rfl

/-- Bytes of one line for which the buffer has no room lead to a store behind it. -/
theorem getCommand_overflow (host : Host Emulator) (client : Client) (emulator : Emulator)
    (line rest : Bytes) (open_ : newline ∉ line.dropLast)
    (position : client.commandDataPos ≤ 2048)
    (long : 2048 < client.commandDataPos + line.length)
    : ∃ config : Config Emulator,
        config.emulator = emulator
        ∧ getCommand host client emulator (line ++ rest)
          = .stop [] ⟨.undefined .commandOverflow, config⟩ := by
  induction line generalizing client with
  | nil => simp only [List.length_nil] at long; omega
  | cons byte tail ih =>
      rw [List.length_cons] at long
      rw [List.cons_append, getCommand]
      split
      case isTrue room =>
        have more : tail ≠ [] := by
          rintro rfl
          simp only [List.length_nil] at long
          omega
        rw [List.dropLast_cons_of_ne_nil more, List.mem_cons, not_or] at open_
        dsimp only
        rw [if_neg (Ne.symm open_.1)]
        exact ih _ open_.2 (by dsimp only; omega) (by dsimp only; omega)
      case isFalse => exact ⟨_, rfl, rfl⟩

/-- The header loop stores what the header has room for and leaves the rest unread. -/
theorem fillHeader_eq (client : Client) (front rest : Bytes)
    (fits : client.binaryHeaderSize + front.length ≤ 5)
    (ends : rest = [] ∨ client.binaryHeaderSize + front.length = 5)
    : ∃ header : Vector UInt8 5,
        header.toList.take (client.binaryHeaderSize + front.length)
          = client.partialHeader ++ front
        ∧ fillHeader client (front ++ rest)
          = (
              {
                client with
                binaryHeader := header
                binaryHeaderSize := client.binaryHeaderSize + front.length
              },
              rest
            ) := by
  induction front generalizing client with
  | nil =>
      refine ⟨client.binaryHeader, by simp [Client.partialHeader], ?_⟩
      cases rest with
      | nil => rfl
      | cons byte tail =>
          have full : client.binaryHeaderSize = 5 := by simpa using ends
          rw [List.nil_append, fillHeader, dif_neg (by omega)]
          rfl
  | cons byte tail ih =>
      rw [List.length_cons] at fits ends
      have room : client.binaryHeaderSize < 5 := by omega
      obtain ⟨header, stored, run⟩ := ih
        {
          client with
          binaryHeader := client.binaryHeader.set client.binaryHeaderSize byte room
          binaryHeaderSize := client.binaryHeaderSize + 1
        }
        (by dsimp only; omega) (ends.imp_right (fun full => by dsimp only; omega))
      have position
          : client.binaryHeaderSize + 1 + tail.length
            = client.binaryHeaderSize + (tail.length + 1) := by
        omega
      refine ⟨header, ?_, ?_⟩
      · rw [List.length_cons, ← position, stored, Client.partialHeader, take_set_succ]
        simp [Client.partialHeader]
      · rw [List.cons_append, fillHeader, dif_pos room, run, List.length_cons, ← position]

-----------------------------------------------------------------------------------------
-- A complete line
-----------------------------------------------------------------------------------------

/-- The client after `process_command`, when the command it ran left `current` and
returned `size`.
-/
def Client.afterLine (client : Client) (current : Nat) (size : Int) : Client :=
  if client.commandData.head = lowerB then
    {
      client with
      state := .expectingBinaryData
      currentCommand := current
      shallowBinaryBlock := if size < 0 then true else client.shallowBinaryBlock
      expectedBlockSize := announced size
      binaryBlock := none
      binaryBlockSize := 0
      binaryHeaderSize := 0
      commandDataPos := 0
      commandDataSize := 0
    }
  else
    {
      client with
      state := .waitingForCommand
      currentCommand := current
      commandDataPos := 0
      commandDataSize := 0
    }

/-- A line never leaves the slot inside a block. -/
theorem Client.afterLine_state (client : Client) (current : Nat) (size : Int)
    : (client.afterLine current size).state ≠ .gettingBinaryData := by
  rw [afterLine]
  split <;> nofun

/-- A slot that expects a block behind its line got a line that begins with `b`, and it
swallows the block if the command announced a negative size.
-/
theorem Client.afterLine_expecting {client : Client} {current : Nat} {size : Int}
    (expecting : (client.afterLine current size).state = .expectingBinaryData)
    (keep : (client.afterLine current size).shallowBinaryBlock = false)
    : client.commandData.head = lowerB
      ∧ 0 ≤ size
      ∧ (client.afterLine current size).currentCommand = current := by
  by_cases binary : client.commandData.head = lowerB
  · rw [afterLine, if_pos binary] at keep ⊢
    refine ⟨binary, ?_, rfl⟩
    by_contra negative
    rw [if_pos (by omega)] at keep
    cases keep
  · rw [afterLine, if_neg binary] at expecting
    cases expecting

/-- A line that the tokenizer leaves its arrays on ends the defined behaviour. -/
theorem finishLine_fault (host : Host Emulator) (config : Config Emulator) {fault : Fault}
    (tokens : tokenize config.client.partialLine = .error fault)
    : ∃ final : Config Emulator,
        final.emulator = config.emulator
        ∧ finishLine host config = .stop [] ⟨.undefined fault, final⟩ := by
  by_cases binary : config.client.commandData.head = lowerB
  all_goals
    simp only [finishLine, processCommand, binary, if_true, if_false]
    rw [show Client.commandLine _ = config.client.partialLine from rfl, tokens]
    refine ⟨_, ?_, rfl⟩
    rfl

/-- A tokenized line is served, and its result settles the next state. -/
theorem finishLine_served (host : Host Emulator) (config : Config Emulator) {cmd : Bytes}
    {args : List Bytes} (state : config.client.state = .gettingCommand)
    (tokens : tokenize config.client.partialLine = .ok (cmd, args))
    : let resolution := resolve host cmd
      let served := resolution.serve host config.client.socketFd args config.emulator
      finishLine host config
        = .emit (.command config.client.socketFd cmd args :: served.events)
            ⟨
              config.client.afterLine (resolution.current config.client.currentCommand)
                served.size,
              config.unread,
              served.emulator
            ⟩ := by
  by_cases binary : config.client.commandData.head = lowerB
  all_goals
    simp only [finishLine, processCommand, binary, if_true, if_false, Client.afterLine]
    rw [show Client.commandLine _ = config.client.partialLine from rfl, tokens]
    simp only [executeCommand_eq, state, reduceCtorEq, if_true, if_false, Reaction.bind_eq,
      Reaction.emit_andThen, Reaction.pure_eq, Reaction.prepend_emit, List.append_nil,
      announced]

-----------------------------------------------------------------------------------------
-- Headers and blocks
-----------------------------------------------------------------------------------------

/-- The client when its state leaves `EXPECTING_BINARY_DATA`. -/
def Client.beginHeader (client : Client) : Client := {
  client with
  state := .gettingBinaryData
  binaryHeaderSize := 0
  binaryHeader := Vector.replicate 5 0
}

/-- The client after the header loop has filled the header with `header`. -/
def Client.openBlock (client : Client) (header : Vector UInt8 5) : Client := {
  client with
  binaryHeader := header
  binaryHeaderSize := 5
  binaryBlockDefinedSize := networkSize header.toList
  binaryBlock := some (Block.malloc (networkSize header.toList))
  binaryBlockSize := 0
}

/-- The client after `copied` was appended to a block that now is `block`. -/
def Client.copied (client : Client) (block : Block) (count : Nat) : Client := {
  client with
  binaryBlock := some block
  binaryBlockSize := client.binaryBlockSize + count
}

/-- The client after a complete block was swallowed. -/
def Client.swallowed (client : Client) : Client := {
  client with
  binaryBlock := none
  binaryBlockSize := 0
  binaryBlockDefinedSize := 0
  state := .waitingForCommand
  shallowBinaryBlock := false
}

/-- The client after a complete block was handed to the write function. -/
def Client.delivered (client : Client) : Client := {
  client with
  binaryBlock := none
  binaryBlockSize := 0
  binaryHeaderSize := 0
  expectedBlockSize := 0
  state := .waitingForCommand
  shallowBinaryBlock := false
}

/-- A refusal is one error reply behind which `preprocess_data` returns `false`. -/
theorem refuse_eq (host : Host Emulator) (config : Config Emulator) (reason : Bytes)
    : refuse host config reason
      = .stop [.errorReply config.client.socketFd .protocolError reason]
          ⟨
            .rejected,
            {
              config with
              emulator :=
                host.write config.client.socketFd (errorReplyText .protocolError reason)
                  config.emulator
            }
          ⟩ := rfl

/-- A complete block is freed if it is to be swallowed. -/
theorem finishBlock_swallow (host : Host Emulator) (config : Config Emulator)
    (swallow : config.client.shallowBinaryBlock = true)
    : finishBlock host config
      = .emit [.blockReleased config.client.socketFd]
          { config with client := config.client.swallowed } := by
  simp only [finishBlock, swallow, if_true]
  rfl

/-- Otherwise it is written and freed if the command is `bCORE_WRITE`. -/
theorem finishBlock_write (host : Host Emulator) (config : Config Emulator)
    (keep : config.client.shallowBinaryBlock = false)
    (writes : config.client.currentCommand = EmulatorCommand.bCoreWrite.value)
    : let data := config.client.blockData.take config.client.binaryBlockSize
      finishBlock host config
        = .emit
            [
              .blockWritten config.client.socketFd data,
              .blockReleased config.client.socketFd
            ]
            {
              config with
              client := config.client.delivered
              emulator := (host.writeFunction config.client.socketFd data config.emulator).2
            } := by
  simp only [finishBlock, keep, Bool.false_eq_true, if_false, processBinaryBlock]
  rw [if_pos writes]
  rfl

/-- A complete block of another command is left as it is. -/
theorem finishBlock_stuck (host : Host Emulator) (config : Config Emulator)
    (stuck : ¬ config.client.deliverable)
    : finishBlock host config = .emit [] config := by
  simp only [Client.deliverable, not_or, Bool.not_eq_true] at stuck
  simp only [finishBlock, stuck.1, Bool.false_eq_true, if_false, processBinaryBlock, stuck.2]
  obtain ⟨client, unread, emulator⟩ := config
  simp only at stuck
  simp only [Reaction.pure_eq, Reaction.bind_eq, Reaction.emit_andThen, Reaction.prepend_nil]
  congr 2
  rw [← stuck.1]

/-- A copy behind the filled part of a block appends to it. -/
theorem Block.memcpy_append (block : Block) (source : Bytes)
    (fits : block.bytes.length + source.length ≤ block.size)
    : block.memcpy block.bytes.length source
      = some ⟨block.size, block.bytes ++ source, by simpa using fits⟩ := by
  simp [memcpy, fits]

/-- A copy that does not fit its block is refused. -/
theorem Block.memcpy_overflow (block : Block) (offset : Nat) (source : Bytes)
    (full : block.size < offset + source.length)
    : block.memcpy offset source = none := by
  rw [memcpy, dif_neg (by omega)]

section Copy

variable (host : Host Emulator) (emulator : Emulator) {client : Client} {unread : Bytes}
  {block : Block} {count : Nat}

/-- A copy that is longer than what is left of the block leaves it. -/
theorem copyBlock_overflow (header : client.binaryHeaderSize = 5)
    (here : client.binaryBlock = some block) (more : unread ≠ [])
    (counted : count = min unread.length client.binaryBlockDefinedSize)
    (full : block.size < client.binaryBlockSize + count)
    : copyBlock host ⟨client, unread, emulator⟩
      = .stop [] ⟨.undefined .blockOverflow, ⟨client, unread, emulator⟩⟩ := by
  have length : (unread.take count).length = count := by
    rw [List.length_take]
    omega
  have copy
      : client.binaryBlock.bind
          (fun block => block.memcpy client.binaryBlockSize (unread.take count))
        = none := by
    rw [here]
    exact block.memcpy_overflow _ _ (by omega)
  rw [counted] at copy
  rw [copyBlock, if_pos ⟨header, more⟩]
  dsimp only
  rw [copy]

/-- A copy that fits appends to the block and finishes it when it was the last one. -/
theorem copyBlock_fits (header : client.binaryHeaderSize = 5)
    (here : client.binaryBlock = some block) (more : unread ≠ [])
    (position : block.bytes.length = client.binaryBlockSize)
    (counted : count = min unread.length client.binaryBlockDefinedSize)
    (fits : client.binaryBlockSize + count ≤ block.size)
    : ∃ copied : Block,
        copied.size = block.size
        ∧ copied.bytes = block.bytes ++ unread.take count
        ∧ (client.binaryBlockSize + count = client.binaryBlockDefinedSize
          → copyBlock host ⟨client, unread, emulator⟩
            = finishBlock host ⟨client.copied copied count, unread.drop count, emulator⟩)
        ∧ (client.binaryBlockSize + count ≠ client.binaryBlockDefinedSize
          → copyBlock host ⟨client, unread, emulator⟩
            = .emit [] ⟨client.copied copied count, unread.drop count, emulator⟩) := by
  have length : (unread.take count).length = count := by
    rw [List.length_take]
    omega
  have room : block.bytes.length + (unread.take count).length ≤ block.size := by omega
  let copied : Block := ⟨block.size, block.bytes ++ unread.take count, by simpa using room⟩
  have copy
      : client.binaryBlock.bind
          (fun block => block.memcpy client.binaryBlockSize (unread.take count))
        = some copied := by
    rw [here, ← position]
    exact block.memcpy_append _ room
  refine ⟨copied, rfl, rfl, fun full => ?_, fun short => ?_⟩
  all_goals
    rw [copyBlock, if_pos ⟨header, more⟩]
    dsimp only
    rw [← counted, copy]
    dsimp only
  · rw [if_pos full]
    rfl
  · rw [if_neg short]
    rfl

end Copy

end NetworkAccess
