import NetworkAccess.Parser.Iterations

/-! The complete list of what one iteration of `preprocess_data` can do from a
well-formed slot. Later invariants are case analyses over this list.
-/

namespace NetworkAccess

variable {Emulator : Type}

/-- The iteration stores bytes of a command line. -/
def Config.AtLine (config : Config Emulator) : Prop :=
  config.client.state = .waitingForCommand ∧ startsCommand (config.unread.headD 0)
  ∨ config.client.state = .gettingCommand

/-- The iteration stores bytes of a header, on this client. -/
inductive Config.AtHeader (config : Config Emulator) : Client → Prop
  | first (state : config.client.state = .expectingBinaryData)
    (zero : config.unread.headD 0 = 0)
    : config.AtHeader config.client.beginHeader
  | resumed (state : config.client.state = .gettingBinaryData)
    (short : config.client.binaryHeaderSize < 5)
    : config.AtHeader config.client

/-- The iteration has a complete header: the client, the bytes that are left of the read
and the events so far when it comes to copying.
-/
inductive Config.Filling (config : Config Emulator) : Client → Bytes → List Event → Prop
  | resumed (state : config.client.state = .gettingBinaryData)
    (complete : config.client.binaryHeaderSize = 5)
    : config.Filling config.client config.unread []
  | opened {client front rest header} (atHeader : config.AtHeader client)
    (split : config.unread = front ++ rest)
    (complete : client.binaryHeaderSize + front.length = 5)
    (stored : header.toList = client.partialHeader ++ front)
    (agreed
      : networkSize header.toList = client.expectedBlockSize ∨ client.expectedBlockSize = 0)
    : config.Filling (client.openBlock header) rest
        [.blockAllocated client.socketFd (networkSize header.toList)]

/-- Before the bytes of a block are copied, all that can happen is that the block is allocated. -/
theorem Config.Filling.forall_events {config : Config Emulator} {client : Client} {data : Bytes}
    {events : List Event} {property : Event → Prop}
    (filling : config.Filling client data events)
    (allocated : ∀ socket size, property (.blockAllocated socket size))
    : ∀ event ∈ events, property event := by
  cases filling with
  | resumed => nofun
  | opened => exact List.forall_mem_singleton.mpr (allocated _ _)

/-- A slot with a complete header is not at a header. -/
theorem Config.AtHeader.incomplete {config : Config Emulator} {client : Client}
    (atHeader : config.AtHeader client)
    : ¬ (config.client.state = .gettingBinaryData ∧ config.client.binaryHeaderSize = 5) := by
  rintro ⟨state, complete⟩
  cases atHeader with
  | first other =>
      rw [state] at other
      cases other
  | resumed _ short => omega

/-- With a complete header, the copy step only resumes. -/
theorem Config.Filling.of_complete {config : Config Emulator} {client : Client} {data : Bytes}
    {events : List Event} (filling : config.Filling client data events)
    (state : config.client.state = .gettingBinaryData)
    (complete : config.client.binaryHeaderSize = 5)
    : client = config.client ∧ data = config.unread ∧ events = [] := by
  cases filling with
  | resumed => exact ⟨rfl, rfl, rfl⟩
  | opened atHeader => exact absurd ⟨state, complete⟩ atHeader.incomplete

/-- An iteration at a header expects a block or is in one. -/
theorem Config.AtHeader.state {config : Config Emulator} {client : Client}
    (atHeader : config.AtHeader client)
    : config.client.state = .expectingBinaryData
      ∨ config.client.state = .gettingBinaryData := by
  cases atHeader with
  | first state => exact Or.inl state
  | resumed state => exact Or.inr state

/-- An iteration that comes to the bytes of a block expects a block or is in one. -/
theorem Config.Filling.state {config : Config Emulator} {client : Client} {data : Bytes}
    {events : List Event} (filling : config.Filling client data events)
    : config.client.state = .expectingBinaryData
      ∨ config.client.state = .gettingBinaryData := by
  cases filling with
  | resumed state => exact Or.inr state
  | opened atHeader => exact atHeader.state

/-- What a well-formed slot gives the header loop. -/
structure Config.HeaderFacts (config : Config Emulator) (client : Client) : Prop where
  state : client.state = .gettingBinaryData
  noLine : client.commandDataPos = 0
  noBlock : client.binaryBlock = none
  short : client.binaryHeaderSize < 5
  started : (client.partialHeader ++ config.unread).head? = some 0
  socketFd : client.socketFd = config.client.socketFd
  currentCommand : client.currentCommand = config.client.currentCommand
  ticket : client.ticket = config.client.ticket

/-- What the invariant says of a slot at a header. -/
theorem Config.AtHeader.facts {config : Config Emulator} {client : Client}
    (atHeader : config.AtHeader client) (wellFormed : config.client.WellFormed)
    (more : config.unread ≠ [])
    : config.HeaderFacts client := by
  cases atHeader with
  | first state zero =>
      obtain ⟨noLine, _, _, noBlock⟩ := wellFormed.expecting state
      obtain ⟨byte, rest, split⟩ := List.exists_cons_of_ne_nil more
      have isZero : byte = 0 := by simpa [split] using zero
      refine ⟨rfl, noLine, noBlock, Nat.zero_lt_succ 4, ?_, rfl, rfl, rfl⟩
      simp [split, isZero, Client.partialHeader, Client.beginHeader]
  | resumed state short =>
      have stored := wellFormed.block state
      refine ⟨state, stored.noLine, stored.noBlock short, short, ?_, rfl, rfl, rfl⟩
      have started := stored.started
      cases h : config.client.partialHeader with
      | nil => simp [h] at started
      | cons byte rest => simpa [h] using started

/-- As many bytes of the header are stored as the slot says. -/
theorem Config.HeaderFacts.length {config : Config Emulator} {client : Client}
    (facts : config.HeaderFacts client)
    : client.partialHeader.length = client.binaryHeaderSize := by
  have short := facts.short
  rw [Client.partialHeader, List.length_take, Vector.length_toList]
  omega

/-- What a well-formed slot gives the copy step. -/
structure Config.BlockFacts (config : Config Emulator) (client : Client) : Prop where
  state : client.state = .gettingBinaryData
  header : client.binaryHeaderSize = 5
  stored : client.BlockStored
  socketFd : client.socketFd = config.client.socketFd
  currentCommand : client.currentCommand = config.client.currentCommand
  ticket : client.ticket = config.client.ticket

/-- What the invariant says of a slot at the bytes of a block. -/
theorem Config.Filling.facts {config : Config Emulator} {client : Client} {data : Bytes}
    {events : List Event} (filling : config.Filling client data events)
    (wellFormed : config.client.WellFormed) (more : config.unread ≠ [])
    : config.BlockFacts client := by
  cases filling with
  | resumed state complete =>
      exact ⟨state, complete, wellFormed.block state, rfl, rfl, rfl⟩
  | @opened client front rest header atHeader split complete stored agreed =>
      have facts := atHeader.facts wellFormed more
      have short := facts.short
      have full : (client.openBlock header).partialHeader = client.partialHeader ++ front := by
        rw [← stored, Client.partialHeader, Client.openBlock, List.take_of_length_le (by simp)]
      have started := facts.started
      rw [split, ← List.append_assoc, ← full, List.head?_append] at started
      refine {
        state := facts.state
        header := rfl
        socketFd := facts.socketFd
        currentCommand := facts.currentCommand
        ticket := facts.ticket
        stored := {
          noLine := facts.noLine
          started := ?_
          header := Nat.le_refl 5
          noBlock := fun less => absurd less (Nat.lt_irrefl 5)
          block := fun _ => ⟨_, rfl, rfl, rfl⟩
          agreed := fun _ => agreed
        }
      }
      have nonempty : (client.openBlock header).partialHeader ≠ [] := by
        rw [full]
        intro empty
        have lengths := congrArg List.length empty
        simp only [List.length_append, List.length_nil] at lengths
        omega
      obtain ⟨byte, tail, cons⟩ := List.exists_cons_of_ne_nil nonempty
      simpa [cons] using started

-----------------------------------------------------------------------------------------
-- The cases
-----------------------------------------------------------------------------------------

/-- The client that has stored `data` up to `position` of a line. -/
def Client.lineStored (client : Client) (data : Vector UInt8 2048) (position : Nat)
    : Client := {
  client with
  state := .gettingCommand
  commandData := data
  commandDataPos := position
}

/-- Everything an iteration from a well-formed slot can do. -/
inductive IterationCase (host : Host Emulator) (config : Config Emulator)
    : Turn Emulator (Config Emulator) → Prop
  | refuseCommand (state : config.client.state = .waitingForCommand)
    (bad : startsCommand (config.unread.headD 0) = false)
    : IterationCase host config
        (refuse host config (ascii "Expecting a command or a signal registration"))
  | refuseBlock (state : config.client.state = .expectingBinaryData)
    (bad : config.unread.headD 0 ≠ 0)
    : IterationCase host config
        (refuse host { config with client := config.client.beginHeader }
          (ascii "Sending invalid binary data block"))
  | refuseSize {client front rest header} (atHeader : config.AtHeader client)
    (split : config.unread = front ++ rest)
    (complete : client.binaryHeaderSize + front.length = 5)
    (stored : header.toList = client.partialHeader ++ front)
    (mismatch
      : ¬ (networkSize header.toList = client.expectedBlockSize
          ∨ client.expectedBlockSize = 0))
    : IterationCase host config
        ((refuse host ⟨client.openBlock header, rest, config.emulator⟩
          (ascii "Binary block size does not match expected size")).prepend
            [.blockAllocated client.socketFd (networkSize header.toList)])
  | openLine {data} (atLine : config.AtLine) (open_ : newline ∉ config.unread)
    (fits : config.client.commandDataPos + config.unread.length ≤ 2048)
    (stored
      : data.toList.take (config.client.commandDataPos + config.unread.length)
        = config.client.partialLine ++ config.unread)
    : IterationCase host config
        (.emit []
          ⟨
            config.client.lineStored data
              (config.client.commandDataPos + config.unread.length),
            [],
            config.emulator
          ⟩)
  | longLine {line rest final} (atLine : config.AtLine) (split : config.unread = line ++ rest)
    (open_ : newline ∉ line.dropLast)
    (long : 2048 < config.client.commandDataPos + line.length)
    (emulator : final.emulator = config.emulator)
    : IterationCase host config (.stop [] ⟨.undefined .commandOverflow, final⟩)
  | faultyLine {line rest fault final} (atLine : config.AtLine)
    (split : config.unread = line ++ newline :: rest) (open_ : newline ∉ line)
    (fits : config.client.commandDataPos + line.length < 2048)
    (tokens
      : tokenize (config.client.partialLine ++ line ++ [newline]) = .error fault)
    (emulator : final.emulator = config.emulator)
    : IterationCase host config (.stop [] ⟨.undefined fault, final⟩)
  | servedLine {line rest data cmd args served} (atLine : config.AtLine)
    (split : config.unread = line ++ newline :: rest) (open_ : newline ∉ line)
    (fits : config.client.commandDataPos + line.length < 2048)
    (stored
      : data.toList.take (config.client.commandDataPos + line.length + 1)
        = config.client.partialLine ++ line ++ [newline])
    (tokens
      : tokenize (config.client.partialLine ++ line ++ [newline]) = .ok (cmd, args))
    (serves
      : served = (resolve host cmd).serve host config.client.socketFd args config.emulator)
    : IterationCase host config
        (.emit (.command config.client.socketFd cmd args :: served.events)
          ⟨
            (config.client.lineStored data
              (config.client.commandDataPos + line.length + 1)).afterLine
                ((resolve host cmd).current config.client.currentCommand) served.size,
            rest,
            served.emulator
          ⟩)
  | openHeader {client header} (atHeader : config.AtHeader client)
    (short : client.binaryHeaderSize + config.unread.length < 5)
    (stored
      : header.toList.take (client.binaryHeaderSize + config.unread.length)
        = client.partialHeader ++ config.unread)
    : IterationCase host config
        (.emit []
          ⟨
            {
              client with
              binaryHeader := header
              binaryHeaderSize := client.binaryHeaderSize + config.unread.length
            },
            [],
            config.emulator
          ⟩)
  | noData {client events} (filling : config.Filling client [] events)
    : IterationCase host config (.emit events ⟨client, [], config.emulator⟩)
  | overflow {client data events} (filling : config.Filling client data events)
    (more : data ≠ [])
    (full
      : client.binaryBlockDefinedSize
        < client.binaryBlockSize + min data.length client.binaryBlockDefinedSize)
    : IterationCase host config
        (.stop events ⟨.undefined .blockOverflow, ⟨client, data, config.emulator⟩⟩)
  | partBlock {client data events block} (filling : config.Filling client data events)
    (more : data ≠ [])
    (short : client.binaryBlockSize + data.length < client.binaryBlockDefinedSize)
    (size : block.size = client.binaryBlockDefinedSize)
    (bytes : block.bytes = client.blockData ++ data)
    : IterationCase host config
        (.emit events ⟨client.copied block data.length, [], config.emulator⟩)
  | swallowBlock {client data events count block}
    (filling : config.Filling client data events) (more : data ≠ [])
    (counted : count = min data.length client.binaryBlockDefinedSize)
    (full : client.binaryBlockSize + count = client.binaryBlockDefinedSize)
    (swallow : client.shallowBinaryBlock = true)
    : IterationCase host config
        (.emit (events ++ [.blockReleased client.socketFd])
          ⟨(client.copied block count).swallowed, data.drop count, config.emulator⟩)
  | writeBlock {client data events count block}
    (filling : config.Filling client data events) (more : data ≠ [])
    (counted : count = min data.length client.binaryBlockDefinedSize)
    (full : client.binaryBlockSize + count = client.binaryBlockDefinedSize)
    (keep : client.shallowBinaryBlock = false)
    (writes : client.currentCommand = EmulatorCommand.bCoreWrite.value)
    : IterationCase host config
        (.emit
          (events
            ++ [
              .blockWritten client.socketFd (client.blockData ++ data.take count),
              .blockReleased client.socketFd
            ])
          ⟨
            (client.copied block count).delivered,
            data.drop count,
            (host.writeFunction client.socketFd (client.blockData ++ data.take count)
              config.emulator).2
          ⟩)
  | stuckBlock {client data events count block}
    (filling : config.Filling client data events) (more : data ≠ [])
    (counted : count = min data.length client.binaryBlockDefinedSize)
    (full : client.binaryBlockSize + count = client.binaryBlockDefinedSize)
    (size : block.size = client.binaryBlockDefinedSize)
    (bytes : block.bytes = client.blockData ++ data.take count)
    (stuck : ¬ client.deliverable)
    : IterationCase host config
        (.emit events ⟨client.copied block count, data.drop count, config.emulator⟩)

-----------------------------------------------------------------------------------------
-- The list is complete
-----------------------------------------------------------------------------------------

/-- The cases of the command branch, by where the newline and the end of the buffer are. -/
private theorem lineCases (host : Host Emulator) (config : Config Emulator)
    (atLine : config.AtLine) (fits : config.client.commandDataPos ≤ 2048)
    (branch
      : iteration host config
        = getCommand host { config.client with state := .gettingCommand } config.emulator
            config.unread)
    : IterationCase host config (iteration host config) := by
  rw [branch]
  by_cases closed : newline ∈ config.unread
  · obtain ⟨line, rest, split, open_⟩ := List.eq_append_cons_of_mem closed
    by_cases room : config.client.commandDataPos + line.length < 2048
    · obtain ⟨data, stored, run⟩ := getCommand_line host
        { config.client with state := .gettingCommand } config.emulator line rest open_ room
      rw [split, run]
      have partialLine : Client.partialLine
          {
            config.client with
            state := .gettingCommand
            commandData := data
            commandDataPos := config.client.commandDataPos + line.length + 1
          }
          = config.client.partialLine ++ line ++ [newline] := stored
      cases tokens : tokenize (config.client.partialLine ++ line ++ [newline]) with
      | error fault =>
          obtain ⟨final, emulator, faulty⟩ := finishLine_fault host ⟨_, rest, config.emulator⟩
            (partialLine ▸ tokens)
          rw [faulty]
          exact .faultyLine atLine split open_ room tokens emulator
      | ok command =>
          obtain ⟨cmd, args⟩ := command
          rw [finishLine_served host ⟨_, rest, config.emulator⟩ rfl (partialLine ▸ tokens)]
          exact .servedLine atLine split open_ room stored tokens rfl
    · have long : 2048 < config.client.commandDataPos + (line ++ [newline]).length := by
        rw [List.length_append, List.length_singleton]
        omega
      obtain ⟨final, emulator, run⟩ := getCommand_overflow host
        { config.client with state := .gettingCommand } config.emulator (line ++ [newline]) rest
        (by rwa [List.dropLast_concat]) fits long
      rw [List.append_assoc, List.singleton_append, ← split] at run
      rw [run]
      have whole : config.unread = (line ++ [newline]) ++ rest := by
        rw [List.append_assoc, List.singleton_append, split]
      exact .longLine atLine whole (by rwa [List.dropLast_concat]) long emulator
  · have open_ : newline ∉ config.unread.dropLast :=
      fun member => closed (List.dropLast_subset _ member)
    by_cases room : config.client.commandDataPos + config.unread.length ≤ 2048
    · obtain ⟨data, stored, run⟩ := getCommand_open host
        { config.client with state := .gettingCommand } config.emulator config.unread closed room
      rw [run]
      exact .openLine atLine closed room stored
    · obtain ⟨final, emulator, run⟩ := getCommand_overflow host
        { config.client with state := .gettingCommand } config.emulator config.unread []
        open_ fits (by dsimp only; omega)
      rw [List.append_nil] at run
      rw [run]
      exact .longLine atLine (List.append_nil _).symm open_ (by omega) emulator

/-- The cases of the copy step. -/
private theorem copyCases (host : Host Emulator) {config : Config Emulator}
    {client : Client} {data : Bytes} {events : List Event}
    (filling : config.Filling client data events) (facts : config.BlockFacts client)
    : IterationCase host config
        ((copyBlock host ⟨client, data, config.emulator⟩).prepend events) := by
  obtain ⟨block, here, size, position⟩ := facts.stored.block facts.header
  have blockData : client.blockData = block.bytes := by rw [Client.blockData, here]; rfl
  by_cases more : data = []
  · subst more
    have idle : copyBlock host ⟨client, [], config.emulator⟩
        = .emit [] ⟨client, [], config.emulator⟩ := by
      rw [copyBlock, if_neg (fun both => both.2 rfl)]
      rfl
    rw [idle, Reaction.prepend_emit, List.append_nil]
    exact .noData filling
  · obtain ⟨count, counted⟩ : ∃ count, count = min data.length client.binaryBlockDefinedSize :=
      ⟨_, rfl⟩
    by_cases fits : client.binaryBlockSize + count ≤ block.size
    · obtain ⟨copied, copiedSize, copiedBytes, last, notLast⟩ := copyBlock_fits host
        config.emulator facts.header here more position counted fits
      rw [← blockData] at copiedBytes
      by_cases full : client.binaryBlockSize + count = client.binaryBlockDefinedSize
      · rw [last full]
        by_cases swallow : client.shallowBinaryBlock = true
        · rw [finishBlock_swallow _ _ swallow, Reaction.prepend_emit]
          show IterationCase host config
            (.emit (events ++ [.blockReleased client.socketFd])
              ⟨(client.copied copied count).swallowed, data.drop count, config.emulator⟩)
          exact .swallowBlock filling more counted full swallow
        · have keep : client.shallowBinaryBlock = false := by simpa using swallow
          by_cases writes : client.currentCommand = EmulatorCommand.bCoreWrite.value
          · have whole
                : (client.copied copied count).blockData.take
                    (client.copied copied count).binaryBlockSize
                  = client.blockData ++ data.take count := by
              rw [show (client.copied copied count).blockData = copied.bytes from rfl, copiedBytes]
              apply List.take_of_length_le
              rw [List.length_append, blockData, position, List.length_take]
              dsimp only [Client.copied]
              omega
            rw [finishBlock_write _ _ keep writes, Reaction.prepend_emit, whole]
            exact .writeBlock filling more counted full keep writes
          · have stuck : ¬ client.deliverable := by simp [Client.deliverable, keep, writes]
            rw [finishBlock_stuck _ _ stuck, Reaction.prepend_emit, List.append_nil]
            exact .stuckBlock filling more counted full (copiedSize.trans size) copiedBytes
              stuck
      · have all : count = data.length := by omega
        rw [notLast full, Reaction.prepend_emit, List.append_nil, all, List.drop_length]
        rw [all, List.take_length] at copiedBytes
        exact .partBlock filling more (by omega) (copiedSize.trans size) copiedBytes
    · rw [copyBlock_overflow host _ facts.header here more counted (by omega),
        Reaction.prepend_stop, List.append_nil]
      exact .overflow filling more (by omega)

/-- The cases of the header loop and what follows it. -/
private theorem headerCases (host : Host Emulator) {config : Config Emulator}
    {client : Client} (wellFormed : config.client.WellFormed) (more : config.unread ≠ [])
    (atHeader : config.AtHeader client)
    : IterationCase host config
        (gettingBinaryData host { config with client }) := by
  have facts := atHeader.facts wellFormed more
  have short := facts.short
  rw [gettingBinaryData, if_pos short]
  by_cases enough : client.binaryHeaderSize + config.unread.length < 5
  · obtain ⟨header, stored, run⟩ := fillHeader_eq client config.unread [] (by omega) (.inl rfl)
    rw [List.append_nil] at run
    dsimp only
    rw [run]
    dsimp only
    rw [if_neg (by omega), copyBlock, if_neg (by dsimp only; omega)]
    exact .openHeader atHeader enough stored
  · obtain ⟨front, rest, split, complete⟩
        : ∃ front rest,
            config.unread = front ++ rest ∧ client.binaryHeaderSize + front.length = 5 :=
      ⟨
        config.unread.take (5 - client.binaryHeaderSize),
        config.unread.drop (5 - client.binaryHeaderSize),
        (List.take_append_drop _ _).symm,
        by rw [List.length_take]; omega
      ⟩
    obtain ⟨header, stored, run⟩ := fillHeader_eq client front rest (by omega) (.inr complete)
    rw [complete, List.take_of_length_le (by simp)] at stored
    rw [complete, ← split] at run
    dsimp only
    rw [run]
    dsimp only
    rw [if_pos rfl]
    by_cases agreed
        : networkSize header.toList = client.expectedBlockSize ∨ client.expectedBlockSize = 0
    · have filling : config.Filling (client.openBlock header) rest _ :=
        .opened atHeader split complete stored agreed
      rw [Reaction.bind_eq, Reaction.emit_andThen, if_neg (not_not_intro agreed)]
      exact copyCases host filling (filling.facts wellFormed more)
    · rw [Reaction.bind_eq, Reaction.emit_andThen, if_pos agreed]
      exact .refuseSize atHeader split complete stored agreed

/-- Every iteration from a well-formed slot is one of the listed cases, by the state of
the slot.
-/
theorem iteration_cases (host : Host Emulator) {config : Config Emulator}
    (wellFormed : config.client.WellFormed) (more : config.unread ≠ [])
    : IterationCase host config (iteration host config) := by
  cases state : config.client.state with
  | waitingForCommand =>
      by_cases starts : startsCommand (config.unread.headD 0)
      · apply lineCases host config (.inl ⟨state, starts⟩)
        · rw [(wellFormed.waiting state).1]
          omega
        · simp only [iteration, state, starts, if_true]
      · simp only [iteration, state, starts, Bool.false_eq_true, if_false]
        exact .refuseCommand state (by simpa using starts)
  | gettingCommand =>
      apply lineCases host config (.inr state) (wellFormed.line state).2.fits
      simp only [iteration, state]
      rw [← state]
  | expectingBinaryData =>
      by_cases zero : config.unread.headD 0 = 0
      · simp only [iteration, state, zero, ne_eq, not_true_eq_false, if_false]
        exact headerCases host wellFormed more (.first state zero)
      · simp only [iteration, state, ne_eq, zero, not_false_eq_true, if_true]
        exact .refuseBlock state zero
  | gettingBinaryData =>
      simp only [iteration, state]
      by_cases short : config.client.binaryHeaderSize < 5
      · exact headerCases host wellFormed more (.resumed state short)
      · have complete : config.client.binaryHeaderSize = 5 := by
          have header := (wellFormed.block state).header
          omega
        have filling := Config.Filling.resumed state complete
        rw [gettingBinaryData, if_neg short]
        exact copyCases host filling (filling.facts wellFormed more)

end NetworkAccess
