import NetworkAccess.Parser.IterationCases

/-! What every iteration keeps: the representation invariant, the descriptor, and either
progress through the read or a state that repeats for ever.
-/

namespace NetworkAccess

variable {Emulator : Type}

/-- The read ends a block that an earlier read began and carries bytes behind it, although
the block would be delivered or swallowed. The copy then takes too many bytes.
-/
structure Config.Surplus (config : Config Emulator) : Prop where
  state : config.client.state = .gettingBinaryData
  header : config.client.binaryHeaderSize = 5
  begun : 0 < config.client.binaryBlockSize
  unfinished : config.client.binaryBlockSize < config.client.binaryBlockDefinedSize
  behind
    : config.client.binaryBlockDefinedSize
      < config.client.binaryBlockSize + config.unread.length
  deliverable : config.client.deliverable

/-- An empty block that is neither swallowed nor meant for `bCORE_WRITE` waits for more
bytes, and there are more.
-/
structure Config.Spins (config : Config Emulator) : Prop where
  state : config.client.state = .gettingBinaryData
  header : config.client.binaryHeaderSize = 5
  empty : config.client.binaryBlockDefinedSize = 0
  stuck : ¬ config.client.deliverable
  more : config.unread ≠ []

/-- What an iteration that goes on establishes. -/
structure Config.Kept (config : Config Emulator) (events : List Event)
    (next : Config Emulator)
    : Prop where
  wellFormed : next.client.WellFormed
  socketFd : next.client.socketFd = config.client.socketFd
  noSurplus : ¬ next.Surplus
  progress : next.work < config.work ∨ (events = [] ∧ next = config ∧ config.Spins)

/-- A slot between two requests. -/
theorem Client.WellFormed.of_waiting {client : Client}
    (state : client.state = .waitingForCommand) (position : client.commandDataPos = 0)
    (noBlock : client.binaryBlock = none) (noSwallow : client.shallowBinaryBlock = false)
    : client.WellFormed where
  waiting := fun _ => ⟨position, noBlock, noSwallow⟩
  line := fun other => by rw [state] at other; cases other
  expecting := fun other => by rw [state] at other; cases other
  block := fun other => by rw [state] at other; cases other

/-- A slot inside a header or a block. -/
theorem Client.WellFormed.of_block {client : Client}
    (state : client.state = .gettingBinaryData) (stored : client.BlockStored)
    : client.WellFormed where
  waiting := fun other => by rw [state] at other; cases other
  line := fun other => by rw [state] at other; cases other
  expecting := fun other => by rw [state] at other; cases other
  block := fun _ => stored

/-- A slot in which more bytes of a block have arrived. -/
theorem Client.WellFormed.of_copied {client : Client} {block : Block} {count : Nat}
    {data : Bytes} (state : client.state = .gettingBinaryData)
    (header : client.binaryHeaderSize = 5) (stored : client.BlockStored)
    (size : block.size = client.binaryBlockDefinedSize)
    (bytes : block.bytes = client.blockData ++ data) (counted : data.length = count)
    : (client.copied block count).WellFormed := by
  obtain ⟨old, here, _, position⟩ := stored.block header
  have blockData : client.blockData = old.bytes := by rw [Client.blockData, here]; rfl
  refine .of_block state {
    noLine := stored.noLine
    started := stored.started
    header := stored.header
    noBlock := fun less => absurd header (Nat.ne_of_lt less)
    block := fun _ => ⟨block, rfl, size, ?_⟩
    agreed := stored.agreed
  }
  rw [bytes, List.length_append, blockData, position, counted]
  rfl

/-- What a line branch knows of the slot it starts from. -/
theorem Config.AtLine.facts {config : Config Emulator} (atLine : config.AtLine)
    (wellFormed : config.client.WellFormed) (more : config.unread ≠ [])
    : config.client.binaryBlock = none
      ∧ config.client.shallowBinaryBlock = false
      ∧ newline ∉ config.client.partialLine
      ∧ ∀ letter,
          (config.client.partialLine ++ config.unread).head? = some letter
          → startsCommand letter := by
  obtain ⟨byte, rest, split⟩ := List.exists_cons_of_ne_nil more
  rcases atLine with ⟨state, starts⟩ | state
  · obtain ⟨position, noBlock, noSwallow⟩ := wellFormed.waiting state
    have empty : config.client.partialLine = [] := by
      rw [Client.partialLine, position, List.take_zero]
    refine ⟨noBlock, noSwallow, by simp [empty], ?_⟩
    intro letter first
    simp only [empty, split, List.nil_append, List.head?_cons, Option.some.injEq] at first
    simpa [split, first] using starts
  · obtain ⟨position, stored⟩ := wellFormed.line state
    refine ⟨stored.noBlock, stored.noSwallow, stored.open_, ?_⟩
    intro letter first
    have fits := stored.fits
    have nonempty : config.client.partialLine ≠ [] := by
      intro empty
      have lengths := congrArg List.length empty
      simp only [Client.partialLine, List.length_take, Vector.length_toList,
        List.length_nil] at lengths
      omega
    rw [List.head?_append_of_ne_nil _ nonempty] at first
    exact stored.starts letter first

-----------------------------------------------------------------------------------------
-- The step lemma
-----------------------------------------------------------------------------------------

/-- There is a surplus only inside of a block. -/
theorem Config.not_surplus_of_state {config : Config Emulator}
    (state : config.client.state ≠ .gettingBinaryData)
    : ¬ config.Surplus :=
  fun surplus => state surplus.state

/-- There is none at the end of a read. -/
theorem Config.not_surplus_of_read {config : Config Emulator} (ended : config.unread = [])
    : ¬ config.Surplus := by
  intro surplus
  have behind := surplus.behind
  have unfinished := surplus.unfinished
  rw [ended, List.length_nil] at behind
  omega

/-- The unread bytes that a copy step starts with, and whether it only resumes. -/
theorem Config.Filling.unread {config : Config Emulator} {client : Client} {data : Bytes}
    {events : List Event} (filling : config.Filling client data events)
    (wellFormed : config.client.WellFormed) (more : config.unread ≠ [])
    : (client = config.client ∧ data = config.unread ∧ events = []
        ∧ config.client.state = .gettingBinaryData)
      ∨ (data.length < config.unread.length ∧ client.binaryBlockSize = 0) := by
  cases filling with
  | resumed state => exact Or.inl ⟨rfl, rfl, rfl, state⟩
  | opened atHeader split complete =>
      have short := (atHeader.facts wellFormed more).short
      refine Or.inr ⟨?_, rfl⟩
      rw [split, List.length_append]
      omega

/-- Bytes of an open line are kept as a longer open line. -/
private theorem kept_openLine {config : Config Emulator} {data : Vector UInt8 2048}
    (wellFormed : config.client.WellFormed) (more : config.unread ≠ [])
    (atLine : config.AtLine) (open_ : newline ∉ config.unread)
    (fits : config.client.commandDataPos + config.unread.length ≤ 2048)
    (stored
      : data.toList.take (config.client.commandDataPos + config.unread.length)
        = config.client.partialLine ++ config.unread)
    : config.Kept []
        ⟨
          config.client.lineStored data
            (config.client.commandDataPos + config.unread.length),
          [],
          config.emulator
        ⟩ := by
  obtain ⟨noBlock, noSwallow, clean, starts⟩ := atLine.facts wellFormed more
  have positive : 0 < config.unread.length := List.length_pos_iff.mpr more
  have partialLine
      : (config.client.lineStored data
          (config.client.commandDataPos + config.unread.length)).partialLine
        = config.client.partialLine ++ config.unread := stored
  refine {
    wellFormed := {
      waiting := nofun
      line := fun _ => ⟨?_, ?_⟩
      expecting := nofun
      block := nofun
    }
    socketFd := rfl
    noSurplus := Config.not_surplus_of_read rfl
    progress := Or.inl ?_
  }
  · simp only [Client.lineStored]
    omega
  · exact {
      fits := fits
      starts := by rw [partialLine]; exact starts
      open_ := by rw [partialLine, List.mem_append, not_or]; exact ⟨clean, open_⟩
      noBlock := noBlock
      noSwallow := noSwallow
    }
  · simp only [Config.work, Client.lineStored, List.length_nil, reduceCtorEq, if_false]
    omega

/-- A served line leaves the slot waiting, or expecting a block. -/
private theorem kept_servedLine {config : Config Emulator} {data : Vector UInt8 2048}
    {events : List Event} {line rest : Bytes} {emulator : Emulator} {current : Nat}
    {size : Int} (wellFormed : config.client.WellFormed) (more : config.unread ≠ [])
    (atLine : config.AtLine) (split : config.unread = line ++ newline :: rest)
    : config.Kept events
        ⟨
          (config.client.lineStored data
            (config.client.commandDataPos + line.length + 1)).afterLine current size,
          rest,
          emulator
        ⟩ := by
  obtain ⟨noBlock, noSwallow, _, _⟩ := atLine.facts wellFormed more
  have shorter : rest.length < config.unread.length := by
    rw [split, List.length_append, List.length_cons]
    omega
  by_cases binary : data.head = lowerB
  · have after : (config.client.lineStored data
        (config.client.commandDataPos + line.length + 1)).afterLine current size = _ :=
      if_pos binary
    rw [after]
    refine {
      wellFormed := {
        waiting := nofun
        line := nofun
        expecting := fun _ => ⟨rfl, binary, rfl, rfl⟩
        block := nofun
      }
      socketFd := rfl
      noSurplus := Config.not_surplus_of_state nofun
      progress := Or.inl ?_
    }
    simp only [Config.work, reduceCtorEq, if_false]
    omega
  · have after : (config.client.lineStored data
        (config.client.commandDataPos + line.length + 1)).afterLine current size = _ :=
      if_neg binary
    rw [after]
    refine {
      wellFormed := .of_waiting rfl rfl noBlock noSwallow
      socketFd := rfl
      noSurplus := Config.not_surplus_of_state nofun
      progress := Or.inl ?_
    }
    simp only [Config.work, reduceCtorEq, if_false]
    omega

/-- Header bytes that do not complete the header are kept as a longer header. -/
private theorem kept_openHeader {config : Config Emulator} {client : Client}
    {header : Vector UInt8 5} (wellFormed : config.client.WellFormed)
    (more : config.unread ≠ []) (atHeader : config.AtHeader client)
    (short : client.binaryHeaderSize + config.unread.length < 5)
    (stored
      : header.toList.take (client.binaryHeaderSize + config.unread.length)
        = client.partialHeader ++ config.unread)
    : config.Kept []
        ⟨
          {
            client with
            binaryHeader := header
            binaryHeaderSize := client.binaryHeaderSize + config.unread.length
          },
          [],
          config.emulator
        ⟩ := by
  have facts := atHeader.facts wellFormed more
  have positive : 0 < config.unread.length := List.length_pos_iff.mpr more
  refine {
    wellFormed := .of_block facts.state {
      noLine := facts.noLine
      started := by rw [Client.partialHeader, stored]; exact facts.started
      header := Nat.le_of_lt short
      noBlock := fun _ => facts.noBlock
      block := fun full => absurd full (Nat.ne_of_lt short)
      agreed := fun full => absurd full (Nat.ne_of_lt short)
    }
    socketFd := facts.socketFd
    noSurplus := Config.not_surplus_of_read rfl
    progress := Or.inl ?_
  }
  simp only [Config.work, List.length_nil, facts.state, if_true]
  omega

/-- A block that waits for more bytes is kept. -/
private theorem kept_noData {config : Config Emulator} {client : Client}
    {events : List Event} (wellFormed : config.client.WellFormed)
    (more : config.unread ≠ []) (filling : config.Filling client [] events)
    : config.Kept events ⟨client, [], config.emulator⟩ := by
  have facts := filling.facts wellFormed more
  have positive : 0 < config.unread.length := List.length_pos_iff.mpr more
  refine {
    wellFormed := .of_block facts.state facts.stored
    socketFd := facts.socketFd
    noSurplus := Config.not_surplus_of_read rfl
    progress := Or.inl ?_
  }
  simp only [Config.work, List.length_nil, facts.state, if_true]
  omega

/-- A block that got some of its bytes is kept. -/
private theorem kept_partBlock {config : Config Emulator} {client : Client} {data : Bytes}
    {events : List Event} {block : Block} (wellFormed : config.client.WellFormed)
    (more : config.unread ≠ []) (filling : config.Filling client data events)
    (size : block.size = client.binaryBlockDefinedSize)
    (bytes : block.bytes = client.blockData ++ data)
    : config.Kept events ⟨client.copied block data.length, [], config.emulator⟩ := by
  have facts := filling.facts wellFormed more
  have positive : 0 < config.unread.length := List.length_pos_iff.mpr more
  refine {
    wellFormed := .of_copied facts.state facts.header facts.stored size bytes rfl
    socketFd := facts.socketFd
    noSurplus := Config.not_surplus_of_read rfl
    progress := Or.inl ?_
  }
  simp only [Config.work, List.length_nil, Client.copied, facts.state, if_true]
  omega

/-- A block that was delivered or swallowed leaves the slot waiting. -/
private theorem kept_finished {config : Config Emulator} {client final : Client}
    {data : Bytes} {events more : List Event} {count : Nat} {emulator : Emulator}
    (wellFormed : config.client.WellFormed) (unread : config.unread ≠ [])
    (filling : config.Filling client data more) (state : final.state = .waitingForCommand)
    (position : final.commandDataPos = client.commandDataPos)
    (noBlock : final.binaryBlock = none) (noSwallow : final.shallowBinaryBlock = false)
    (socketFd : final.socketFd = client.socketFd)
    : config.Kept events ⟨final, data.drop count, emulator⟩ := by
  have facts := filling.facts wellFormed unread
  refine {
    wellFormed :=
      .of_waiting state (position.trans facts.stored.noLine) noBlock noSwallow
    socketFd := socketFd.trans facts.socketFd
    noSurplus := Config.not_surplus_of_state (by rw [state]; nofun)
    progress := Or.inl ?_
  }
  simp only [Config.work, List.length_drop, state, reduceCtorEq, if_false]
  rcases filling.unread wellFormed unread with ⟨-, rfl, -, busy⟩ | ⟨shorter, -⟩
  · rw [if_pos busy]
    omega
  · omega

/-- Copying nothing into the current block leaves the client as it is. -/
theorem Client.copied_nothing {client : Client} {old block : Block}
    (here : client.binaryBlock = some old) (size : block.size = old.size)
    (bytes : block.bytes = old.bytes)
    : client.copied block 0 = client := by
  have same : block = old := by
    obtain ⟨blockSize, blockBytes, _⟩ := block
    obtain ⟨oldSize, oldBytes, _⟩ := old
    simp only at size bytes
    simp only [size, bytes]
  rw [same, Client.copied, ← here, Nat.add_zero]

/-- A complete block that is neither delivered nor swallowed stays, and an empty one that
was already there does not change at all.
-/
private theorem kept_stuckBlock {config : Config Emulator} {client : Client}
    {data : Bytes} {events : List Event} {count : Nat} {block : Block}
    (wellFormed : config.client.WellFormed) (unread : config.unread ≠ [])
    (filling : config.Filling client data events) (more : data ≠ [])
    (counted : count = min data.length client.binaryBlockDefinedSize)
    (full : client.binaryBlockSize + count = client.binaryBlockDefinedSize)
    (size : block.size = client.binaryBlockDefinedSize)
    (bytes : block.bytes = client.blockData ++ data.take count)
    (stuck : ¬ client.deliverable)
    : config.Kept events ⟨client.copied block count, data.drop count, config.emulator⟩ := by
  have facts := filling.facts wellFormed unread
  have positive : 0 < data.length := List.length_pos_iff.mpr more
  refine {
    wellFormed := .of_copied facts.state facts.header facts.stored size bytes
      (by rw [List.length_take]; omega)
    socketFd := facts.socketFd
    noSurplus := fun surplus => stuck surplus.deliverable
    progress := ?_
  }
  by_cases moved : 0 < count ∨ data.length < config.unread.length
  · refine Or.inl ?_
    simp only [Config.work, List.length_drop, Client.copied, facts.state, if_true]
    rcases filling.unread wellFormed unread with ⟨-, rfl, -, busy⟩ | ⟨shorter, -⟩
    · rw [if_pos busy]
      omega
    · omega
  · rcases filling.unread wellFormed unread with ⟨rfl, rfl, rfl, busy⟩ | ⟨shorter, -⟩
    · have none : count = 0 := by omega
      subst none
      obtain ⟨old, here, oldSize, position⟩ := facts.stored.block facts.header
      rw [Client.blockData, here, List.take_zero, List.append_nil] at bytes
      refine Or.inr ⟨rfl, ?_, ⟨busy, facts.header, by omega, stuck, unread⟩⟩
      rw [Client.copied_nothing here (size.trans oldSize.symm) bytes, List.drop_zero]
    · exact absurd (Or.inr shorter) moved

/-- Every iteration that goes on keeps the invariant and makes progress or stands still
for ever, by the cases of an iteration.
-/
theorem iteration_kept (host : Host Emulator) {config next : Config Emulator}
    {events : List Event} (wellFormed : config.client.WellFormed)
    (more : config.unread ≠ []) (run : iteration host config = .emit events next)
    : config.Kept events next := by
  have cases := iteration_cases host wellFormed more
  rw [run] at cases
  generalize same : (Reaction.emit events next : Turn Emulator _) = turn at cases
  cases cases with
  | refuseCommand | refuseBlock | refuseSize | longLine | faultyLine | overflow => cases same
  | openLine atLine open_ fits stored =>
      cases same
      exact kept_openLine wellFormed more atLine open_ fits stored
  | servedLine atLine split =>
      cases same
      exact kept_servedLine wellFormed more atLine split
  | openHeader atHeader short stored =>
      cases same
      exact kept_openHeader wellFormed more atHeader short stored
  | noData filling =>
      cases same
      exact kept_noData wellFormed more filling
  | partBlock filling data short size bytes =>
      cases same
      exact kept_partBlock wellFormed more filling size bytes
  | swallowBlock filling =>
      cases same
      exact kept_finished wellFormed more filling rfl rfl rfl rfl rfl
  | writeBlock filling =>
      cases same
      exact kept_finished wellFormed more filling rfl rfl rfl rfl rfl
  | stuckBlock filling data counted full size bytes stuck =>
      cases same
      exact kept_stuckBlock wellFormed more filling data counted full size bytes stuck

/-- An empty block that is stuck makes an iteration return the configuration it was given.
-/
theorem Config.Spins.stalls (host : Host Emulator) {config : Config Emulator}
    (wellFormed : config.client.WellFormed) (spins : config.Spins)
    : iteration host config = .emit [] config := by
  obtain ⟨block, here, size, position⟩ := (wellFormed.block spins.state).block spins.header
  have fits := block.fits
  have counted : 0 = min config.unread.length config.client.binaryBlockDefinedSize := by
    rw [spins.empty, Nat.min_zero]
  have empty := spins.empty
  obtain ⟨copied, copiedSize, copiedBytes, last, -⟩ := copyBlock_fits host config.emulator
    spins.header here spins.more position counted (by omega)
  rw [List.take_zero, List.append_nil] at copiedBytes
  have run : iteration host config = copyBlock host config := by
    simp only [iteration, spins.state, gettingBinaryData, spins.header, Nat.lt_irrefl, if_false]
  rw [run, last (by omega), Client.copied_nothing here copiedSize copiedBytes, List.drop_zero]
  exact finishBlock_stuck host config spins.stuck

/-- `preprocess_data` entered with `config` is, after some iterations, at `later`. -/
abbrev Config.Reaches (host : Host Emulator) : Config Emulator → Config Emulator → Prop :=
  Reaction.Visits (iteration host) Config.running

/-- `preprocess_data` entered with `config` ends with this turn. -/
abbrev Config.Ends (host : Host Emulator)
    : Config Emulator → Turn Emulator (Config Emulator) → Prop :=
  Reaction.Evaluates (iteration host) Config.running

/-- The invariant, the descriptor and the absence of a surplus hold wherever the loop gets.
-/
theorem Config.Reaches.kept {host : Host Emulator} {config later : Config Emulator}
    (reaches : config.Reaches host later) (wellFormed : config.client.WellFormed)
    : later.client.WellFormed
      ∧ later.client.socketFd = config.client.socketFd
      ∧ (¬ config.Surplus → ¬ later.Surplus) := by
  refine reaches.invariant
    (motive := fun later =>
      later.client.WellFormed
      ∧ later.client.socketFd = config.client.socketFd
      ∧ (¬ config.Surplus → ¬ later.Surplus))
    ⟨wellFormed, rfl, id⟩ ?_
  rintro before after ⟨beforeFormed, beforeFd, -⟩ ⟨more, run⟩
  rcases (iteration host before).cases_eq with ⟨events, next, eq⟩ | ⟨events, reason, eq⟩
  · have kept := iteration_kept host beforeFormed more eq
    rw [eq] at run
    cases run
    exact ⟨kept.wellFormed, kept.socketFd.trans beforeFd, fun _ => kept.noSurplus⟩
  · rw [eq] at run
    cases run

/-- The fuel of `preprocess_data` decides its loop: the computed turn is the one with which
the loop ends, or the loop reaches an empty stuck block and never ends.
-/
theorem preprocessData_decides (host : Host Emulator) {config : Config Emulator}
    (wellFormed : config.client.WellFormed)
    : config.Ends host (preprocessData host config)
      ∨ ∃ stuck,
          config.Reaches host stuck
          ∧ stuck.Spins
          ∧ (preprocessData host config).result = .error ⟨.spinning, stuck⟩ := by
  have keeps (before after : Config Emulator) (formed : before.client.WellFormed)
      (iterates : Reaction.Iterates (iteration host) Config.running before after)
      : after.client.WellFormed :=
    (Config.Reaches.kept (.single iterates) formed).1
  have progress (before after : Config Emulator) (outputs : List Event)
      (formed : before.client.WellFormed) (more : before.running)
      (run : iteration host before = .emit outputs after)
      : after.work < before.work ∨ (outputs = [] ∧ after = before) :=
    (iteration_kept host formed more run).progress.imp_right
      (fun still => ⟨still.1, still.2.1⟩)
  rw [preprocessData, preprocessLoop]
  refine (Reaction.runWhile_decides Config.work keeps progress wellFormed
    (Nat.lt_succ_self config.work)).imp_right ?_
  rintro ⟨stuck, reaches, more, stalls, result⟩
  refine ⟨stuck, reaches, ?_, result⟩
  have formed := (Config.Reaches.kept reaches wellFormed).1
  rcases (iteration_kept host formed more stalls).progress with less | ⟨-, -, spins⟩
  · exact absurd less (Nat.lt_irrefl _)
  · exact spins

end NetworkAccess
