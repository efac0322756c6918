import NetworkAccess.Library.Segments
import NetworkAccess.Parser.Runs

/-! `preprocess_data` simulates the byte reader: one iteration followed by what the reader
makes of the rest is what the reader makes of the whole, unless the iteration is at a
surplus. Whole loops and whole runs follow.
-/

namespace NetworkAccess

variable {Emulator : Type}

/-- Why processing ended and the emulator it left, without the configuration. -/
def Stopped.final (stopped : Stopped Emulator) : Ending × Emulator :=
  (stopped.ending, stopped.config.emulator)

/-- What the reader makes of the bytes that are left of the read. -/
def Config.meaning (host : Host Emulator) (config : Config Emulator)
    : Reading Emulator (Parser × Emulator) :=
  Parser.readBytes host (config.client.parser, config.emulator) config.unread

/-- What the server did, followed by what the reader makes of the rest. -/
def follow (host : Host Emulator) (turn : Turn Emulator (Config Emulator))
    : Reading Emulator (Parser × Emulator) :=
  (turn.project id Stopped.final).andThen (Config.meaning host)

/-- What follows a turn that goes on is the meaning of its configuration. -/
@[simp] theorem follow_emit (host : Host Emulator) (events : List Event)
    (config : Config Emulator)
    : follow host (.emit events config) = (config.meaning host).prepend events := rfl

/-- Nothing follows a turn that stops. -/
@[simp] theorem follow_stop (host : Host Emulator) (events : List Event)
    (stopped : Stopped Emulator)
    : follow host (.stop events stopped) = .stop events stopped.final := rfl

/-- Events in front come first. -/
@[simp] theorem follow_prepend (host : Host Emulator) (events : List Event)
    (turn : Turn Emulator (Config Emulator))
    : follow host (turn.prepend events) = (follow host turn).prepend events := by
  rw [follow, Reaction.project_prepend, Reaction.prepend_andThen]
  rfl

/-- A read that is used up means nothing more. -/
theorem Config.meaning_of_read (host : Host Emulator) {config : Config Emulator}
    (ended : config.unread = [])
    : config.meaning host = .emit [] (config.client.parser, config.emulator) := by
  rw [meaning, ended, Parser.readBytes_nil]

/-- A refusal is the reader's refusal. -/
theorem follow_refuse (host : Host Emulator) (config : Config Emulator) (reason : Bytes)
    : follow host (refuse host config reason)
      = Parser.refuse host config.client.parser config.emulator reason := rfl

/-- A slot's reader, with its phase spelled out. -/
theorem Client.parser_of_phase {client : Client} {phase : Phase} (here : client.phase = phase)
    : client.parser = { client.parser with phase } := by
  rw [← here]
  rfl

/-- At a line, the unread bytes continue the stored ones. -/
theorem Config.AtLine.meaning {config : Config Emulator} (host : Host Emulator)
    (atLine : config.AtLine) (wellFormed : config.client.WellFormed)
    (more : config.unread ≠ [])
    : config.meaning host
      = Parser.readLine host config.client.parser config.emulator config.client.partialLine
          config.unread := by
  rw [Config.meaning]
  rcases atLine with ⟨state, starts⟩ | state
  · obtain ⟨byte, rest, split⟩ := List.exists_cons_of_ne_nil more
    have empty : config.client.partialLine = [] := by
      rw [Client.partialLine, (wellFormed.waiting state).1, List.take_zero]
    have idle : config.client.parser.phase = .idle := by
      simp only [Client.parser, Client.phase, state]
    rw [split, List.headD_cons] at starts
    rw [split, empty, Parser.readBytes_idle host _ _ idle _ _ starts]
  · have phase : config.client.phase = .line config.client.partialLine := by
      simp only [Client.phase, state]
    rw [Client.parser_of_phase phase, Parser.readBytes_line]
    rfl

/-- The stored line is as long as the slot says and fits the buffer. -/
theorem Config.AtLine.length {config : Config Emulator} (atLine : config.AtLine)
    (wellFormed : config.client.WellFormed)
    : config.client.commandDataPos ≤ 2048
      ∧ config.client.partialLine.length = config.client.commandDataPos := by
  have fits : config.client.commandDataPos ≤ 2048 := by
    rcases atLine with ⟨state, -⟩ | state
    · rw [(wellFormed.waiting state).1]
      omega
    · exact (wellFormed.line state).2.fits
  refine ⟨fits, ?_⟩
  rw [Client.partialLine, List.length_take, Vector.length_toList]
  omega

/-- The first byte of a stored line is the first byte of the buffer. -/
theorem head_of_stored {data : Vector UInt8 2048} {count : Nat} {line : Bytes}
    (stored : data.toList.take (count + 1) = line)
    : line.head? = some data.head := by
  rw [← stored, List.head?_take, if_neg (Nat.succ_ne_zero count), List.head?_eq_getElem?,
    Vector.getElem?_toList, Vector.getElem?_eq_getElem (Nat.pos_of_neZero 2048)]
  rfl

/-- The slot after a line stands for the reader after the line. -/
theorem Client.parser_afterLine {client : Client} (resolution : Resolution Emulator)
    (size : Int) {line : Bytes} (first : line.head? = some client.commandData.head)
    (noSwallow : client.shallowBinaryBlock = false)
    : (client.afterLine (resolution.current client.currentCommand) size).parser
      = {
        client.parser with
        phase := .after line size
        writes := resolution.writes client.parser.writes
      } := by
  by_cases binary : client.commandData.head = lowerB
  · have swallow : (if size < 0 then true else client.shallowBinaryBlock) = decide (size < 0) := by
      by_cases negative : size < 0 <;> simp [negative, noSwallow]
    rw [afterLine, if_pos binary, Phase.after, if_pos (first.trans (congrArg some binary))]
    simp only [parser, phase, ticket, swallow, Resolution.writes_current]
  · have other : line.head? ≠ some lowerB := by simpa [first] using binary
    rw [afterLine, if_neg binary, Phase.after, if_neg other]
    simp only [parser, phase, Resolution.writes_current]

/-- At a header, the unread bytes continue the stored ones. -/
theorem Config.AtHeader.meaning {config : Config Emulator} {client : Client}
    (host : Host Emulator) (atHeader : config.AtHeader client)
    (more : config.unread ≠ [])
    : config.meaning host
      = Parser.readBytes host
          (
            {
              client.parser with
              phase := .header client.ticket client.partialHeader
            },
            config.emulator
          )
          config.unread := by
  cases atHeader with
  | first state zero =>
      obtain ⟨byte, rest, split⟩ := List.exists_cons_of_ne_nil more
      rw [split, List.headD_cons] at zero
      have expecting : config.client.parser.phase = .expecting config.client.ticket := by
        simp only [Client.parser, Client.phase, state]
      rw [Config.meaning, split, zero, Parser.readBytes_expecting host _ _ expecting]
      rfl
  | resumed state short =>
      have phase
          : config.client.phase
            = .header config.client.ticket config.client.partialHeader := by
        simp only [Client.phase, state, short, if_true]
      rw [Config.meaning, ← Client.parser_of_phase phase]

/-- A complete header, as the reader sees it. -/
theorem Config.AtHeader.meaning_complete {config : Config Emulator} {client : Client}
    (host : Host Emulator) (atHeader : config.AtHeader client)
    (wellFormed : config.client.WellFormed) (more : config.unread ≠ [])
    {front rest : Bytes} {header : Vector UInt8 5} (split : config.unread = front ++ rest)
    (complete : client.binaryHeaderSize + front.length = 5)
    (stored : header.toList = client.partialHeader ++ front)
    : config.meaning host
      = (Parser.headerDone host client.parser config.emulator client.ticket
          header.toList).andThen (fun next => Parser.readBytes host next rest) := by
  have short := (atHeader.facts wellFormed more).short
  have length := (atHeader.facts wellFormed more).length
  rw [atHeader.meaning host more, split, Parser.readBytes_append,
    Parser.readBytes_headerDone _ _ _ _ _ _ (by omega) (by omega), stored]

/-- The phase of a slot whose header is complete. -/
theorem Client.phase_of_header {client : Client} (state : client.state = .gettingBinaryData)
    (header : client.binaryHeaderSize = 5)
    : client.phase = .block client.ticket client.binaryBlockDefinedSize client.blockData := by
  simp only [phase, state, header, Nat.lt_irrefl, if_false]

/-- Only a slot with a complete header stands for a reader inside a block. -/
theorem Client.state_of_block {client : Client} (wellFormed : client.WellFormed)
    {ticket : Ticket} {size : Nat} {data : Bytes}
    (inside : client.parser.phase = .block ticket size data)
    : client.state = .gettingBinaryData ∧ client.binaryHeaderSize = 5 := by
  simp only [parser, phase] at inside
  split at inside
  case h_4 state =>
    have header := (wellFormed.block state).header
    split at inside
    case isTrue => cases inside
    case isFalse complete => exact ⟨state, by omega⟩
  all_goals cases inside

/-- At a copy, the reader has consumed the header and is inside the block. -/
theorem Config.Filling.meaning {config : Config Emulator} {client : Client} {data : Bytes}
    {events : List Event} (host : Host Emulator) (filling : config.Filling client data events)
    (wellFormed : config.client.WellFormed) (more : config.unread ≠ [])
    : config.meaning host
      = (Parser.readBytes host (client.parser, config.emulator) data).prepend events := by
  cases filling with
  | resumed => rfl
  | @opened client front rest header atHeader split complete stored agreed =>
      have facts := atHeader.facts wellFormed more
      have phase : (client.openBlock header).phase = .block client.ticket _ [] :=
        Client.phase_of_header facts.state rfl
      rw [atHeader.meaning_complete host wellFormed more split complete stored,
        Parser.headerDone_agreed host _ _ agreed, Reaction.emit_andThen,
        Client.parser_of_phase phase]
      rfl

/-- The block that a copy step fills, as the reader holds it. -/
structure Config.BlockReader (config : Config Emulator) (client : Client) : Prop where
  parser
    : client.parser
      = {
        client.parser with
        phase := .block client.ticket client.binaryBlockDefinedSize client.blockData
      }
  length : client.blockData.length = client.binaryBlockSize
  fits : client.binaryBlockSize ≤ client.binaryBlockDefinedSize

/-- A slot at the bytes of a block stands for a reader inside of it. -/
theorem Config.BlockFacts.reader {config : Config Emulator} {client : Client}
    (facts : config.BlockFacts client)
    : config.BlockReader client := by
  obtain ⟨block, here, size, position⟩ := facts.stored.block facts.header
  have fits := block.fits
  have blockData : client.blockData = block.bytes := by rw [Client.blockData, here]; rfl
  exact {
    parser := Client.parser_of_phase (Client.phase_of_header facts.state facts.header)
    length := by rw [blockData, position]
    fits := by omega
  }

/-- Copied bytes move to the stored part of the block. -/
theorem Config.BlockFacts.copied {config : Config Emulator} {client : Client}
    (facts : config.BlockFacts client) {block : Block} {bytes : Bytes}
    (stored : block.bytes = client.blockData ++ bytes) (count : Nat)
    : (client.copied block count).parser
      = {
        client.parser with
        phase :=
          .block client.ticket client.binaryBlockDefinedSize (client.blockData ++ bytes)
      } := by
  have whole : (client.copied block count).blockData = client.blockData ++ bytes := stored
  have phase
      : (client.copied block count).phase
        = .block client.ticket client.binaryBlockDefinedSize
            (client.copied block count).blockData :=
    Client.phase_of_header facts.state facts.header
  rw [whole] at phase
  exact Client.parser_of_phase phase

/-- Bytes that fill up a block make the reader finish it. -/
theorem Config.BlockReader.fill {config : Config Emulator} {client : Client}
    (host : Host Emulator) (emulator : Emulator) (reader : config.BlockReader client)
    {data : Bytes} {count : Nat} (positive : 0 < count) (available : count ≤ data.length)
    (full : client.binaryBlockSize + count = client.binaryBlockDefinedSize)
    : Parser.readBytes host (client.parser, emulator) data
      = (Parser.finish host client.parser emulator client.ticket
          (client.blockData ++ data.take count)).andThen
            (fun next => Parser.readBytes host next (data.drop count)) := by
  have length := reader.length
  have taken : (data.take count).length = count := List.length_take_of_le available
  conv_lhs => rw [reader.parser, ← List.take_append_drop count data]
  rw [Parser.readBytes_append,
    Parser.readBytes_blockDone _ _ _ _ _ _ _ (by omega) (by omega)]

/-- Bytes that complete a block finish it; a block of size 0 is finished by the byte
behind it.
-/
theorem Config.BlockReader.complete {config : Config Emulator} {client : Client}
    (host : Host Emulator) (emulator : Emulator) (reader : config.BlockReader client)
    {data : Bytes} {count : Nat} (more : data ≠ [])
    (counted : count = min data.length client.binaryBlockDefinedSize)
    (full : client.binaryBlockSize + count = client.binaryBlockDefinedSize)
    (deliverable : client.deliverable)
    : Parser.readBytes host (client.parser, emulator) data
      = (Parser.finish host client.parser emulator client.ticket
          (client.blockData ++ data.take count)).andThen
            (fun next => Parser.readBytes host next (data.drop count)) := by
  have length := reader.length
  have positive : 0 < data.length := List.length_pos_iff.mpr more
  by_cases empty : client.binaryBlockDefinedSize = 0
  · have none : count = 0 := by omega
    have noData : client.blockData = [] := List.length_eq_zero_iff.mp (by omega)
    obtain ⟨byte, rest, split⟩ := List.exists_cons_of_ne_nil more
    conv_lhs => rw [reader.parser, split, empty, noData]
    rw [Parser.readBytes_emptyBlock host client.parser _ _ _ _
        (client.deliverable_iff.mp deliverable),
      split, noData, none, List.take_zero, List.drop_zero, List.append_nil]
  · exact reader.fill host emulator (by omega) (by omega) full

-----------------------------------------------------------------------------------------
-- One iteration
-----------------------------------------------------------------------------------------

/-- A copy that does not fit although there is no surplus is at a block that nothing can
finish: the reader has no room for the bytes behind it either.
-/
private theorem simulates_overflow (host : Host Emulator) {config : Config Emulator}
    {client : Client} {data : Bytes} {events : List Event}
    (wellFormed : config.client.WellFormed) (unread : config.unread ≠ [])
    (calm : ¬ config.Surplus) (filling : config.Filling client data events)
    (more : data ≠ [])
    (full
      : client.binaryBlockDefinedSize
        < client.binaryBlockSize + min data.length client.binaryBlockDefinedSize)
    : config.meaning host = .stop events (.undefined .blockOverflow, config.emulator) := by
  have facts := filling.facts wellFormed unread
  have reader := facts.reader
  have length := reader.length
  have fits := reader.fits
  have begun : 0 < client.binaryBlockSize := by omega
  have stored : client.blockData ≠ [] := by
    intro empty
    rw [empty, List.length_nil] at length
    omega
  suffices overflow
      : Parser.readBytes host (client.parser, config.emulator) data
        = .stop [] (.undefined .blockOverflow, config.emulator) by
    rw [filling.meaning host wellFormed unread, overflow, Reaction.prepend_stop,
      List.append_nil]
  by_cases unfinished : client.binaryBlockSize < client.binaryBlockDefinedSize
  · -- Without a surplus the block cannot be finished, and its last byte leaves it full.
    have stuck : ¬ client.deliverable := by
      rcases filling.unread wellFormed unread with ⟨rfl, rfl, -, state⟩ | ⟨-, empty⟩
      · exact fun deliverable =>
          calm ⟨state, facts.header, begun, unfinished, by omega, deliverable⟩
      · omega
    rw [Client.deliverable_iff] at stuck
    obtain ⟨count, behind⟩
        : ∃ count, client.binaryBlockSize + count = client.binaryBlockDefinedSize :=
      ⟨_, Nat.add_sub_of_le fits⟩
    obtain ⟨byte, rest, surplus⟩ := List.exists_cons_of_ne_nil
      (List.drop_eq_nil_iff.not.mpr (by omega : ¬ data.length ≤ count))
    rw [reader.fill host config.emulator (by omega) (by omega) behind,
      Parser.finish_stuck _ _ _ stuck, Reaction.emit_andThen, Reaction.prepend_nil, surplus,
      Parser.readBytes_fullBlock _ _ _ _ _ (List.append_ne_nil_of_left_ne_nil stored _)]
  · obtain ⟨byte, rest, split⟩ := List.exists_cons_of_ne_nil more
    have size : client.binaryBlockDefinedSize = client.blockData.length := by omega
    rw [reader.parser, split, size, Parser.readBytes_fullBlock _ _ _ _ _ stored]

/-- The bytes that complete a block which nothing can finish leave it full. -/
private theorem simulates_stuck (host : Host Emulator) {config : Config Emulator}
    {client : Client} {data : Bytes} {events : List Event} {count : Nat} {block : Block}
    (wellFormed : config.client.WellFormed) (unread : config.unread ≠ [])
    (filling : config.Filling client data events)
    (counted : count = min data.length client.binaryBlockDefinedSize)
    (full : client.binaryBlockSize + count = client.binaryBlockDefinedSize)
    (bytes : block.bytes = client.blockData ++ data.take count)
    (stuck : ¬ client.deliverable)
    : Config.meaning host ⟨client.copied block count, data.drop count, config.emulator⟩
      = Parser.readBytes host (client.parser, config.emulator) data := by
  have facts := filling.facts wellFormed unread
  have reader := facts.reader
  have length := reader.length
  rw [Config.meaning, facts.copied bytes]
  rw [Client.deliverable_iff] at stuck
  by_cases none : count = 0
  · rw [none, List.take_zero, List.drop_zero, List.append_nil, reader.parser]
  · have taken : (client.blockData ++ data.take count).length = client.binaryBlockDefinedSize := by
      rw [List.length_append, List.length_take]
      omega
    rw [reader.fill host config.emulator (by omega) (by omega) full,
      Parser.finish_stuck _ _ _ stuck, Reaction.emit_andThen, Reaction.prepend_nil, taken]

/-- One iteration followed by what the reader makes of the rest is what the reader makes
of the whole, by the cases of an iteration.
-/
theorem iteration_simulates (host : Host Emulator) {config : Config Emulator}
    (wellFormed : config.client.WellFormed) (more : config.unread ≠ [])
    (calm : ¬ config.Surplus)
    : follow host (iteration host config) = config.meaning host := by
  have cases := iteration_cases host wellFormed more
  generalize iteration host config = turn at cases
  cases cases with
  | refuseCommand state bad =>
      obtain ⟨byte, rest, split⟩ := List.exists_cons_of_ne_nil more
      rw [split, List.headD_cons] at bad
      have idle : config.client.parser.phase = .idle := by
        simp only [Client.parser, Client.phase, state]
      rw [follow_refuse, Config.meaning, split, Parser.readBytes_cons,
        Parser.step_of_open host config.client.parser _ (by rw [idle]; trivial)]
      simp only [Parser.consume, idle, bad, Bool.false_eq_true, if_false]
      rfl
  | refuseBlock state bad =>
      obtain ⟨byte, rest, split⟩ := List.exists_cons_of_ne_nil more
      rw [split, List.headD_cons] at bad
      have expecting : config.client.parser.phase = .expecting config.client.ticket := by
        simp only [Client.parser, Client.phase, state]
      rw [follow_refuse, Config.meaning, split, Parser.readBytes_cons,
        Parser.step_of_open host config.client.parser _ (by rw [expecting]; trivial)]
      simp only [Parser.consume, expecting, ne_eq, bad, not_false_eq_true, if_true]
      rfl
  | refuseSize atHeader split complete stored mismatch =>
      rw [atHeader.meaning_complete host wellFormed more split complete stored,
        Parser.headerDone_mismatch host _ _ mismatch, follow_prepend, follow_refuse]
      rfl
  | openLine atLine open_ fits stored =>
      have length := (atLine.length wellFormed).2
      have phase
          : Client.phase (config.client.lineStored _ _)
            = .line (config.client.partialLine ++ config.unread) :=
        congrArg Phase.line stored
      rw [follow_emit, Config.meaning_of_read host rfl, atLine.meaning host wellFormed more,
        Parser.readLine_open _ _ _ _ _ open_ (by omega), Client.parser_of_phase phase]
      rfl
  | longLine atLine split open_ long emulator =>
      obtain ⟨room, length⟩ := atLine.length wellFormed
      rw [atLine.meaning host wellFormed more, split,
        Parser.readLine_overflow _ _ _ _ _ _ open_ (by omega) (by omega), follow_stop,
        Stopped.final, emulator]
  | faultyLine atLine split open_ fits tokens emulator =>
      have length := (atLine.length wellFormed).2
      rw [atLine.meaning host wellFormed more, split,
        Parser.readLine_complete _ _ _ _ _ _ open_ (by omega), Parser.dispatch, tokens,
        follow_stop, Stopped.final, emulator]
      rfl
  | @servedLine line rest data cmd args served atLine split open_ fits stored tokens serves =>
      have length := (atLine.length wellFormed).2
      obtain ⟨_, noSwallow, _, _⟩ := atLine.facts wellFormed more
      let filled := config.client.lineStored data
        (config.client.commandDataPos + line.length + 1)
      have after
          : (filled.afterLine ((resolve host cmd).current config.client.currentCommand)
              served.size).parser
            = {
              config.client.parser with
              phase := .after (config.client.partialLine ++ line ++ [newline]) served.size
              writes := (resolve host cmd).writes config.client.parser.writes
            } :=
        Client.parser_afterLine _ _ (head_of_stored stored) noSwallow
      rw [atLine.meaning host wellFormed more, split,
        Parser.readLine_complete _ _ _ _ _ _ open_ (by omega), Parser.dispatch, tokens,
        follow_emit, Config.meaning, after, serves]
      rfl
  | @openHeader client header atHeader short stored =>
      have facts := atHeader.facts wellFormed more
      have length := facts.length
      let filled : Client := {
        client with
        binaryHeader := header
        binaryHeaderSize := client.binaryHeaderSize + config.unread.length
      }
      have phase
          : filled.phase = .header client.ticket (client.partialHeader ++ config.unread) := by
        rw [← stored, Client.phase, show filled.state = _ from facts.state]
        exact if_pos short
      rw [follow_emit, Config.meaning_of_read host rfl, atHeader.meaning host more,
        Parser.readBytes_header _ _ _ _ _ _ (by omega)]
      dsimp only
      rw [Client.parser_of_phase phase]
      rfl
  | noData filling =>
      rw [follow_emit, Config.meaning_of_read host rfl, filling.meaning host wellFormed more,
        Parser.readBytes_nil]
  | overflow filling data full =>
      rw [follow_stop, simulates_overflow host wellFormed more calm filling data full]
      rfl
  | partBlock filling data short size bytes =>
      have facts := filling.facts wellFormed more
      have reader := facts.reader
      have length := reader.length
      rw [filling.meaning host wellFormed more, reader.parser,
        Parser.readBytes_block _ _ _ _ _ _ _ (by omega), follow_emit,
        Config.meaning_of_read host rfl, facts.copied bytes]
  | swallowBlock filling data counted full swallow =>
      have reader := (filling.facts wellFormed more).reader
      rw [filling.meaning host wellFormed more,
        reader.complete host _ data counted full (.inl swallow),
        Parser.finish_swallow host _ _ swallow, follow_emit, Reaction.emit_andThen,
        Reaction.prepend_prepend]
      rfl
  | writeBlock filling data counted full keep writes =>
      have reader := (filling.facts wellFormed more).reader
      rw [filling.meaning host wellFormed more,
        reader.complete host _ data counted full (.inr writes),
        Parser.finish_write host _ _ keep (decide_eq_true writes), follow_emit,
        Reaction.emit_andThen, Reaction.prepend_prepend]
      rfl
  | stuckBlock filling data counted full size bytes stuck =>
      rw [follow_emit, filling.meaning host wellFormed more,
        simulates_stuck host wellFormed more filling counted full bytes stuck]

-----------------------------------------------------------------------------------------
-- Whole loops and whole runs
-----------------------------------------------------------------------------------------

/-- The reader never gets past an empty block that nothing can finish. -/
theorem Config.Spins.meaning {config : Config Emulator} (host : Host Emulator)
    (wellFormed : config.client.WellFormed) (spins : config.Spins)
    : config.meaning host = .stop [] (.spinning, config.emulator) := by
  have facts := (Config.Filling.resumed spins.state spins.header).facts wellFormed spins.more
  have reader := facts.reader
  have length := reader.length
  have fits := reader.fits
  have empty := spins.empty
  have noData : config.client.blockData = [] := List.length_eq_zero_iff.mp (by omega)
  have stuck := spins.stuck
  rw [Client.deliverable_iff] at stuck
  obtain ⟨byte, rest, split⟩ := List.exists_cons_of_ne_nil spins.more
  rw [Config.meaning, reader.parser, split, empty, noData, Parser.readBytes_cons, Parser.step,
    Parser.settle_stuck host _ _ stuck, Reaction.stop_andThen, Reaction.stop_andThen]

/-- The reader and the emulator that a loop ends with. -/
def Config.reader (config : Config Emulator) : Parser × Emulator :=
  (config.client.parser, config.emulator)

/-- Enough iterations do what the reader does, by induction on their number. -/
theorem preprocessLoop_simulates (host : Host Emulator) (fuel : Nat)
    {config : Config Emulator} (wellFormed : config.client.WellFormed)
    (calm : ¬ config.Surplus) (enough : config.work < fuel ∨ config.Spins)
    : (preprocessLoop host fuel config).project Config.reader Stopped.final
      = config.meaning host := by
  induction fuel generalizing config with
  | zero =>
      have spins : config.Spins := enough.resolve_left (Nat.not_lt_zero _)
      rw [spins.meaning host wellFormed, preprocessLoop, Reaction.runWhile,
        if_pos (show config.running from spins.more)]
      rfl
  | succ fuel ih =>
      by_cases more : config.unread = []
      · rw [preprocessLoop, Reaction.runWhile_of_not_running (fun runs => runs more),
          Config.meaning_of_read host more]
        rfl
      · rw [preprocessLoop, Reaction.runWhile, if_pos (show config.running from more),
          ← iteration_simulates host wellFormed more calm]
        rcases (iteration host config).cases_eq with
          ⟨events, next, run⟩ | ⟨events, reason, run⟩
        · have kept := iteration_kept host wellFormed more run
          have left : next.work < fuel ∨ next.Spins := by
            rcases kept.progress with less | ⟨-, rfl, spins⟩
            · rcases enough with bound | spins
              · exact Or.inl (by omega)
              · have stalls := spins.stalls host wellFormed
                rw [run] at stalls
                cases stalls
                exact Or.inr spins
            · exact Or.inr spins
          rw [run, Reaction.emit_andThen, Reaction.project_prepend, follow_emit]
          exact congrArg _ (ih kept.wellFormed kept.noSurplus left)
        · rw [run]
          rfl

/-- `preprocess_data` without a surplus does what the reader does with the read. -/
theorem preprocessData_simulates (host : Host Emulator) {config : Config Emulator}
    (wellFormed : config.client.WellFormed) (calm : ¬ config.Surplus)
    : (preprocessData host config).project Config.reader Stopped.final
      = config.meaning host :=
  preprocessLoop_simulates host _ wellFormed calm (.inl (Nat.lt_succ_self _))

/-- A turn that the reader ends stopped for the reader's reason. -/
theorem stopped_of_project {State Next : Type} {turn : Turn Emulator State}
    {live : State → Next} {events : List Event} {ending : Ending} {emulator : Emulator}
    (projects : turn.project live Stopped.final = .stop events (ending, emulator))
    : turn.emitted = events ∧ ∃ final, turn.result = .error ⟨ending, final⟩ := by
  rcases turn.cases_eq with ⟨outputs, state, rfl⟩ | ⟨outputs, ⟨reason, final⟩, rfl⟩
  · cases projects
  · cases projects
    exact ⟨rfl, final, rfl⟩

/-- The reader and the emulator between two reads. -/
def readerOf (state : Client × Emulator) : Parser × Emulator := (state.1.parser, state.2)

/-- A read that does not end a block of an earlier read with bytes behind it. -/
def Calm (state : Client × Emulator) (read : ClientRead) : Prop :=
  ¬ (Config.enter state.1 state.2 read).Surplus

/-- Each calm read is handled as the reader reads its bytes. -/
theorem feedRead_readsAs (host : Host Emulator)
    : Reaction.ReadsAs (feedRead host) Calm ClientRead.bytes (Parser.step host) readerOf
        Stopped.final (fun state => state.1.WellFormed) where
  agrees := by
    intro state read wellFormed calm
    have simulates : (preprocessData host (Config.enter state.1 state.2 read)).project
          Config.reader Stopped.final
        = Parser.readBytes host (readerOf state) read.bytes :=
      preprocessData_simulates host (wellFormed.read read.bytes) calm
    have returned
        : (feedRead host state read).project readerOf Stopped.final
          = (preprocessData host (Config.enter state.1 state.2 read)).project Config.reader
              Stopped.final := by
      rw [feedRead]
      rcases (preprocessData host (Config.enter state.1 state.2 read)).cases_eq with
        ⟨events, last, run⟩ | ⟨events, reason, run⟩
      · rw [run, Reaction.bind_eq, Reaction.emit_andThen, Reaction.pure_eq,
          Reaction.prepend_emit, List.append_nil]
        rfl
      · rw [run]
        rfl
    exact returned.trans simulates
  keeps := fun _ _ _ wellFormed _ continues => (feedRead_kept wellFormed continues).1

/-- A calm read that returns brings the reader to where the slot is. -/
theorem feedRead_reads {host : Host Emulator} {state next : Client × Emulator}
    {read : ClientRead} (wellFormed : state.1.WellFormed) (calm : Calm state read)
    (continues : (feedRead host state read).result = .ok next)
    : Parser.readBytes host (readerOf state) read.bytes
      = .emit (feedRead host state read).emitted (readerOf next) := by
  have agrees := (feedRead_readsAs host).agrees state read wellFormed calm
  rcases (feedRead host state read).cases_eq with ⟨events, last, run⟩ | ⟨events, reason, run⟩
  · rw [run] at continues agrees ⊢
    cases continues
    exact agrees.symm
  · rw [run] at continues
    cases continues

/-- A run of calm reads does what the reader does with the concatenated bytes. -/
theorem feedReads_simulates {host : Host Emulator} {state : Client × Emulator}
    {reads : List ClientRead} (wellFormed : state.1.WellFormed)
    (calm : Reaction.CalmAlong (feedRead host) Calm state reads)
    : (feedReads host state reads).project readerOf Stopped.final
      = Parser.readBytes host (readerOf state) (reads.flatMap ClientRead.bytes) :=
  (feedRead_readsAs host).foldlM wellFormed calm

/-- A block that can be finished is released by its last byte. -/
theorem Parser.finish_releases (host : Host Emulator) (parser : Parser) (emulator : Emulator)
    {ticket : Ticket} (done : ticket.swallow ∨ parser.writes) (data : Bytes)
    : .blockReleased parser.socket ∈ (finish host parser emulator ticket data).emitted := by
  by_cases swallow : ticket.swallow
  · rw [finish_swallow host parser emulator swallow]
    exact List.mem_singleton.mpr rfl
  · rw [finish_write host parser emulator (by simpa using swallow) (done.resolve_left swallow)]
    exact List.mem_cons_of_mem _ (List.mem_singleton.mpr rfl)

/-- At a surplus the reader releases a block before the read ends. -/
theorem Config.Surplus.releases {state : Client × Emulator} {read : ClientRead}
    (host : Host Emulator) (wellFormed : state.1.WellFormed)
    (surplus : (Config.enter state.1 state.2 read).Surplus)
    : ∃ front back,
        read.bytes = front ++ back
        ∧ back ≠ []
        ∧ .blockReleased state.1.socketFd
          ∈ (Parser.readBytes host (readerOf state) front).emitted := by
  have filling := Config.Filling.resumed surplus.state surplus.header
  have reader := (filling.facts (wellFormed.read read.bytes) read.nonempty).reader
  obtain ⟨count, full⟩
      : ∃ count, state.1.binaryBlockSize + count = state.1.binaryBlockDefinedSize :=
    ⟨_, Nat.add_sub_of_le (Nat.le_of_lt surplus.unfinished)⟩
  have unfinished : state.1.binaryBlockSize < state.1.binaryBlockDefinedSize :=
    surplus.unfinished
  have behind : state.1.binaryBlockDefinedSize < state.1.binaryBlockSize + read.bytes.length :=
    surplus.behind
  refine ⟨read.bytes.take count, read.bytes.drop count,
    (List.take_append_drop count read.bytes).symm,
    List.drop_eq_nil_iff.not.mpr (by omega : ¬ read.bytes.length ≤ count), ?_⟩
  have available : count ≤ (read.bytes.take count).length := by
    rw [List.length_take]
    omega
  have fills := reader.fill host state.2 (by omega) available full
  have released := Parser.finish_releases host state.1.parser state.2
    (state.1.deliverable_iff.mp surplus.deliverable)
    (state.1.blockData ++ (read.bytes.take count).take count)
  have start : readerOf state = ((Config.enter state.1 state.2 read).client.parser, state.2) := rfl
  rw [start, fills]
  exact (Reaction.emitted_prefix_andThen _ _).subset released

/-- If the reader releases no block before the end of the stream, every way of cutting it
is calm, by induction on the reads.
-/
theorem calmAlong_of_silent {host : Host Emulator} {state : Client × Emulator}
    {reads : List ClientRead} (wellFormed : state.1.WellFormed)
    (silent
      : ∀ front back,
          reads.flatMap ClientRead.bytes = front ++ back
          → back ≠ []
          → .blockReleased state.1.socketFd
            ∉ (Parser.readBytes host (readerOf state) front).emitted)
    : Reaction.CalmAlong (feedRead host) Calm state reads := by
  induction reads generalizing state with
  | nil => trivial
  | cons read rest ih =>
      have calm : Calm state read := by
        intro surplus
        obtain ⟨front, back, split, more, released⟩ := surplus.releases host wellFormed
        refine silent front (back ++ rest.flatMap ClientRead.bytes) ?_
          (List.append_ne_nil_of_left_ne_nil more _) released
        rw [List.flatMap_cons, split, List.append_assoc]
      refine ⟨calm, fun next continues => ?_⟩
      have kept := feedRead_kept wellFormed continues
      refine ih kept.1 (fun front back split more released => ?_)
      refine silent (read.bytes ++ front) back ?_ more ?_
      · rw [List.flatMap_cons, split, List.append_assoc]
      · rw [Parser.readBytes_append, feedRead_reads wellFormed calm continues,
          Reaction.emit_andThen, Reaction.emitted_prepend, ← kept.2]
        exact List.mem_append_right _ released

/-- A stream in which the reader releases no block at all is calm in every cut. -/
theorem calmAlong_of_no_release {host : Host Emulator} {state : Client × Emulator}
    {reads : List ClientRead} (wellFormed : state.1.WellFormed)
    (silent
      : .blockReleased state.1.socketFd
        ∉ (Parser.readBytes host (readerOf state)
            (reads.flatMap ClientRead.bytes)).emitted)
    : Reaction.CalmAlong (feedRead host) Calm state reads := by
  refine calmAlong_of_silent wellFormed (fun front back split _ released => silent ?_)
  rw [split, Parser.readBytes_append]
  exact (Reaction.emitted_prefix_andThen _ _).subset released

/-- A stream in which at most the last byte releases a block is calm in every cut. -/
theorem calmAlong_of_last {host : Host Emulator} {state : Client × Emulator}
    {reads : List ClientRead} {stream : Bytes} {last : UInt8} (wellFormed : state.1.WellFormed)
    (split : reads.flatMap ClientRead.bytes = stream ++ [last])
    (silent
      : .blockReleased state.1.socketFd
        ∉ (Parser.readBytes host (readerOf state) stream).emitted)
    : Reaction.CalmAlong (feedRead host) Calm state reads := by
  refine calmAlong_of_silent wellFormed (fun front back cut more released => silent ?_)
  rw [split] at cut
  rcases List.prefix_concat_iff.mp ⟨back, cut.symm⟩ with whole | ⟨rest, rfl⟩
  · rw [whole, List.self_eq_append_right] at cut
    exact absurd cut more
  · rw [Parser.readBytes_append]
    exact (Reaction.emitted_prefix_andThen _ _).subset released

/-- Only a read inside a block can be no calm one. -/
theorem calm_of_phase {state : Client × Emulator} (read : ClientRead)
    (outside : ∀ ticket size data, (readerOf state).1.phase ≠ .block ticket size data)
    : Calm state read :=
  fun surplus => outside _ _ _ (Client.phase_of_header surplus.state surplus.header)

end NetworkAccess
