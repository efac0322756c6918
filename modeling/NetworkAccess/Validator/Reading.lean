import NetworkAccess.Parser.ByteParser
import NetworkAccess.Validator.Requests

/-! What the byte reader makes of whole command lines, and of blocks as the validator writes
them.
-/

namespace NetworkAccess

variable {Emulator : Type}

/-- A line that the reader takes for a command, with its newline. -/
structure CommandLine (line : Bytes) : Prop where
  starts : ∃ letter, line.head? = some letter ∧ startsCommand letter
  ends : ∃ body, line = body ++ [newline] ∧ newline ∉ body

/-- A command line that announces a block. -/
structure BinaryLine (line : Bytes) : Prop where
  binary : line.head? = some lowerB
  ends : ∃ body, line = body ++ [newline] ∧ newline ∉ body

/-- A line that announces a block is a command line. -/
theorem BinaryLine.commandLine {line : Bytes} (announces : BinaryLine line) : CommandLine line :=
  ⟨⟨lowerB, announces.binary, by decide⟩, announces.ends⟩

/-- A command line is more than its newline. -/
theorem CommandLine.split {line : Bytes} (command : CommandLine line)
    : ∃ letter body,
        line = letter :: body ++ [newline]
        ∧ startsCommand letter
        ∧ newline ∉ letter :: body := by
  obtain ⟨⟨letter, first, starts⟩, body, rfl, open_⟩ := command
  cases body with
  | nil =>
      cases first
      exact absurd starts (by decide)
  | cons byte rest =>
      cases first
      exact ⟨letter, rest, rfl, starts, open_⟩

/-- The line of a request is one. -/
theorem Request.Sendable.commandLine {request : Request} (sendable : request.Sendable)
    : CommandLine request.line := by
  obtain ⟨⟨⟨letter, rest, name, starts⟩, clean⟩, args, -, -⟩ := sendable
  obtain ⟨body, line, open_, head⟩ := executeRawCommand_line clean.2.1
    (fun arg member => (args.clean arg member).2.1)
  refine ⟨⟨letter, ?_, starts⟩, body, line, open_⟩
  rw [Request.line, line, List.head?_append_of_ne_nil]
  · rw [head (by rw [name]; nofun), name, List.head?_cons]
  · rintro rfl
    rw [List.head?_nil] at head
    have none_ := head (by rw [name]; nofun)
    rw [name] at none_
    cases none_

/-- Serving a command releases no block. -/
theorem Resolution.serve_silent (host : Host Emulator) (socket other : SOCKET) (name : Bytes)
    (args : List Bytes) (emulator : Emulator) (resolution : Resolution Emulator)
    : .blockReleased other
      ∉ .command socket name args :: (resolution.serve host socket args emulator).events := by
  cases resolution <;> simp [Resolution.serve]

namespace Parser

variable (host : Host Emulator) (parser : Parser) (emulator : Emulator)

/-- A line that fits is executed when it is complete. -/
theorem readBytes_commandLine (idle : parser.phase = .idle) {line : Bytes}
    (command : CommandLine line) (fits : line.length ≤ 2048) (rest : Bytes)
    : readBytes host (parser, emulator) (line ++ rest)
      = (dispatch host parser emulator line).andThen (fun next => readBytes host next rest) := by
  obtain ⟨letter, body, rfl, starts, open_⟩ := command.split
  rw [List.length_append, List.length_singleton] at fits
  have whole := readLine_complete host parser emulator [] _ rest open_
    (by rw [List.length_nil]; omega)
  rw [List.nil_append] at whole
  rw [← whole, List.append_assoc, List.cons_append,
    readBytes_idle host parser emulator idle letter _ starts]
  rfl

/-- A longer line overflows the command buffer. -/
theorem readBytes_longLine (idle : parser.phase = .idle) {line : Bytes}
    (command : CommandLine line) (long : 2048 < line.length) (rest : Bytes)
    : readBytes host (parser, emulator) (line ++ rest)
      = .stop [] (.undefined .commandOverflow, emulator) := by
  obtain ⟨letter, body, rfl, starts, open_⟩ := command.split
  rw [← readLine_overflow host parser emulator [] (letter :: body ++ [newline]) rest
      (by rw [List.dropLast_concat]; exact open_) (by rw [List.length_nil]; omega)
      (by rw [List.length_nil]; omega),
    List.append_assoc, List.cons_append, readBytes_idle host parser emulator idle letter _ starts]

/-- Behind a line that can be executed the reader expects a block. -/
theorem readBytes_binaryLine (idle : parser.phase = .idle) {line : Bytes}
    (announces : BinaryLine line) (fits : line.length ≤ 2048) {cmd : Bytes} {args : List Bytes}
    (tokens : tokenize line = .ok (cmd, args)) (rest : Bytes)
    : let served := (resolve host cmd).serve host parser.socket args emulator
      readBytes host (parser, emulator) (line ++ rest)
        = (readBytes host
            (
              {
                parser with
                phase := .expecting ⟨served.size < 0, announced served.size⟩
                writes := (resolve host cmd).writes parser.writes
              },
              served.emulator
            )
            rest).prepend
              (.command parser.socket cmd args :: served.events) := by
  intro served
  have after : Phase.after line served.size
      = .expecting ⟨served.size < 0, announced served.size⟩ := if_pos announces.binary
  rw [readBytes_commandLine host parser emulator idle announces.commandLine fits, dispatch, tokens]
  simp only [Reaction.emit_andThen]
  rw [after]

/-- A handler that answers with the size of the block, its negation or 0 announces that size
or nothing.
-/
theorem announced_of_answer {answer : Int} {size : Nat} (fits : size < 2 ^ 32)
    (answered : answer = 0 ∨ answer = size ∨ answer = -size)
    : size = announced answer ∨ announced answer = 0 := by
  rcases answered with rfl | rfl | rfl
  · exact Or.inr rfl
  all_goals
    refine Or.inl ?_
    rw [announced, toUnsigned]
    split <;> omega

/-- A header is read up to its last byte. -/
theorem readBytes_blockHeader {ticket : Ticket} (expecting : parser.phase = .expecting ticket)
    (size : Nat) (rest : Bytes)
    : readBytes host (parser, emulator) (blockHeader size ++ rest)
      = (headerDone host parser emulator ticket (blockHeader size)).andThen
          (fun next => readBytes host next rest) := by
  rw [blockHeader, List.cons_append, readBytes_expecting host parser emulator expecting,
    ← List.cons_append, ← blockHeader, readBytes_append,
    readBytes_headerDone host parser emulator ticket [] _ (by decide) rfl, List.nil_append]

/-- A block of the announced size is filled. -/
theorem readBytes_blockPart {ticket : Ticket} (expecting : parser.phase = .expecting ticket)
    {size : Nat} (fits : size < 2 ^ 32) (agreed : size = ticket.expected ∨ ticket.expected = 0)
    {part : Bytes} (short : part.length < size)
    : readBytes host (parser, emulator) (blockHeader size ++ part)
      = .emit [.blockAllocated parser.socket size]
          ({ parser with phase := .block ticket size part }, emulator) := by
  have header := networkSize_blockHeader fits
  rw [← header] at agreed
  rw [readBytes_blockHeader host parser emulator expecting,
    headerDone_agreed host parser emulator agreed, Reaction.emit_andThen, header,
    readBytes_block host parser emulator ticket size [] part
      (by rw [List.length_nil]; omega), List.nil_append, Reaction.prepend_emit, List.append_nil]

/-- The last byte of such a block finishes it. -/
theorem readBytes_sendData {ticket : Ticket} (expecting : parser.phase = .expecting ticket)
    {data : Bytes} (positive : 1 ≤ data.length) (fits : data.length < 2 ^ 32)
    (agreed : data.length = ticket.expected ∨ ticket.expected = 0)
    : readBytes host (parser, emulator) (sendData data)
      = (finish host parser emulator ticket data).prepend
          [.blockAllocated parser.socket data.length] := by
  have header := readBytes_blockPart host parser emulator expecting fits agreed
    (show ([] : Bytes).length < data.length from positive)
  rw [List.append_nil] at header
  rw [sendData, readBytes_append, header, Reaction.emit_andThen,
    readBytes_blockDone host parser emulator ticket data.length [] data positive
      (Nat.zero_add _), List.nil_append]

/-- A block of another size is refused at its header. -/
theorem readBytes_blockMismatch {ticket : Ticket}
    (expecting : parser.phase = .expecting ticket) {size : Nat} (fits : size < 2 ^ 32)
    (mismatch : ¬ (size = ticket.expected ∨ ticket.expected = 0)) (rest : Bytes)
    : readBytes host (parser, emulator) (blockHeader size ++ rest)
      = (refuse host parser emulator
          (ascii "Binary block size does not match expected size")).prepend
            [.blockAllocated parser.socket size] := by
  have header := networkSize_blockHeader fits
  rw [← header] at mismatch
  rw [readBytes_blockHeader host parser emulator expecting,
    headerDone_mismatch host parser emulator mismatch, header]
  rfl

end Parser
end NetworkAccess
