import NetworkAccess.Parser.Simulation
import NetworkAccess.Validator.Reading

/-! What the validator writes reaches the handlers and the write function as it was meant,
however the stream is cut, as long as nothing follows a block in the read that ends it.
-/

namespace NetworkAccess

variable {Emulator : Type}

/-- What the table entry of a request's name does with its arguments. -/
def Request.served (host : Host Emulator) (socket : SOCKET) (emulator : Emulator)
    (request : Request)
    : Served Emulator :=
  (resolve host request.name).serve host socket request.args emulator

/-- The events of a request and the emulator it leaves: one dispatch with the name and the
arguments that were sent, and for a block that the handler did not refuse one call of the
write function with the data that were sent.
-/
def Request.perform (host : Host Emulator) (socket : SOCKET) (emulator : Emulator)
    (request : Request)
    : List Event × Emulator :=
  let served := request.served host socket emulator
  let dispatch := .command socket request.name request.args :: served.events
  match request with
  | .text _ _ => (dispatch, served.emulator)
  | .write _ data =>
      let allocated := dispatch ++ [.blockAllocated socket data.length]
      if served.size < 0 then
        (allocated ++ [.blockReleased socket], served.emulator)
      else
        (
          allocated ++ [.blockWritten socket data, .blockReleased socket],
          (host.writeFunction socket data served.emulator).2
        )

/-- What a sequence of requests does, one after the other. -/
def performAll (host : Host Emulator) (socket : SOCKET)
    : Emulator → List Request → List Event × Emulator
  | emulator, [] => ([], emulator)
  | emulator, request :: rest =>
      let first := request.perform host socket emulator
      let later := performAll host socket first.2 rest
      (first.1 ++ later.1, later.2)

/-- The handler of `bCORE_WRITE` answers with 0, the size of the block or its negation. -/
def Request.Answered (host : Host Emulator) (socket : SOCKET) (emulator : Emulator)
    (request : Request)
    : Prop :=
  match request with
  | .text _ _ => True
  | .write _ data =>
      let size := (request.served host socket emulator).size
      size = 0 ∨ size = data.length ∨ size = -data.length

/-- Every request of the sequence is answered in the state that the earlier ones leave. -/
def AnsweredAll (host : Host Emulator) (socket : SOCKET) : Emulator → List Request → Prop
  | _, [] => True
  | emulator, request :: rest =>
      request.Answered host socket emulator
      ∧ AnsweredAll host socket (request.perform host socket emulator).2 rest

/-- A sequence of requests is served part by part. -/
theorem performAll_append (host : Host Emulator) (socket : SOCKET) (emulator : Emulator)
    (requests more : List Request)
    : let first := performAll host socket emulator requests
      let later := performAll host socket first.2 more
      performAll host socket emulator (requests ++ more) = (first.1 ++ later.1, later.2) := by
  induction requests generalizing emulator with
  | nil => rfl
  | cons request rest ih =>
      simp only [List.cons_append, performAll, ih, List.append_assoc]

/-- Requests that are all answered are answered in two parts, the second one in the state that the
first leaves. By induction on the first part.
-/
theorem AnsweredAll.append {host : Host Emulator} {socket : SOCKET} {emulator : Emulator}
    {requests more : List Request}
    (answered : AnsweredAll host socket emulator (requests ++ more))
    : AnsweredAll host socket emulator requests
      ∧ AnsweredAll host socket (performAll host socket emulator requests).2 more := by
  induction requests generalizing emulator with
  | nil => exact ⟨trivial, answered⟩
  | cons request rest ih =>
      obtain ⟨first, later⟩ := ih answered.2
      exact ⟨⟨answered.1, first⟩, later⟩

/-- Some read ends with each of the blocks. -/
def BlocksEndReads (requests : List Request) (reads : List ClientRead) : Prop :=
  ∀ before args data after,
    requests = before ++ .write args data :: after
    → ∃ done rest,
        reads = done ++ rest
        ∧ done.flatMap ClientRead.bytes
          = (before ++ [.write args data]).flatMap Request.encode

-----------------------------------------------------------------------------------------
-- One request
-----------------------------------------------------------------------------------------

/-- Text requests release no block, by induction on them. -/
theorem performAll_silent (host : Host Emulator) (socket : SOCKET) (emulator : Emulator)
    {requests : List Request} (plain : ∀ request ∈ requests, request.isText) (other : SOCKET)
    : .blockReleased other ∉ (performAll host socket emulator requests).1 := by
  induction requests generalizing emulator with
  | nil => exact List.not_mem_nil
  | cons request rest ih =>
      obtain ⟨here, later⟩ := List.forall_mem_cons.mp plain
      cases request with
      | write args data => cases here
      | text name args =>
          rw [performAll, List.mem_append, not_or]
          exact ⟨Resolution.serve_silent host socket other name args emulator _, ih _ later⟩

/-- The reader dispatches the line of a request between two requests. -/
theorem Parser.readBytes_requestLine (host : Host Emulator) (parser : Parser)
    (emulator : Emulator) (idle : parser.phase = .idle) {request : Request}
    (sendable : request.Sendable)
    : let served := request.served host parser.socket emulator
      readBytes host (parser, emulator) request.line
        = .emit (.command parser.socket request.name request.args :: served.events)
            (
              {
                parser with
                phase := .after request.line served.size
                writes := (resolve host request.name).writes parser.writes
              },
              served.emulator
            ) := by
  have tokens := tokenize_executeRawCommand sendable.1.clean sendable.2.1 sendable.2.2.1
  have whole := readBytes_commandLine host parser emulator idle sendable.commandLine
    sendable.2.2.1 []
  rw [List.append_nil] at whole
  rw [whole, dispatch, Request.line, tokens]
  exact Reaction.andThen_emit_nil _

/-- The first byte of a line is the first byte of its name. -/
theorem Request.Sendable.head {request : Request} (sendable : request.Sendable)
    : request.line.head? = request.name.head? := by
  obtain ⟨⟨⟨letter, rest, name, -⟩, -⟩, -⟩ := sendable
  rw [Request.line, name]
  cases joinArgs request.args <;> rfl

/-- The reader takes a text request as it was meant. -/
theorem Parser.readBytes_text (host : Host Emulator) (parser : Parser) (emulator : Emulator)
    (idle : parser.phase = .idle) {name : Bytes} {args : List Bytes}
    (sendable : (Request.text name args).Sendable)
    : let performed := (Request.text name args).perform host parser.socket emulator
      readBytes host (parser, emulator) (Request.text name args).encode
        = .emit performed.1
            (
              { parser with writes := (resolve host name).writes parser.writes },
              performed.2
            ) := by
  have outside : (Request.text name args).line.head? ≠ some lowerB := by
    rw [sendable.head]
    exact sendable.2.2.2
  have after (size : Int) : Phase.after (Request.text name args).line size = parser.phase := by
    rw [Phase.after, if_neg outside, idle]
  have run := readBytes_requestLine host parser emulator idle sendable
  simp only [after] at run
  exact run

section Writes

variable {host : Host Emulator} {entry : GenericEntry Emulator}
  (builtin : resolve host bCoreWriteName = .generic .bCoreWrite entry)
include builtin

/-- Behind the line of a write request the reader expects its block. -/
theorem Parser.readBytes_writeLine (parser : Parser) (emulator : Emulator)
    (idle : parser.phase = .idle) {args : List Bytes} {data : Bytes}
    (sendable : (Request.write args data).Sendable)
    : let request := Request.write args data
      let served := request.served host parser.socket emulator
      readBytes host (parser, emulator) request.line
        = .emit (.command parser.socket bCoreWriteName args :: served.events)
            (
              {
                parser with
                phase := .expecting ⟨served.size < 0, announced served.size⟩
                writes := true
              },
              served.emulator
            ) := by
  have first : (Request.write args data).line.head? = some lowerB := by
    rw [sendable.head]
    rfl
  intro request served
  have after : Phase.after request.line served.size
      = .expecting ⟨served.size < 0, announced served.size⟩ := if_pos first
  have writes : (resolve host request.name).writes parser.writes = true := by
    rw [show request.name = bCoreWriteName from rfl, builtin, Resolution.writes, decide_eq_true rfl]
  rw [readBytes_requestLine host parser emulator idle sendable, after, writes]
  rfl

/-- The reader inside the block of a write request. -/
theorem Parser.readBytes_writeBegun (parser : Parser) (emulator : Emulator)
    (idle : parser.phase = .idle) {args : List Bytes} {data part : Bytes}
    (sendable : (Request.write args data).Sendable)
    (answered : (Request.write args data).Answered host parser.socket emulator)
    (short : part.length < data.length)
    : let request := Request.write args data
      let served := request.served host parser.socket emulator
      readBytes host (parser, emulator) (request.line ++ (blockHeader data.length ++ part))
        = .emit
            (.command parser.socket bCoreWriteName args :: served.events
              ++ [.blockAllocated parser.socket data.length])
            (
              {
                parser with
                phase := .block ⟨served.size < 0, announced served.size⟩ data.length part
                writes := true
              },
              served.emulator
            ) := by
  have fits : data.length < 2 ^ 32 := sendable.2.2.2.2
  intro request served
  rw [readBytes_append, readBytes_writeLine builtin parser emulator idle sendable,
    Reaction.emit_andThen,
    readBytes_blockPart host _ _ rfl fits (announced_of_answer fits answered) short,
    Reaction.prepend_emit]

/-- The reader takes a write request as it was meant. -/
theorem Parser.readBytes_write (parser : Parser) (emulator : Emulator)
    (idle : parser.phase = .idle) {args : List Bytes} {data : Bytes}
    (sendable : (Request.write args data).Sendable)
    (answered : (Request.write args data).Answered host parser.socket emulator)
    : let performed := (Request.write args data).perform host parser.socket emulator
      readBytes host (parser, emulator) (Request.write args data).encode
        = .emit performed.1 ({ parser with writes := true }, performed.2) := by
  have positive : 1 ≤ data.length := sendable.2.2.2.1
  have fits : data.length < 2 ^ 32 := sendable.2.2.2.2
  have between : ({ parser with phase := .idle, writes := true } : Parser)
      = { parser with writes := true } := by rw [← idle]
  rw [Request.encode, readBytes_append,
    readBytes_writeLine builtin parser emulator idle sendable,
    Reaction.emit_andThen,
    readBytes_sendData host _ _ rfl positive fits (announced_of_answer fits answered),
    Request.perform]
  by_cases refused : ((Request.write args data).served host parser.socket emulator).size < 0
  · rw [finish_swallow host _ _ (decide_eq_true refused), Reaction.prepend_emit,
      Reaction.prepend_emit, ← List.append_assoc, between, if_pos refused]
    rfl
  · rw [finish_write host _ _ (decide_eq_false refused) rfl, Reaction.prepend_emit,
      Reaction.prepend_emit, ← List.append_assoc, between, if_neg refused]
    rfl

/-- The reader takes a sequence of requests as it was meant, by induction on them. -/
theorem Parser.readBytes_requests (parser : Parser) (emulator : Emulator)
    (idle : parser.phase = .idle) {requests : List Request}
    (sendable : ∀ request ∈ requests, request.Sendable)
    (answered : AnsweredAll host parser.socket emulator requests)
    : let performed := performAll host parser.socket emulator requests
      ∃ writes,
        readBytes host (parser, emulator) (requests.flatMap Request.encode)
          = .emit performed.1 ({ parser with writes }, performed.2) := by
  induction requests generalizing parser emulator with
  | nil => exact ⟨parser.writes, rfl⟩
  | cons request rest ih =>
      obtain ⟨here, later⟩ := List.forall_mem_cons.mp sendable
      obtain ⟨writes, first⟩
          : ∃ writes,
              readBytes host (parser, emulator) request.encode
                = .emit (request.perform host parser.socket emulator).1
                    (
                      { parser with writes },
                      (request.perform host parser.socket emulator).2
                    ) := by
        cases request with
        | text name args => exact ⟨_, readBytes_text host parser emulator idle here⟩
        | write args data =>
            exact ⟨_, readBytes_write builtin parser emulator idle here answered.1⟩
      obtain ⟨last, further⟩ := ih { parser with writes } _ idle later answered.2
      refine ⟨last, ?_⟩
      rw [List.flatMap_cons, readBytes_append, first, Reaction.emit_andThen, further,
        Reaction.prepend_emit]
      rfl

/-- Before the last byte of a block the reader does not release it. -/
theorem Parser.readBytes_silent (parser : Parser) (emulator : Emulator)
    (idle : parser.phase = .idle) {texts : List Request} {args : List Bytes} {data : Bytes}
    (plain : ∀ request ∈ texts, request.isText)
    (sendable : ∀ request ∈ texts ++ [Request.write args data], request.Sendable)
    (answered : AnsweredAll host parser.socket emulator (texts ++ [.write args data]))
    : .blockReleased parser.socket
      ∉ (readBytes host (parser, emulator)
          (texts.flatMap Request.encode
            ++ ((Request.write args data).line
              ++ (blockHeader data.length ++ data.dropLast)))).emitted := by
  have write := sendable _ List.mem_concat_self
  have positive : 1 ≤ data.length := write.2.2.2.1
  obtain ⟨first, later⟩ := answered.append
  obtain ⟨writes, run⟩ := readBytes_requests builtin parser emulator idle
    (fun request member => sendable request (List.mem_append_left _ member)) first
  have short := length_dropLast_lt positive
  rw [readBytes_append, run, Reaction.emit_andThen,
    readBytes_writeBegun builtin { parser with writes } _ idle write later.1 short,
    Reaction.prepend_emit, Reaction.emitted_emit, List.mem_append, List.mem_append,
    List.mem_singleton, not_or, not_or]
  exact ⟨performAll_silent host _ _ plain _, Resolution.serve_silent host _ _ _ _ _ _, nofun⟩

end Writes

-----------------------------------------------------------------------------------------
-- Whole runs
-----------------------------------------------------------------------------------------

/-- Behind the reads of a first part the blocks of the rest end reads, too. -/
theorem BlocksEndReads.rest {requests more : List Request} {reads later : List ClientRead}
    (ends : BlocksEndReads (requests ++ more) (reads ++ later))
    (first : reads.flatMap ClientRead.bytes = requests.flatMap Request.encode)
    : BlocksEndReads more later := by
  rintro before args data after rfl
  obtain ⟨done, rest, cut, bytes⟩ := ends (requests ++ before) args data after
    (by rw [List.append_assoc])
  rcases List.append_eq_append_iff.mp cut with ⟨between, rfl, rfl⟩ | ⟨between, rfl, -⟩
  · refine ⟨between, rest, rfl, ?_⟩
    rw [List.flatMap_append, first, List.append_assoc, List.flatMap_append] at bytes
    exact List.append_cancel_left bytes
  · -- the reads up to the block cannot end before the first part does
    have short := congrArg List.length first
    rw [List.flatMap_append, bytes, List.append_assoc, List.flatMap_append, List.flatMap_append,
      List.flatMap_singleton] at short
    simp only [List.length_append, Request.encode, sendData, blockHeader_length] at short
    omega

section Runs

variable {host : Host Emulator} {entry : GenericEntry Emulator}
  (builtin : resolve host bCoreWriteName = .generic .bCoreWrite entry)
include builtin

/-- A calm run of requests that begins between two requests ends so. -/
theorem feedReads_calmRequests {client : Client} {emulator : Emulator}
    (wellFormed : client.WellFormed) (idle : client.parser.phase = .idle)
    {requests : List Request} {reads : List ClientRead}
    (sendable : ∀ request ∈ requests, request.Sendable)
    (answered : AnsweredAll host client.socketFd emulator requests)
    (stream : reads.flatMap ClientRead.bytes = requests.flatMap Request.encode)
    (calm : Reaction.CalmAlong (feedRead host) Calm (client, emulator) reads)
    : let performed := performAll host client.socketFd emulator requests
      ∃ last,
        feedReads host (client, emulator) reads = .emit performed.1 (last, performed.2)
        ∧ last.WellFormed
        ∧ last.socketFd = client.socketFd
        ∧ last.parser.phase = .idle := by
  have simulates := feedReads_simulates wellFormed calm
  obtain ⟨writes, run⟩ := Parser.readBytes_requests builtin client.parser emulator idle sendable
    answered
  rw [stream, readerOf, run] at simulates
  obtain ⟨⟨last, later⟩, turn, same⟩ := Reaction.emit_of_project simulates
  have kept := feedReads_kept wellFormed (by rw [turn]; rfl : _ = Except.ok (last, later))
  obtain ⟨reader, same⟩ := Prod.mk.inj same
  cases same
  refine ⟨last, turn, kept.1, kept.2, ?_⟩
  rw [reader]
  exact idle

/-- A run of requests that begins between two requests, by induction on its blocks. -/
theorem feedReads_requests {client : Client} {emulator : Emulator}
    (wellFormed : client.WellFormed) (idle : client.parser.phase = .idle)
    {requests : List Request} {reads : List ClientRead}
    (sendable : ∀ request ∈ requests, request.Sendable)
    (answered : AnsweredAll host client.socketFd emulator requests)
    (stream : reads.flatMap ClientRead.bytes = requests.flatMap Request.encode)
    (ends : BlocksEndReads requests reads)
    : let performed := performAll host client.socketFd emulator requests
      ∃ last,
        feedReads host (client, emulator) reads = .emit performed.1 (last, performed.2)
        ∧ last.WellFormed
        ∧ last.parser.phase = .idle := by
  induction requests using Request.block_induction generalizing client emulator reads with
  | texts requests plain =>
      obtain ⟨writes, run⟩ := Parser.readBytes_requests builtin client.parser emulator idle
        sendable answered
      have calm : Reaction.CalmAlong (feedRead host) Calm (client, emulator) reads := by
        refine calmAlong_of_no_release wellFormed ?_
        rw [stream, readerOf, run, Reaction.emitted_emit]
        exact performAll_silent host _ _ plain _
      obtain ⟨last, turn, formed, -, between⟩ := feedReads_calmRequests builtin wellFormed
        idle sendable answered stream calm
      exact ⟨last, turn, formed, between⟩
  | block texts args data rest plain ih =>
      rw [List.append_cons] at sendable answered stream ends ⊢
      obtain ⟨done, more, rfl, first⟩ := ends texts args data rest (List.append_cons _ _ _).symm
      rw [List.flatMap_append, List.flatMap_append, first] at stream
      obtain ⟨head, tail⟩ := answered.append
      have early : ∀ request ∈ texts ++ [Request.write args data], request.Sendable :=
        fun request member => sendable request (List.mem_append_left _ member)
      have write : (Request.write args data).Sendable := early _ List.mem_concat_self
      have nonempty : data ≠ [] := List.length_pos_iff.mp write.2.2.2.1
      have split : done.flatMap ClientRead.bytes
          = texts.flatMap Request.encode
            ++ ((Request.write args data).line ++ (blockHeader data.length ++ data.dropLast))
            ++ [data.getLast nonempty] := by
        rw [first, List.flatMap_append, List.flatMap_singleton, List.append_assoc,
          List.append_assoc _ _ [_], ← sendData_concat nonempty]
        rfl
      have calm : Reaction.CalmAlong (feedRead host) Calm (client, emulator) done :=
        calmAlong_of_last wellFormed split
          (Parser.readBytes_silent builtin _ _ idle plain early head)
      obtain ⟨middle, turn, formed, socket, between⟩ := feedReads_calmRequests builtin
        wellFormed idle early head first calm
      rw [← socket] at tail
      obtain ⟨last, later, closing⟩ := ih formed between
        (fun request member => sendable request (List.mem_append_right _ member)) tail
        (List.append_cancel_left stream) (ends.rest first)
      refine ⟨last, ?_, closing⟩
      rw [socket] at later
      rw [feedReads_append, turn, Reaction.emit_andThen, later, Reaction.prepend_emit,
        performAll_append host _ _ (texts ++ [Request.write args data]) rest]

end Runs

/-- Requests that the protocol allows are served in order, each exactly once and with the
names, arguments and data that were sent, however the stream is cut into reads that end
with the blocks; every `preprocess_data` returns `true`.
-/
theorem requests_roundTrip (host : Host Emulator) {entry : GenericEntry Emulator}
    (builtin : resolve host bCoreWriteName = .generic .bCoreWrite entry) (slot : Client)
    (fd : SOCKET) (emulator : Emulator) (requests : List Request) (reads : List ClientRead)
    (sendable : ∀ request ∈ requests, request.Sendable)
    (answered : AnsweredAll host fd emulator requests)
    (stream : reads.flatMap ClientRead.bytes = requests.flatMap Request.encode)
    (ends : BlocksEndReads requests reads)
    : let performed := performAll host fd emulator requests
      ∃ client,
        feedReads host (slot.add fd, emulator) reads = .emit performed.1 (client, performed.2)
        ∧ client.state = .waitingForCommand
        ∧ client.commandDataPos = 0 := by
  obtain ⟨client, turn, formed, idle⟩ := feedReads_requests builtin (slot.wellFormed_add fd) rfl
    sendable answered stream ends
  have waiting := client.waiting_of_idle idle
  exact ⟨client, turn, waiting, (formed.waiting waiting).1⟩

/-- A command, a block behind it and another command, in three reads. -/
def roundTripRequests : List Request := [
  .text (ascii "CORE_INFO") [ascii "snes9x"],
  .write [ascii "WRAM", ascii "$10", ascii "2"] [7, 8],
  .text (ascii "EMULATION_PAUSE") []
]

/-- The reads of the example, which cut a line within its name and carry a binary write. -/
def roundTripReads : List ClientRead := [
  ⟨ascii "CORE_INFO snes9x\nbCORE_WRI", by decide, by decide⟩,
  ⟨ascii "TE WRAM;$10;2\n" ++ [0, 0, 0, 0, 2, 7, 8], by decide, by decide⟩,
  ⟨ascii "EMULATION_PAUSE\n", by decide, by decide⟩
]

/-- Witness: the handler of `bCORE_WRITE` returns the size of the block. -/
theorem requests_roundTrip_block
    : ∃ client,
        feedReads (Host.fixed [(.bCoreWrite, 2)]) (Client.zero.add 4, ()) roundTripReads
          = .emit (performAll (Host.fixed [(.bCoreWrite, 2)]) 4 () roundTripRequests).1
              (client, ())
        ∧ client.state = .waitingForCommand
        ∧ client.commandDataPos = 0 := by
  refine requests_roundTrip _ rfl Client.zero 4 () roundTripRequests roundTripReads ?_
    ⟨trivial, .inr (.inl rfl), trivial, trivial⟩ (by decide) ?_
  · refine List.forall_mem_cons.mpr ⟨?_, List.forall_mem_cons.mpr ⟨?_, ?_⟩⟩
    · exact ⟨⟨⟨_, _, rfl, by decide⟩, by decide⟩, ⟨by decide, by decide, by simp; decide⟩,
        by decide, by decide⟩
    · exact ⟨⟨⟨_, _, rfl, by decide⟩, by decide⟩, ⟨by decide, by decide, by simp; decide⟩,
        by decide, by decide⟩
    · refine List.forall_mem_cons.mpr ⟨?_, nofun⟩
      exact ⟨⟨⟨_, _, rfl, by decide⟩, by decide⟩, ⟨by decide, by decide, nofun⟩,
        by decide, by decide⟩
  · rintro before args data after same
    match before with
    | [] => cases same
    | [_] =>
        cases same
        exact ⟨roundTripReads.take 2, roundTripReads.drop 2, rfl, by decide⟩
    | [_, _] => cases same
    | _ :: _ :: _ :: _ => simp [roundTripRequests] at same

end NetworkAccess
