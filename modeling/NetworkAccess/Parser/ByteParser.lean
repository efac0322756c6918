import NetworkAccess.Server.Preprocess

/-! An abstract reader of the request stream that takes one byte at a time. It knows
nothing of buffers, positions and reads, so it says what a stream means however the
transport cuts it.
-/

namespace NetworkAccess

variable {Emulator : Type}

/-- The entry that serves a command name, if the tables have one. -/
inductive Resolution (Emulator : Type) where
  | unknown
  | unimplemented (command : EmulatorCommand)
  | generic (command : EmulatorCommand) (entry : GenericEntry Emulator)
  | custom (index : Nat) (entry : CustomEntry Emulator)

/-- What `execute_command` finds for a name: first a custom command, then a builtin one. -/
def resolve (host : Host Emulator) (cmd : Bytes) : Resolution Emulator :=
  match lookupCustom host.customMap 0 cmd with
  | some (index, entry) => .custom index entry
  | none =>
      match lookupCommand cmd with
      | none => .unknown
      | some command =>
          match host.genericMap.find? (fun entry => entry.command = command) with
          | none => .unimplemented command
          | some entry => .generic command entry

/-- A name is unknown if it is in neither table. -/
theorem resolve_unknown_iff (host : Host Emulator) (cmd : Bytes)
    : resolve host cmd = .unknown
      ↔ lookupCustom host.customMap 0 cmd = none ∧ lookupCommand cmd = none := by
  rw [resolve]
  cases lookupCustom host.customMap 0 cmd with
  | some found => exact ⟨nofun, nofun⟩
  | none =>
      cases lookupCommand cmd with
      | none => exact ⟨fun _ => ⟨rfl, rfl⟩, fun _ => rfl⟩
      | some command =>
          dsimp only
          cases host.genericMap.find? (fun entry => entry.command = command) <;>
            exact ⟨nofun, nofun⟩

/-- A name that begins with `b` and has a builtin handler is `bCORE_WRITE`. -/
theorem resolve_generic_binary {host : Host Emulator} {cmd : Bytes}
    {command : EmulatorCommand} {entry : GenericEntry Emulator}
    (generic : resolve host cmd = .generic command entry) (binary : cmd.head? = some lowerB)
    : command = .bCoreWrite := by
  rw [resolve] at generic
  cases custom : lookupCustom host.customMap 0 cmd with
  | some found => rw [custom] at generic; cases generic
  | none =>
      rw [custom] at generic
      cases builtin : lookupCommand cmd with
      | none => rw [builtin] at generic; cases generic
      | some known =>
          obtain ⟨string, found, rfl⟩ := Option.map_eq_some_iff.mp builtin
          have spelled : string.string = cmd := by simpa using List.find?_some found
          rw [builtin] at generic
          dsimp only at generic
          split at generic
          case h_1 => cases generic
          case h_2 =>
            cases generic
            exact commandStrings_binary string (List.mem_of_find?_eq_some found)
              (spelled ▸ binary)

/-- The result of serving a command: the announced size, the emulator and the events. -/
structure Served (Emulator : Type) where
  size : Int
  emulator : Emulator
  events : List Event

/-- Serve a command; a name without a handler is answered with `invalid_command`. -/
def Resolution.serve (host : Host Emulator) (socket : SOCKET) (args : List Bytes)
    (emulator : Emulator)
    : Resolution Emulator → Served Emulator
  | .unknown =>
      let reason := ascii "Invalid command"
      ⟨
        0,
        host.write socket (errorReplyText .invalidCommand reason) emulator,
        [.errorReply socket .invalidCommand reason]
      ⟩
  | .unimplemented _ =>
      let reason := ascii "Invalid command or not implemented"
      ⟨
        -1,
        host.write socket (errorReplyText .invalidCommand reason) emulator,
        [.errorReply socket .invalidCommand reason]
      ⟩
  | .generic command entry =>
      let result := entry.function socket args emulator
      ⟨result.1, result.2, [.handled socket (.generic command) args result.1]⟩
  | .custom index entry =>
      let result := entry.function socket args emulator
      ⟨result.1, result.2, [.handled socket (.custom index) args result.1]⟩

/-- The value of `current_command` after a command; an unknown name keeps the old one. -/
def Resolution.current (previous : Nat) : Resolution Emulator → Nat
  | .unknown => previous
  | .unimplemented command | .generic command _ => command.value
  | .custom index _ => EmulatorCommand.custom.value + index

/-- Whether `current_command` is `bCORE_WRITE` after a command. -/
def Resolution.writes (previous : Bool) : Resolution Emulator → Bool
  | .unknown => previous
  | .unimplemented command | .generic command _ => command.value = EmulatorCommand.bCoreWrite.value
  | .custom index _ =>
      EmulatorCommand.custom.value + index = EmulatorCommand.bCoreWrite.value

/-- The write flag behind a command says whether `current_command` is `bCORE_WRITE` then. -/
theorem Resolution.writes_current (resolution : Resolution Emulator) (previous : Nat)
    : decide (resolution.current previous = EmulatorCommand.bCoreWrite.value)
      = resolution.writes (previous = EmulatorCommand.bCoreWrite.value) := by
  cases resolution <;> rfl

/-- `execute_command` serves the resolution of the name and records its command. -/
theorem executeCommand_eq (host : Host Emulator) (client : Client) (cmd : Bytes)
    (args : List Bytes) (emulator : Emulator)
    : let served := (resolve host cmd).serve host client.socketFd args emulator
      executeCommand host client cmd args emulator
        = .emit (.command client.socketFd cmd args :: served.events)
            ⟨
              served.size,
              {
                client with
                currentCommand := (resolve host cmd).current client.currentCommand
              },
              served.emulator
            ⟩ := by
  simp only [executeCommand, resolve]
  cases lookupCustom host.customMap 0 cmd with
  | some found => rfl
  | none =>
      cases lookupCommand cmd with
      | none => rfl
      | some command =>
          dsimp only
          cases host.genericMap.find? (fun entry => entry.command = command) <;> rfl

-----------------------------------------------------------------------------------------
-- The reader
-----------------------------------------------------------------------------------------

/-- The block size that a handler's result announces, as the client stores it. -/
def announced (result : Int) : Nat :=
  toUnsigned (if result < 0 then result * -1 else result)

/-- What the last line of a binary command settled about the block that follows it. -/
structure Ticket where
  swallow : Bool
  expected : Nat
deriving DecidableEq

/-- The position inside a request. -/
inductive Phase where
  | idle
  | line (bytes : Bytes)
  | expecting (ticket : Ticket)
  | header (ticket : Ticket) (bytes : Bytes)
  | block (ticket : Ticket) (size : Nat) (bytes : Bytes)
deriving DecidableEq

/-- The phase behind a line whose command announced `size`: a line that begins with `b`
announces a block.
-/
def Phase.after (line : Bytes) (size : Int) : Phase :=
  if line.head? = some lowerB then .expecting ⟨size < 0, announced size⟩ else .idle

/-- A phase that is no complete block. -/
def Phase.Open : Phase → Prop
  | .block _ size data => data.length < size
  | _ => True

/-- A reader of one connection. `writes` tells that the last known command was
`bCORE_WRITE`; nothing else is remembered of earlier requests.
-/
structure Parser where
  socket : SOCKET
  phase : Phase
  writes : Bool
deriving DecidableEq

/-- The reader's reactions; a stop keeps the emulator only. -/
abbrev Reading (Emulator State : Type) := Reaction Event (Ending × Emulator) State

namespace Parser

/-- A reader between two requests. -/
def fresh (socket : SOCKET) (writes : Bool) : Parser := ⟨socket, .idle, writes⟩

/-- A refusal of the reader: one error reply, and the connection ends. -/
def refuse (host : Host Emulator) (parser : Parser) (emulator : Emulator) (reason : Bytes)
    : Reading Emulator (Parser × Emulator) :=
  .stop [.errorReply parser.socket .protocolError reason]
    (.rejected, host.write parser.socket (errorReplyText .protocolError reason) emulator)

/-- Execute a complete line. -/
def dispatch (host : Host Emulator) (parser : Parser) (emulator : Emulator) (line : Bytes)
    : Reading Emulator (Parser × Emulator) :=
  match tokenize line with
  | .error fault => .stop [] (.undefined fault, emulator)
  | .ok (cmd, args) =>
      let served := (resolve host cmd).serve host parser.socket args emulator
      .emit (.command parser.socket cmd args :: served.events)
        (
          {
            parser with
            phase := .after line served.size
            writes := (resolve host cmd).writes parser.writes
          },
          served.emulator
        )

/-- Put one more byte on the line. -/
def extendLine (host : Host Emulator) (parser : Parser) (emulator : Emulator)
    (line : Bytes) (byte : UInt8)
    : Reading Emulator (Parser × Emulator) :=
  if line.length < 2048 then
    if byte = newline then
      dispatch host parser emulator (line ++ [byte])
    else
      .emit [] ({ parser with phase := .line (line ++ [byte]) }, emulator)
  else
    .stop [] (.undefined .commandOverflow, emulator)

/-- A block all of whose bytes are there. It stays where it is if the command is neither
to be swallowed nor `bCORE_WRITE`.
-/
def finish (host : Host Emulator) (parser : Parser) (emulator : Emulator)
    (ticket : Ticket) (data : Bytes)
    : Reading Emulator (Parser × Emulator) :=
  if ticket.swallow then
    .emit [.blockReleased parser.socket] ({ parser with phase := .idle }, emulator)
  else if parser.writes then
    .emit [.blockWritten parser.socket data, .blockReleased parser.socket]
      (
        { parser with phase := .idle },
        (host.writeFunction parser.socket data emulator).2
      )
  else
    .emit [] ({ parser with phase := .block ticket data.length data }, emulator)

/-- A complete block meets a further byte: an empty one is finished only now, any other
has no room, and an empty block that cannot be finished is tried for ever.
-/
def settle (host : Host Emulator) (parser : Parser) (emulator : Emulator)
    : Reading Emulator (Parser × Emulator) :=
  match parser.phase with
  | .block ticket size data =>
      if data.length < size then
        .emit [] (parser, emulator)
      else if size = 0 then
        if ticket.swallow ∨ parser.writes then
          finish host parser emulator ticket data
        else
          .stop [] (.spinning, emulator)
      else
        .stop [] (.undefined .blockOverflow, emulator)
  | _ => .emit [] (parser, emulator)

/-- Read one byte in a settled phase. -/
def consume (host : Host Emulator) (byte : UInt8) (state : Parser × Emulator)
    : Reading Emulator (Parser × Emulator) :=
  let (parser, emulator) := state
  match parser.phase with
  | .idle =>
      if startsCommand byte then
        extendLine host parser emulator [] byte
      else
        refuse host parser emulator (ascii "Expecting a command or a signal registration")
  | .line bytes => extendLine host parser emulator bytes byte
  | .expecting ticket =>
      if byte ≠ 0 then
        refuse host parser emulator (ascii "Sending invalid binary data block")
      else
        .emit [] ({ parser with phase := .header ticket [byte] }, emulator)
  | .header ticket bytes =>
      let header := bytes ++ [byte]
      if header.length < 5 then
        .emit [] ({ parser with phase := .header ticket header }, emulator)
      else
        let size := networkSize header
        if size = ticket.expected ∨ ticket.expected = 0 then
          .emit [.blockAllocated parser.socket size]
            ({ parser with phase := .block ticket size [] }, emulator)
        else
          (Reaction.emit [.blockAllocated parser.socket size] ()).andThen (fun _ =>
            refuse host parser emulator
              (ascii "Binary block size does not match expected size"))
  | .block ticket size data =>
      if (data ++ [byte]).length = size then
        finish host parser emulator ticket (data ++ [byte])
      else
        .emit [] ({ parser with phase := .block ticket size (data ++ [byte]) }, emulator)

/-- Read one byte. -/
def step (host : Host Emulator) (state : Parser × Emulator) (byte : UInt8)
    : Reading Emulator (Parser × Emulator) :=
  (settle host state.1 state.2).andThen (consume host byte)

/-- Read a stream. -/
def readBytes (host : Host Emulator) (state : Parser × Emulator) (stream : Bytes)
    : Reading Emulator (Parser × Emulator) :=
  stream.foldlM (step host) state

-----------------------------------------------------------------------------------------
-- Reading more than one byte
-----------------------------------------------------------------------------------------

variable (host : Host Emulator) (parser : Parser) (emulator : Emulator)

/-- Without a byte nothing is read. -/
@[simp] theorem readBytes_nil (state : Parser × Emulator)
    : readBytes host state [] = .emit [] state := rfl

/-- Bytes are read one by one. -/
theorem readBytes_cons (state : Parser × Emulator) (byte : UInt8) (rest : Bytes)
    : readBytes host state (byte :: rest)
      = (step host state byte).andThen (fun next => readBytes host next rest) := rfl

/-- To read one byte is one step. -/
@[simp] theorem readBytes_singleton (state : Parser × Emulator) (byte : UInt8)
    : readBytes host state [byte] = step host state byte :=
  Reaction.andThen_emit_nil _

/-- Bytes are read part by part. -/
theorem readBytes_append (state : Parser × Emulator) (left right : Bytes)
    : readBytes host state (left ++ right)
      = (readBytes host state left).andThen (fun next => readBytes host next right) :=
  List.foldlM_append

/-- A phase that is no complete block is settled already. -/
theorem settle_of_open (open_ : parser.phase.Open)
    : settle host parser emulator = .emit [] (parser, emulator) := by
  obtain ⟨socket, phase, writes⟩ := parser
  cases phase with
  | block ticket size data => exact if_pos open_
  | _ => rfl

/-- Where nothing is pending, a byte is consumed at once. -/
theorem step_of_open (open_ : parser.phase.Open) (byte : UInt8)
    : step host (parser, emulator) byte = consume host byte (parser, emulator) := by
  rw [step, settle_of_open host parser emulator open_, Reaction.emit_andThen,
    Reaction.prepend_nil]

/-- Bytes of a line that has `stored` already. -/
def readLine (stored : Bytes) : Bytes → Reading Emulator (Parser × Emulator)
  | [] => .emit [] ({ parser with phase := .line stored }, emulator)
  | byte :: rest =>
      (extendLine host parser emulator stored byte).andThen
        (fun next => readBytes host next rest)

/-- Inside a line, bytes are read as a line that goes on. -/
theorem readBytes_line (stored bytes : Bytes)
    : readBytes host ({ parser with phase := .line stored }, emulator) bytes
      = readLine host parser emulator stored bytes := by
  cases bytes with
  | nil => rfl
  | cons byte rest =>
      rw [readBytes_cons, step_of_open host { parser with phase := .line stored } _ trivial]
      rfl

/-- A byte that begins a command begins a line. -/
theorem readBytes_idle (idle : parser.phase = .idle) (byte : UInt8) (rest : Bytes)
    (starts : startsCommand byte)
    : readBytes host (parser, emulator) (byte :: rest)
      = readLine host parser emulator [] (byte :: rest) := by
  rw [readBytes_cons, step_of_open host parser emulator (by rw [idle]; trivial)]
  simp only [consume, idle, starts, if_true]
  rfl

/-- An ordinary byte that has room moves to the stored part. -/
theorem readLine_cons {stored : Bytes} {byte : UInt8} (rest : Bytes)
    (ordinary : byte ≠ newline) (room : stored.length < 2048)
    : readLine host parser emulator stored (byte :: rest)
      = readLine host parser emulator (stored ++ [byte]) rest := by
  rw [readLine, extendLine, if_pos room, if_neg ordinary, Reaction.emit_andThen,
    Reaction.prepend_nil, readBytes_line]

/-- Bytes without a newline are stored behind the line, by induction on them. -/
theorem readLine_open (stored bytes : Bytes) (open_ : newline ∉ bytes)
    (fits : stored.length + bytes.length ≤ 2048)
    : readLine host parser emulator stored bytes
      = .emit [] ({ parser with phase := .line (stored ++ bytes) }, emulator) := by
  induction bytes generalizing stored with
  | nil => rw [List.append_nil]; rfl
  | cons byte rest ih =>
      simp only [List.mem_cons, not_or, List.length_cons] at open_ fits
      rw [readLine_cons _ _ _ _ (Ne.symm open_.1) (by omega),
        ih _ open_.2 (by rw [List.length_append, List.length_singleton]; omega),
        List.append_assoc, List.singleton_append]

/-- At the newline the line is dispatched, and the reader goes on behind it. -/
theorem readLine_complete (stored line rest : Bytes) (open_ : newline ∉ line)
    (fits : stored.length + line.length < 2048)
    : readLine host parser emulator stored (line ++ newline :: rest)
      = (dispatch host parser emulator (stored ++ line ++ [newline])).andThen
          (fun next => readBytes host next rest) := by
  induction line generalizing stored with
  | nil =>
      rw [List.nil_append, List.append_nil, readLine, extendLine, if_pos (by simpa using fits),
        if_pos rfl]
  | cons byte tail ih =>
      simp only [List.mem_cons, not_or, List.length_cons] at open_ fits
      rw [List.cons_append, readLine_cons _ _ _ _ (Ne.symm open_.1) (by omega),
        ih _ open_.2 (by rw [List.length_append, List.length_singleton]; omega)]
      simp only [List.append_assoc, List.cons_append, List.nil_append]

/-- A line that is too long is stored behind the command buffer, by induction on its bytes. -/
theorem readLine_overflow (stored line rest : Bytes) (open_ : newline ∉ line.dropLast)
    (room : stored.length ≤ 2048) (long : 2048 < stored.length + line.length)
    : readLine host parser emulator stored (line ++ rest)
      = .stop [] (.undefined .commandOverflow, emulator) := by
  induction line generalizing stored with
  | nil => simp only [List.length_nil] at long; omega
  | cons byte tail ih =>
      rw [List.length_cons] at long
      rw [List.cons_append]
      by_cases fits : stored.length < 2048
      · have more : tail ≠ [] := by
          rintro rfl
          simp only [List.length_nil] at long
          omega
        rw [List.dropLast_cons_of_ne_nil more, List.mem_cons, not_or] at open_
        rw [readLine_cons _ _ _ _ (Ne.symm open_.1) fits]
        exact ih _ open_.2 (by rw [List.length_append, List.length_singleton]; omega)
          (by rw [List.length_append, List.length_singleton]; omega)
      · rw [readLine, extendLine, if_neg fits]
        rfl

/-- A zero byte begins a header. -/
theorem readBytes_expecting {ticket : Ticket} (expecting : parser.phase = .expecting ticket)
    (rest : Bytes)
    : readBytes host (parser, emulator) (0 :: rest)
      = readBytes host ({ parser with phase := .header ticket [] }, emulator) (0 :: rest) := by
  rw [readBytes_cons, readBytes_cons,
    step_of_open host parser emulator (by rw [expecting]; trivial),
    step_of_open host { parser with phase := .header ticket [] } _ trivial]
  simp only [consume, expecting, ne_eq, not_true_eq_false, if_false]
  rfl

/-- Bytes that do not complete a header are stored, by induction on them. -/
theorem readBytes_header (ticket : Ticket) (stored bytes : Bytes)
    (short : stored.length + bytes.length < 5)
    : readBytes host ({ parser with phase := .header ticket stored }, emulator) bytes
      = .emit [] ({ parser with phase := .header ticket (stored ++ bytes) }, emulator) := by
  induction bytes generalizing stored with
  | nil => rw [List.append_nil]; rfl
  | cons byte rest ih =>
      rw [List.length_cons] at short
      have less : (stored ++ [byte]).length < 5 := by
        rw [List.length_append, List.length_singleton]
        omega
      rw [readBytes_cons,
        step_of_open host { parser with phase := .header ticket stored } _ trivial]
      simp only [consume, less, if_true, Reaction.emit_andThen, Reaction.prepend_nil]
      rw [ih _ (by rw [List.length_append, List.length_singleton]; omega), List.append_assoc,
        List.singleton_append]

/-- What the last header byte causes. -/
def headerDone (ticket : Ticket) (header : Bytes) : Reading Emulator (Parser × Emulator) :=
  if networkSize header = ticket.expected ∨ ticket.expected = 0 then
    .emit [.blockAllocated parser.socket (networkSize header)]
      ({ parser with phase := .block ticket (networkSize header) [] }, emulator)
  else
    (refuse host parser emulator
      (ascii "Binary block size does not match expected size")).prepend
        [.blockAllocated parser.socket (networkSize header)]

/-- A header of the expected size begins its block. -/
theorem headerDone_agreed {ticket : Ticket} {header : Bytes}
    (agreed : networkSize header = ticket.expected ∨ ticket.expected = 0)
    : headerDone host parser emulator ticket header
      = .emit [.blockAllocated parser.socket (networkSize header)]
          ({ parser with phase := .block ticket (networkSize header) [] }, emulator) :=
  if_pos agreed

/-- A header of another size is refused, behind the allocation of its block. -/
theorem headerDone_mismatch {ticket : Ticket} {header : Bytes}
    (mismatch : ¬ (networkSize header = ticket.expected ∨ ticket.expected = 0))
    : headerDone host parser emulator ticket header
      = (refuse host parser emulator
          (ascii "Binary block size does not match expected size")).prepend
            [.blockAllocated parser.socket (networkSize header)] :=
  if_neg mismatch

/-- Bytes that complete something have a last one. -/
theorem exists_last_of_completes {size : Nat} {stored bytes : Bytes}
    (short : stored.length < size) (complete : stored.length + bytes.length = size)
    : ∃ front last, bytes = front ++ [last] := by
  have nonempty : bytes ≠ [] := by
    rintro rfl
    simp only [List.length_nil] at complete
    omega
  exact ⟨_, _, (List.dropLast_append_getLast nonempty).symm⟩

/-- Bytes that complete a header are followed by its check. -/
theorem readBytes_headerDone (ticket : Ticket) (stored bytes : Bytes)
    (short : stored.length < 5) (complete : stored.length + bytes.length = 5)
    : readBytes host ({ parser with phase := .header ticket stored }, emulator) bytes
      = headerDone host parser emulator ticket (stored ++ bytes) := by
  obtain ⟨front, last, rfl⟩ := exists_last_of_completes short complete
  rw [List.length_append, List.length_singleton] at complete
  have full : ¬ (stored ++ front ++ [last]).length < 5 := by
    simp only [List.length_append, List.length_singleton]
    omega
  rw [readBytes_append, readBytes_header _ _ _ _ _ _ (by omega), Reaction.emit_andThen,
    Reaction.prepend_nil, readBytes_cons,
    step_of_open host { parser with phase := .header ticket (stored ++ front) } _ trivial]
  simp only [consume, full, if_false, readBytes_nil]
  rw [Reaction.andThen_emit_nil, List.append_assoc, headerDone]
  rfl

/-- Bytes that do not complete a block are stored, by induction on them. -/
theorem readBytes_block (ticket : Ticket) (size : Nat) (stored bytes : Bytes)
    (short : stored.length + bytes.length < size)
    : readBytes host ({ parser with phase := .block ticket size stored }, emulator) bytes
      = .emit [] ({ parser with phase := .block ticket size (stored ++ bytes) }, emulator) := by
  induction bytes generalizing stored with
  | nil => rw [List.append_nil]; rfl
  | cons byte rest ih =>
      rw [List.length_cons] at short
      have less : (stored ++ [byte]).length ≠ size := by
        rw [List.length_append, List.length_singleton]
        omega
      rw [readBytes_cons,
        step_of_open host { parser with phase := .block ticket size stored } _
          (show stored.length < size by omega)]
      simp only [consume, less, if_false, Reaction.emit_andThen, Reaction.prepend_nil]
      rw [ih _ (by rw [List.length_append, List.length_singleton]; omega), List.append_assoc,
        List.singleton_append]

/-- Bytes that complete a block are followed by its end. -/
theorem readBytes_blockDone (ticket : Ticket) (size : Nat) (stored bytes : Bytes)
    (short : stored.length < size) (complete : stored.length + bytes.length = size)
    : readBytes host ({ parser with phase := .block ticket size stored }, emulator) bytes
      = finish host parser emulator ticket (stored ++ bytes) := by
  obtain ⟨front, last, rfl⟩ := exists_last_of_completes short complete
  rw [List.length_append, List.length_singleton] at complete
  have full : (stored ++ front ++ [last]).length = size := by
    simp only [List.length_append, List.length_singleton]
    omega
  have less : (stored ++ front).length < size := by
    rw [List.length_append]
    omega
  rw [readBytes_append, readBytes_block _ _ _ _ _ _ _ (by omega), Reaction.emit_andThen,
    Reaction.prepend_nil, readBytes_cons,
    step_of_open host { parser with phase := .block ticket size (stored ++ front) } _ less]
  simp only [consume, full, if_true, readBytes_nil]
  rw [Reaction.andThen_emit_nil, List.append_assoc]
  rfl

/-- A block to be swallowed is freed. -/
theorem finish_swallow {ticket : Ticket} (swallow : ticket.swallow = true) (data : Bytes)
    : finish host parser emulator ticket data
      = .emit [.blockReleased parser.socket] ({ parser with phase := .idle }, emulator) :=
  if_pos swallow

/-- A block of `bCORE_WRITE` is written and freed. -/
theorem finish_write {ticket : Ticket} (keep : ticket.swallow = false)
    (writes : parser.writes = true) (data : Bytes)
    : finish host parser emulator ticket data
      = .emit [.blockWritten parser.socket data, .blockReleased parser.socket]
          (
            { parser with phase := .idle },
            (host.writeFunction parser.socket data emulator).2
          ) := by
  rw [finish, if_neg (by rw [keep]; nofun), if_pos writes]

/-- Any other block stays as it is. -/
theorem finish_stuck {ticket : Ticket} (stuck : ¬ (ticket.swallow ∨ parser.writes))
    (data : Bytes)
    : finish host parser emulator ticket data
      = .emit [] ({ parser with phase := .block ticket data.length data }, emulator) := by
  rw [not_or] at stuck
  rw [finish, if_neg stuck.1, if_neg stuck.2]

/-- An empty block is finished by the byte behind it. -/
theorem readBytes_emptyBlock (ticket : Ticket) (byte : UInt8) (rest : Bytes)
    (done : ticket.swallow ∨ parser.writes)
    : readBytes host ({ parser with phase := .block ticket 0 [] }, emulator) (byte :: rest)
      = (finish host parser emulator ticket []).andThen
          (fun next => readBytes host next (byte :: rest)) := by
  have settled
      : settle host { parser with phase := .block ticket 0 [] } emulator
        = finish host parser emulator ticket [] := by
    simp only [settle, List.length_nil, Nat.lt_irrefl, if_false, if_true, done]
    rfl
  have idle (emulator : Emulator)
      : readBytes host ({ parser with phase := .idle }, emulator) (byte :: rest)
        = (consume host byte ({ parser with phase := .idle }, emulator)).andThen
            (fun next => readBytes host next rest) := by
    rw [readBytes_cons, step_of_open host { parser with phase := .idle } _ trivial]
  rw [readBytes_cons, step, settled]
  by_cases swallow : ticket.swallow
  · rw [finish_swallow host parser emulator swallow]
    simp only [Reaction.emit_andThen, Reaction.prepend_andThen, idle]
  · rw [finish_write host parser emulator (by simpa using swallow) (done.resolve_left swallow)]
    simp only [Reaction.emit_andThen, Reaction.prepend_andThen, idle]

/-- A complete block that was not finished has no room for a further byte. -/
theorem readBytes_fullBlock (ticket : Ticket) (data : Bytes) (nonempty : data ≠ [])
    (byte : UInt8) (rest : Bytes)
    : readBytes host ({ parser with phase := .block ticket data.length data }, emulator)
        (byte :: rest)
      = .stop [] (.undefined .blockOverflow, emulator) := by
  have size : data.length ≠ 0 := fun none => nonempty (List.length_eq_zero_iff.mp none)
  rw [readBytes_cons, step]
  simp only [settle, Nat.lt_irrefl, size, if_false, Reaction.stop_andThen]

/-- An empty block that nothing can finish is tried for ever. -/
theorem settle_stuck {ticket : Ticket} (stuck : ¬ (ticket.swallow ∨ parser.writes))
    : settle host { parser with phase := .block ticket 0 [] } emulator
      = .stop [] (.spinning, emulator) := by
  simp only [settle, List.length_nil, Nat.lt_irrefl, if_true, if_false]
  exact if_neg stuck

end Parser
end NetworkAccess
