import NetworkAccess.Library.Buffered
import NetworkAccess.Protocol.Defines

/-! The connection of the validator, and the buffered reader through which it reads replies.
-/

namespace NetworkAccess

/-- The kinds of input and output errors that the program tells apart. -/
inductive IoErrorKind where
  | connectionAborted
  | other
deriving DecidableEq, Repr

/-- An error of the connection, and how it is printed. -/
structure IoError where
  kind : IoErrorKind
  text : Bytes
deriving DecidableEq

/-- Why a function of the validator does not return a reply: it waits for bytes, it panics, or it
returns an error.
-/
inductive Failure where
  | waits
  | panics
  | io (error : IoError)
deriving DecidableEq

/-- What a read meets behind the last byte that arrives. -/
inductive Peer where
  | silent
  | closed
  | failed (error : IoError)
deriving DecidableEq

/-- A `TcpStream`. Each piece is what has arrived at the time of a read, so that a read takes as
much of it as it has room for; empty pieces stand for nothing.
-/
structure Connection where
  arrivals : List Bytes
  peer : Peer
deriving DecidableEq

/-- `read` with room for `size` bytes, `size` being positive. -/
def Connection.read (size : Nat) (connection : Connection)
    : Except Failure (Bytes × Connection) :=
  match Buffered.receive size connection.arrivals with
  | some (bytes, arrivals) => .ok (bytes, { connection with arrivals })
  | none =>
      match connection.peer with
      | .silent => .error .waits
      | .closed => .ok ([], connection)
      | .failed error => .error (.io error)

/-- A `BufReader`: the bytes it has read ahead, and the stream. -/
structure BufReader where
  buffer : Bytes
  connection : Connection
deriving DecidableEq

namespace BufReader

/-- The bytes that a `BufReader` holds by default. -/
def capacity : Nat := 8192

/-- A reader that has read nothing ahead. -/
def new (connection : Connection) : BufReader := ⟨[], connection⟩

/-- The reader as a buffer in front of the pieces that are still to arrive. -/
def buffered (reader : BufReader) : Buffered UInt8 := ⟨reader.buffer, reader.connection.arrivals⟩

/-- All bytes that a reader will meet. -/
def stream (reader : BufReader) : Bytes := reader.buffered.stream

end BufReader

/-- What the functions of the validator do with a reader. -/
abbrev Receiving := EStateM Failure BufReader

/-- `BufReader::fill_buf`. -/
def fillBuf : Receiving Bytes := fun reader =>
  if reader.buffer = [] then
    match reader.connection.read BufReader.capacity with
    | .ok (bytes, connection) => .ok bytes ⟨bytes, connection⟩
    | .error failure => .error failure reader
  else
    .ok reader.buffer reader

/-- `BufReader::consume`. -/
def consume (amount : Nat) : Receiving Unit :=
  modify (fun reader => { reader with buffer := reader.buffer.drop amount })

/-- `BufReader::read` into a slice of `size` bytes, which bypasses an empty buffer that is not
larger.
-/
def read (size : Nat) : Receiving Bytes := fun reader =>
  if reader.buffer = [] ∧ BufReader.capacity ≤ size then
    match reader.connection.read size with
    | .ok (bytes, connection) => .ok bytes ⟨[], connection⟩
    | .error failure => .error failure reader
  else
    (do
      let available ← fillBuf
      consume (min size available.length)
      pure (available.take size)) reader

/-- The loop of `BufRead::read_until`, with `line` read so far. -/
def readUntilLoop (delimiter : UInt8) : Nat → Bytes → Receiving Bytes
  | 0, _ => throw .waits
  | fuel + 1, line => do
      let available ← fillBuf
      if delimiter ∈ available then
        let used := available.takeWhile (· ≠ delimiter) ++ [delimiter]
        consume used.length
        pure (line ++ used)
      else
        consume available.length
        if available = [] then
          pure line
        else
          readUntilLoop delimiter fuel (line ++ available)

/-- `BufRead::read_until`. Every turn of its loop but the last reads a byte. -/
def readUntil (delimiter : UInt8) : Receiving Bytes := fun reader =>
  readUntilLoop delimiter (reader.stream.length + 1) [] reader

-----------------------------------------------------------------------------------------
-- Reading from bytes that arrive
-----------------------------------------------------------------------------------------

/-- The reader has read `bytes` and goes on with the same peer. -/
structure BufReader.Advances (before : BufReader) (bytes : Bytes) (after : BufReader) : Prop where
  buffered : Buffered.Advances BufReader.capacity before.buffered bytes after.buffered
  peer : after.connection.peer = before.connection.peer

/-- Reading on after reading has read both. -/
theorem BufReader.Advances.trans {before middle after : BufReader} {bytes more : Bytes}
    (first : before.Advances bytes middle) (second : middle.Advances more after)
    : before.Advances (bytes ++ more) after :=
  ⟨first.buffered.trans second.buffered, second.peer.trans first.peer⟩

/-- What was read is what the stream began with. -/
theorem BufReader.Advances.stream {before after : BufReader} {bytes : Bytes}
    (advances : before.Advances bytes after)
    : before.stream = bytes ++ after.stream :=
  advances.buffered.stream

/-- While bytes are left, `fill_buf` finds some, and using them advances the reader. -/
theorem fillBuf_stream {reader : BufReader} (some_ : reader.stream ≠ [])
    : ∃ available filled,
        fillBuf reader = .ok available filled
        ∧ available ≠ []
        ∧ filled.buffer = available
        ∧ filled.stream = reader.stream
        ∧ ∀ used more, available = used ++ more → used ≠ []
          → reader.Advances used { filled with buffer := more } := by
  obtain ⟨buffer, connection⟩ := reader
  cases buffer with
  | nil =>
      cases received : Buffered.receive BufReader.capacity connection.arrivals with
      | none =>
          exact absurd (Buffered.receive_eq_none_iff.mp received) some_
      | some found =>
          obtain ⟨bytes, rest⟩ := found
          refine ⟨bytes, ⟨bytes, ⟨rest, connection.peer⟩⟩, ?_, ?_, rfl, ?_, ?_⟩
          · simp [fillBuf, Connection.read, received]
          · exact Buffered.receive_ne_nil (by decide) received
          · exact (Buffered.receive_stream received).symm
          · rintro used more rfl nonempty
            exact ⟨Buffered.advances_refilled nonempty received, rfl⟩
  | cons byte rest =>
      refine ⟨byte :: rest, ⟨byte :: rest, connection⟩, rfl, nofun, rfl, rfl, ?_⟩
      rintro used more whole -
      refine ⟨?_, rfl⟩
      have buffered : Buffered.Advances BufReader.capacity ⟨used ++ more, connection.arrivals⟩ used
          ⟨more, connection.arrivals⟩ := Buffered.advances_buffered _ _ _
      rwa [← whole] at buffered

/-- A step that succeeds is followed by the next one. -/
theorem Receiving.bind_ok {Value Next : Type} {first : Receiving Value}
    {next : Value → Receiving Next} {before after : BufReader} {value : Value}
    (ok : first before = .ok value after)
    : (first >>= next) before = next value after := by
  simp only [bind, EStateM.bind, ok]

/-- Where the first computation fails, nothing else is read. -/
theorem Receiving.bind_error {Value Next : Type} {first : Receiving Value}
    {next : Value → Receiving Next} {before after : BufReader} {failure : Failure}
    (error : first before = .error failure after)
    : (first >>= next) before = .error failure after := by
  simp only [bind, EStateM.bind, error]

/-- Consuming bytes drops them from the buffer. -/
theorem consume_eq (amount : Nat) (reader : BufReader)
    : consume amount reader = .ok () { reader with buffer := reader.buffer.drop amount } := rfl

/-- What stands in the buffer holds the delimiter, or only a part of the line before it. -/
theorem buffered_line {delimiter : UInt8} {body rest available later : Bytes}
    (whole : available ++ later = body ++ delimiter :: rest)
    : (∃ more, available = body ++ delimiter :: more)
      ∨ ∃ left, body = available ++ left ∧ later = left ++ delimiter :: rest := by
  rcases List.append_eq_append_iff.mp whole with ⟨left, rfl, later⟩ | ⟨more, split, later⟩
  · exact Or.inr ⟨left, rfl, later⟩
  · cases more with
    | nil =>
        rw [List.append_nil] at split
        exact Or.inr ⟨[], by rw [split, List.append_nil], later.symm⟩
    | cons letter more =>
        rw [List.cons_append, List.cons.injEq] at later
        exact Or.inl ⟨more, by rw [split, later.1]⟩

/-- `read_until` returns a line that arrives with its delimiter, however it is cut. -/
theorem readUntilLoop_line {delimiter : UInt8} {body rest : Bytes} (open_ : delimiter ∉ body)
    {fuel : Nat} {reader : BufReader} (stream : reader.stream = body ++ delimiter :: rest)
    (enough : body.length < fuel) (line : Bytes)
    : ∃ after,
        readUntilLoop delimiter fuel line reader = .ok (line ++ (body ++ [delimiter])) after
        ∧ reader.Advances (body ++ [delimiter]) after := by
  induction fuel generalizing body reader line with
  | zero => omega
  | succ fuel ih =>
      have some_ : reader.stream ≠ [] := by simp [stream]
      obtain ⟨available, filled, fills, nonempty, buffer, same, uses⟩ := fillBuf_stream some_
      have whole : available ++ filled.connection.arrivals.flatten = body ++ delimiter :: rest := by
        rw [← buffer, ← stream, ← same]
        rfl
      rw [readUntilLoop, Receiving.bind_ok fills]
      rcases buffered_line whole with ⟨more, rfl⟩ | ⟨left, rfl, later⟩
      · have found : delimiter ∈ body ++ delimiter :: more :=
          List.mem_append_right _ List.mem_cons_self
        have used : (body ++ delimiter :: more).takeWhile (· ≠ delimiter) = body := by
          have inside : ∀ letter ∈ body, decide (letter ≠ delimiter) = true := by
            intro letter member
            exact decide_eq_true (fun isDelimiter => open_ (isDelimiter ▸ member))
          rw [List.takeWhile_append_of_pos inside]
          simp
        refine ⟨{ filled with buffer := more }, ?_, uses (body ++ [delimiter]) more ?_ ?_⟩
        · rw [if_pos found, used, Receiving.bind_ok (consume_eq _ _), buffer]
          simp [pure, EStateM.pure]
        · rw [List.append_assoc, List.singleton_append]
        · exact List.append_ne_nil_of_right_ne_nil _ (List.cons_ne_nil _ _)
      · have missing : delimiter ∉ available := fun member => open_ (List.mem_append_left _ member)
        have advances := uses available [] (List.append_nil _).symm nonempty
        have length := List.length_pos_of_ne_nil nonempty
        rw [List.length_append] at enough
        obtain ⟨after, reads, further⟩ := ih
          (fun member => open_ (List.mem_append_right _ member))
          (show BufReader.stream { filled with buffer := [] } = left ++ delimiter :: rest from
            later)
          (by omega) (line ++ available)
        refine ⟨after, ?_, ?_⟩
        · rw [if_neg missing, Receiving.bind_ok (consume_eq _ _), if_neg nonempty, buffer,
            List.drop_length, reads, List.append_assoc, List.append_assoc]
        · rw [List.append_assoc]
          exact advances.trans further

/-- Reading up to a delimiter reads the bytes before it and the delimiter. -/
theorem readUntil_line {delimiter : UInt8} {body rest : Bytes} (open_ : delimiter ∉ body)
    {reader : BufReader} (stream : reader.stream = body ++ delimiter :: rest)
    : ∃ after,
        readUntil delimiter reader = .ok (body ++ [delimiter]) after
        ∧ reader.Advances (body ++ [delimiter]) after := by
  have enough : body.length < reader.stream.length + 1 := by
    rw [stream, List.length_append]
    omega
  obtain ⟨after, reads, advances⟩ := readUntilLoop_line open_ stream enough []
  exact ⟨after, reads, advances⟩

/-- Without a byte left, `fill_buf` meets the peer. -/
theorem fillBuf_nothing {reader : BufReader} (none_ : reader.stream = [])
    : fillBuf reader
      = match reader.connection.peer with
        | .silent => .error .waits reader
        | .closed => .ok [] reader
        | .failed error => .error (.io error) reader := by
  obtain ⟨buffer, arrivals, peer⟩ := reader
  obtain ⟨rfl, nothing⟩ : buffer = [] ∧ arrivals.flatten = [] := List.append_eq_nil_iff.mp none_
  rw [fillBuf, if_pos rfl, Connection.read, Buffered.receive_eq_none_iff.mpr nothing]
  cases peer <;> rfl

/-- Without a delimiter, `read_until` takes all bytes and meets the peer. -/
theorem readUntilLoop_open {delimiter : UInt8} {reader : BufReader}
    (open_ : delimiter ∉ reader.stream) {fuel : Nat} (enough : reader.stream.length < fuel)
    (line : Bytes)
    : ∃ after,
        readUntilLoop delimiter fuel line reader
        = match reader.connection.peer with
          | .silent => .error .waits after
          | .closed => .ok (line ++ reader.stream) after
          | .failed error => .error (.io error) after := by
  induction fuel generalizing reader line with
  | zero => omega
  | succ fuel ih =>
      by_cases none_ : reader.stream = []
      · have meets := fillBuf_nothing none_
        refine ⟨reader, ?_⟩
        cases peer : reader.connection.peer <;> rw [peer] at meets <;> dsimp only at meets ⊢
        case silent => rw [readUntilLoop, Receiving.bind_error meets]
        case failed => rw [readUntilLoop, Receiving.bind_error meets]
        case closed =>
          rw [readUntilLoop, Receiving.bind_ok meets, if_neg List.not_mem_nil,
            Receiving.bind_ok (consume_eq _ _), if_pos rfl, none_, List.append_nil]
          rfl
      · obtain ⟨available, filled, fills, nonempty, buffer, same, uses⟩ := fillBuf_stream none_
        have advances := uses available [] (List.append_nil _).symm nonempty
        have split := advances.stream
        have missing : delimiter ∉ available := by
          intro member
          refine open_ ?_
          rw [split]
          exact List.mem_append_left _ member
        have length := List.length_pos_of_ne_nil nonempty
        rw [split] at open_ enough
        rw [List.length_append] at enough
        obtain ⟨after, reads⟩ := ih (fun member => open_ (List.mem_append_right _ member))
          (by omega) (line ++ available)
        refine ⟨after, ?_⟩
        rw [readUntilLoop, Receiving.bind_ok fills, if_neg missing,
          Receiving.bind_ok (consume_eq _ _), if_neg nonempty, buffer, List.drop_length, reads,
          advances.peer, split, List.append_assoc]

/-- Reading up to a delimiter that does not come ends as the peer does. -/
theorem readUntil_open {delimiter : UInt8} {reader : BufReader}
    (open_ : delimiter ∉ reader.stream)
    : ∃ after,
        readUntil delimiter reader
        = match reader.connection.peer with
          | .silent => .error .waits after
          | .closed => .ok reader.stream after
          | .failed error => .error (.io error) after :=
  readUntilLoop_open open_ (Nat.lt_succ_self _) []

end NetworkAccess
