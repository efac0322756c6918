import NetworkAccess.Validator.GetReply

/-! How many bytes a single `read` of the validator returns.
-/

namespace NetworkAccess

open Buffered (filled receive)

/-- One read of `size` bytes returns them all: they stand in the buffer, or it is empty and the next
piece has so many. Nothing at all is returned at once only by a closed connection.
-/
def BufReader.Holds (reader : BufReader) (size : Nat) : Prop :=
  if reader.buffer = [] then
    match filled reader.connection.arrivals with
    | [] => size = 0 ∧ reader.connection.peer = .closed
    | piece :: _ => size ≤ piece.length
  else
    size ≤ reader.buffer.length

/-- Dropping more bytes than there are drops them all. -/
theorem drop_min_length (bytes : Bytes) (size : Nat)
    : bytes.drop (min size bytes.length) = bytes.drop size := by
  rcases Nat.le_total size bytes.length with short | long
  · rw [Nat.min_eq_left short]
  · rw [Nat.min_eq_right long, List.drop_length, List.drop_eq_nil_of_le long]

/-- A read takes from the buffer while there is something in it. -/
theorem read_buffered {reader : BufReader} (some_ : reader.buffer ≠ []) (size : Nat)
    : read size reader
      = .ok (reader.buffer.take size) { reader with buffer := reader.buffer.drop size } := by
  have fills : fillBuf reader = .ok reader.buffer reader := if_neg some_
  rw [read, if_neg (fun both => some_ both.1), Receiving.bind_ok fills,
    Receiving.bind_ok (consume_eq _ _), drop_min_length]
  rfl

/-- Whether or not the buffer is bypassed, the bytes come from one piece. -/
theorem read_piece {connection : Connection} {piece : Bytes} {rest : List Bytes}
    (first : filled connection.arrivals = piece :: rest) (size : Nat)
    : ∃ later,
        filled later = rest
        ∧ read size ⟨[], connection⟩
          = if BufReader.capacity ≤ size then
              .ok (piece.take size) ⟨[], { connection with arrivals := piece.drop size :: later }⟩
            else
              .ok (piece.take size)
                ⟨
                  (piece.take BufReader.capacity).drop size,
                  { connection with arrivals := piece.drop BufReader.capacity :: later }
                ⟩ := by
  by_cases big : BufReader.capacity ≤ size
  · obtain ⟨later, received, same⟩ := Buffered.receive_filled size first
    refine ⟨later, same, ?_⟩
    rw [read, if_pos ⟨rfl, big⟩, if_pos big, Connection.read]
    simp only [received]
  · obtain ⟨later, received, same⟩ := Buffered.receive_filled BufReader.capacity first
    refine ⟨later, same, ?_⟩
    have fills : fillBuf ⟨[], connection⟩
        = .ok (piece.take BufReader.capacity)
          ⟨
            piece.take BufReader.capacity,
            { connection with arrivals := piece.drop BufReader.capacity :: later }
          ⟩ := by
      rw [fillBuf, if_pos rfl, Connection.read]
      simp only [received]
    have taken : (piece.take BufReader.capacity).take size = piece.take size := by
      rw [List.take_take, Nat.min_eq_left (Nat.le_of_not_le big)]
    rw [read, if_neg (fun both => big both.2), if_neg big, Receiving.bind_ok fills,
      Receiving.bind_ok (consume_eq _ _), drop_min_length, taken]
    rfl

/-- Where nothing arrives anymore, a read ends as the peer does. -/
theorem read_nothing {connection : Connection} (none_ : filled connection.arrivals = [])
    (size : Nat)
    : read size ⟨[], connection⟩
      = match connection.peer with
        | .silent => .error .waits ⟨[], connection⟩
        | .closed => .ok [] ⟨[], connection⟩
        | .failed error => .error (.io error) ⟨[], connection⟩ := by
  have received : ∀ size, receive size connection.arrivals = none :=
    fun _ => Buffered.receive_filled_nil none_
  obtain ⟨arrivals, peer⟩ := connection
  have fills : fillBuf ⟨[], ⟨arrivals, peer⟩⟩
      = match peer with
        | .silent => .error .waits ⟨[], ⟨arrivals, peer⟩⟩
        | .closed => .ok [] ⟨[], ⟨arrivals, peer⟩⟩
        | .failed error => .error (.io error) ⟨[], ⟨arrivals, peer⟩⟩ := by
    rw [fillBuf, if_pos rfl, Connection.read]
    simp only [received]
    cases peer <;> rfl
  rw [read]
  split
  case isTrue =>
    rw [Connection.read]
    simp only [received]
    cases peer <;> rfl
  case isFalse =>
    cases peer with
    | silent => exact Receiving.bind_error fills
    | closed =>
        rw [Receiving.bind_ok fills, Receiving.bind_ok (consume_eq _ _)]
        simp [pure, EStateM.pure]
    | failed error => exact Receiving.bind_error fills

/-- A read that fails waits for an open connection, or passes the error on. -/
theorem read_failure {reader after : BufReader} {size : Nat} {failure : Failure}
    (fails : read size reader = .error failure after)
    : failure = .waits ∧ reader.connection.peer = .silent ∨ ∃ error, failure = .io error := by
  obtain ⟨buffer, connection⟩ := reader
  by_cases empty : buffer = []
  · subst empty
    cases first : Buffered.filled connection.arrivals with
    | nil =>
        rw [read_nothing first] at fails
        cases peer : connection.peer with
        | silent =>
            rw [peer] at fails
            cases fails
            exact Or.inl ⟨rfl, rfl⟩
        | closed =>
            rw [peer] at fails
            cases fails
        | failed error =>
            rw [peer] at fails
            cases fails
            exact Or.inr ⟨error, rfl⟩
    | cons piece rest =>
        obtain ⟨later, -, reads⟩ := read_piece first size
        rw [reads] at fails
        split at fails <;> cases fails
  · rw [read_buffered empty] at fails
    cases fails

/-- A read goes on with the same peer. -/
theorem read_peer {reader after : BufReader} {size : Nat} {bytes : Bytes}
    (reads : read size reader = .ok bytes after)
    : after.connection.peer = reader.connection.peer := by
  obtain ⟨buffer, connection⟩ := reader
  by_cases empty : buffer = []
  · subst empty
    cases first : Buffered.filled connection.arrivals with
    | nil =>
        rw [read_nothing first] at reads
        cases peer : connection.peer <;> rw [peer] at reads <;> cases reads
        exact peer
    | cons piece rest =>
        obtain ⟨later, -, taken⟩ := read_piece first size
        rw [taken] at reads
        split at reads <;> cases reads <;> rfl
  · rw [read_buffered empty] at reads
    cases reads
    rfl

/-- A read returns all it asks for exactly if they are held. -/
theorem read_full_iff (reader : BufReader) (size : Nat)
    : (∃ bytes after, read size reader = .ok bytes after ∧ bytes.length = size)
      ↔ reader.Holds size := by
  obtain ⟨buffer, connection⟩ := reader
  by_cases empty : buffer = []
  · subst empty
    rw [BufReader.Holds, if_pos rfl]
    cases first : filled connection.arrivals with
    | nil =>
        rw [read_nothing first]
        cases connection.peer <;> simp [eq_comm]
    | cons piece rest =>
        obtain ⟨later, -, reads⟩ := read_piece first size
        have length : (piece.take size).length = size ↔ size ≤ piece.length := by
          rw [List.length_take]
          omega
        rw [reads]
        split <;> simp [List.length_take]
  · rw [BufReader.Holds, if_neg empty, read_buffered empty]
    simp

/-- A read takes bytes from the front, at most as many as it asks for. -/
theorem read_stream {reader after : BufReader} {size : Nat} {bytes : Bytes}
    (reads : read size reader = .ok bytes after)
    : reader.stream = bytes ++ after.stream ∧ bytes.length ≤ size := by
  obtain ⟨buffer, connection⟩ := reader
  by_cases empty : buffer = []
  · subst empty
    cases first : filled connection.arrivals with
    | nil =>
        rw [read_nothing first] at reads
        cases ends : connection.peer <;> rw [ends] at reads <;> cases reads
        exact ⟨rfl, Nat.zero_le _⟩
    | cons piece rest =>
        obtain ⟨later, same, reads_⟩ := read_piece first size
        have stream : connection.arrivals.flatten = piece ++ later.flatten := by
          rw [← Buffered.filled_flatten, first, List.flatten_cons, ← same, Buffered.filled_flatten]
        have short : (piece.take size).length ≤ size := List.length_take_le _ _
        rw [reads_] at reads
        split at reads
        case isTrue =>
          cases reads
          refine ⟨?_, short⟩
          simp only [BufReader.stream, BufReader.buffered, Buffered.stream, stream,
            List.nil_append, List.flatten_cons]
          rw [← List.append_assoc, List.take_append_drop]
        case isFalse small =>
          cases reads
          refine ⟨?_, short⟩
          have taken : piece.take size = (piece.take BufReader.capacity).take size := by
            rw [List.take_take, Nat.min_eq_left (Nat.le_of_not_le small)]
          simp only [BufReader.stream, BufReader.buffered, Buffered.stream, stream,
            List.nil_append, List.flatten_cons]
          rw [taken, ← List.append_assoc, List.take_append_drop, ← List.append_assoc,
            List.take_append_drop]
  · rw [read_buffered empty] at reads
    cases reads
    refine ⟨?_, List.length_take_le _ _⟩
    simp only [BufReader.stream, BufReader.buffered, Buffered.stream]
    rw [← List.append_assoc, List.take_append_drop]

end NetworkAccess
