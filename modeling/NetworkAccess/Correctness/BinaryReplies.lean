import NetworkAccess.Validator.CompleteReplies

/-! Binary replies: `get_reply` takes what two reads return for the header and the data, so a block
comes back exactly if it arrives in pieces that let both reads return everything.
-/

namespace NetworkAccess

open Buffered (filled)

/-- One read of `size` bytes returns them all where `left` bytes stand in the buffer and the pieces
`rest` are still to come.
-/
def DataArrives (size left : Nat) (rest : List Bytes) (peer : Peer) : Prop :=
  if left = 0 then
    match rest with
    | [] => size = 0 ∧ peer = .closed
    | piece :: _ => size ≤ piece.length
  else
    size ≤ left

/-- The four bytes of the size arrive in the piece of the first byte, or in the next one if that
byte comes alone, and the data behind them in the same buffer or, if this ends there, at the start
of the next piece.
-/
def BlockArrives (size : Nat) (peer : Peer) : List Bytes → Prop
  | [] => False
  | first :: rest =>
      if first.length = 1 then
        match rest with
        | [] => False
        | second :: rest =>
            4 ≤ second.length
            ∧ DataArrives size (min second.length BufReader.capacity - 4) rest peer
      else
        5 ≤ first.length ∧ DataArrives size (min first.length BufReader.capacity - 5) rest peer

/-- The reply is the data, and its reader has read the whole reply and nothing behind it. -/
def ReadsBlock (connection : Connection) (data behind : Bytes) : Prop :=
  ∃ reader,
    readReply (BufReader.new connection) = .ok (.binary data) reader
    ∧ reader.stream = behind

/-- Then `get_reply` returns the data. -/
theorem ReadsBlock.getReply_eq {connection : Connection} {data behind : Bytes}
    (readsBlock : ReadsBlock connection data behind)
    : (getReply connection).1 = .ok (.binary data) := by
  obtain ⟨reader, returns, -⟩ := readsBlock
  rw [getReply, returns]

/-- Received bytes that fit into the zeroed buffer leave its length as it is. -/
theorem overlay_length {size : Nat} {bytes : Bytes} (short : bytes.length ≤ size)
    : (overlay size bytes).length = size := by
  rw [overlay, List.length_append, List.length_replicate]
  omega

/-- A buffer that is received whole is what was received. -/
theorem overlay_full {size : Nat} {bytes : Bytes} (full : bytes.length = size)
    : overlay size bytes = bytes := by
  rw [overlay, full, Nat.sub_self, List.replicate_zero, List.append_nil]

/-- Bytes at the front of a stream are given by their number. -/
theorem front_eq {front back bytes rest : Bytes} (same : front ++ back = bytes ++ rest)
    (length : front.length = bytes.length)
    : front = bytes ∧ back = rest :=
  List.append_inj same length

section Behind

variable {data behind : Bytes} (fits : data.length < 2 ^ 32) {reader : BufReader}
  (stream : reader.stream = htonl data.length ++ (data ++ behind))
include fits stream

/-- Behind the first byte, the block is read exactly if the read of its size and the read of its
data return everything.
-/
theorem binaryReply_reads_iff
    : (∃ after, binaryReply reader = .ok (.binary data) after ∧ after.stream = behind)
      ↔ reader.Holds 4
        ∧ ∀ header next, read 4 reader = .ok header next → next.Holds data.length := by
  constructor
  · rintro ⟨after, returns, consumed⟩
    rw [binaryReply] at returns
    cases first : read 4 reader with
    | error failure next =>
        rw [Receiving.bind_error first] at returns
        cases returns
    | ok header next =>
        rw [Receiving.bind_ok first] at returns
        cases second : read (headerSize (overlay 4 header)) next with
        | error failure last =>
            rw [Receiving.bind_error second] at returns
            cases returns
        | ok bytes last =>
            rw [Receiving.bind_ok second] at returns
            generalize headerSize (overlay 4 header) = size at second returns
            cases returns
            obtain ⟨split, headerShort⟩ := read_stream first
            obtain ⟨split_, short⟩ := read_stream second
            have whole := congrArg List.length stream
            rw [split, split_, consumed] at whole
            simp only [List.length_append, htonl, List.length_cons, List.length_nil,
              overlay_length short] at whole
            rw [overlay_length short]
            constructor
            · exact (read_full_iff reader 4).mp ⟨header, next, first, by omega⟩
            · intro header_ next_ again
              cases again
              exact (read_full_iff next size).mp ⟨bytes, after, second, by omega⟩
  · rintro ⟨holds, later⟩
    obtain ⟨header, next, first, full⟩ := (read_full_iff reader 4).mpr holds
    obtain ⟨split, -⟩ := read_stream first
    obtain ⟨rfl, rest⟩ := front_eq (split.symm.trans stream) full
    obtain ⟨bytes, last, second, length⟩ := (read_full_iff next _).mpr (later _ _ first)
    obtain ⟨split_, -⟩ := read_stream second
    obtain ⟨rfl, rest_⟩ := front_eq (split_.symm.trans rest) length
    refine ⟨last, ?_, rest_⟩
    rw [binaryReply, Receiving.bind_ok first, overlay_full full, headerSize_htonl fits,
      Receiving.bind_ok second, overlay_full rfl]
    rfl

end Behind

/-- What a reader holds that has read `count` bytes of its first buffer. -/
theorem holds_chunk (piece : Bytes) {count : Nat} (early : count < BufReader.capacity)
    (later : List Bytes) (peer : Peer) (size : Nat)
    : BufReader.Holds
        ⟨
          (piece.take BufReader.capacity).drop count,
          ⟨piece.drop BufReader.capacity :: later, peer⟩
        ⟩
        size
      ↔ DataArrives size (min piece.length BufReader.capacity - count) (filled later) peer := by
  have length : ((piece.take BufReader.capacity).drop count).length
      = min piece.length BufReader.capacity - count := by
    rw [List.length_drop, List.length_take, Nat.min_comm]
  rw [BufReader.Holds, DataArrives.eq_def, ← length]
  by_cases empty : (piece.take BufReader.capacity).drop count = []
  · have short : piece.length ≤ BufReader.capacity := by
      rw [empty, List.length_nil] at length
      omega
    rw [if_pos empty, if_pos (List.length_eq_zero_iff.mpr empty)]
    simp only [List.drop_eq_nil_of_le short, Buffered.filled_nil_cons]
    rfl
  · rw [if_neg empty, if_neg (fun zero => empty (List.length_eq_zero_iff.mp zero))]

/-- The reader behind the first byte of the first piece. -/
theorem readsBlock_first {connection : Connection} {first : Bytes} {rest : List Bytes}
    (pieces : filled connection.arrivals = first :: rest) (zero : first.head? = some 0)
    (data behind : Bytes)
    : ∃ later,
        filled later = rest
        ∧ let reader : BufReader := {
            buffer := (first.take BufReader.capacity).drop 1
            connection := {
              connection with
              arrivals := first.drop BufReader.capacity :: later
            }
          }
          (BufReader.new connection).stream = 0 :: reader.stream
          ∧ (ReadsBlock connection data behind
            ↔ ∃ after, binaryReply reader = .ok (.binary data) after ∧ after.stream = behind) := by
  obtain ⟨later, same, reads⟩ := read_piece pieces 1
  obtain ⟨more, rfl⟩ := List.head?_eq_some_iff.mp zero
  rw [if_neg (by decide)] at reads
  have goes : readReply ⟨[], connection⟩
      = binaryReply
        ⟨
          ((0 :: more).take BufReader.capacity).drop 1,
          { connection with arrivals := (0 :: more).drop BufReader.capacity :: later }
        ⟩ := by
    rw [readReply, Receiving.bind_ok reads]
    rfl
  refine ⟨later, same, (read_stream reads).1, ?_⟩
  rw [ReadsBlock, BufReader.new, goes]

/-- The read of the size, and what is held behind it. -/
theorem holds_header {first : Bytes} (some_ : first ≠ []) (later : List Bytes) (peer : Peer)
    (size : Nat)
    : let reader : BufReader := {
        buffer := (first.take BufReader.capacity).drop 1
        connection := {
          arrivals := first.drop BufReader.capacity :: later
          peer
        }
      }
      (reader.Holds 4 ∧ ∀ header next, read 4 reader = .ok header next → next.Holds size)
        ↔ BlockArrives size peer (first :: filled later) := by
  intro reader
  have length := List.length_pos_of_ne_nil some_
  have single : ∀ {header next}, read 4 reader = .ok header next
      → ((∀ header next, read 4 reader = .ok header next → next.Holds size) ↔ next.Holds size) := by
    intro header next reads
    refine ⟨fun all => all _ _ reads, fun holds header_ next_ again => ?_⟩
    rw [reads] at again
    cases again
    exact holds
  rw [BlockArrives.eq_def, holds_chunk first (by decide), DataArrives.eq_def]
  simp only
  by_cases alone : first.length = 1
  · have left : min first.length BufReader.capacity - 1 = 0 := by rw [alone]; rfl
    rw [if_pos left, if_pos alone]
    cases pieces : filled later with
    | nil => simp
    | cons second rest =>
        have empty : (first.take BufReader.capacity).drop 1 = [] :=
          List.eq_nil_of_length_eq_zero (by rw [List.length_drop, List.length_take]; omega)
        have dropped : first.drop BufReader.capacity = [] :=
          List.drop_eq_nil_of_le (by rw [alone]; decide)
        have pieces_ : filled (first.drop BufReader.capacity :: later) = second :: rest := by
          rw [dropped, Buffered.filled_nil_cons, pieces]
        obtain ⟨later_, rfl, reads⟩ :=
          read_piece (show filled reader.connection.arrivals = second :: rest from pieces_) 4
        have start : reader = ⟨[], reader.connection⟩ := congrArg (BufReader.mk · _) empty
        rw [if_neg (by decide), ← start] at reads
        rw [single reads, holds_chunk second (by decide)]
  · have size_ : BufReader.capacity = 8192 := rfl
    have left : min first.length BufReader.capacity - 1 ≠ 0 := by omega
    have filled_ : reader.buffer ≠ [] := by
      apply List.ne_nil_of_length_pos
      rw [List.length_drop, List.length_take]
      omega
    have behind : reader.buffer.drop 4 = (first.take BufReader.capacity).drop 5 := List.drop_drop
    have enough : 4 ≤ min first.length BufReader.capacity - 1 ↔ 5 ≤ first.length := by omega
    rw [if_neg left, if_neg alone, single (read_buffered filled_ 4), behind,
      holds_chunk first (by decide), enough]

/-- A block of data is read from a stream that begins with it exactly if its pieces arrive as the
one read of its data needs them.
-/
theorem readsBlock_iff {data behind : Bytes} (fits : data.length < 2 ^ 32)
    {connection : Connection}
    (stream : connection.arrivals.flatten = 0 :: (htonl data.length ++ (data ++ behind)))
    : ReadsBlock connection data behind
      ↔ BlockArrives data.length connection.peer (filled connection.arrivals) := by
  cases pieces : filled connection.arrivals with
  | nil =>
      rw [← Buffered.filled_flatten, pieces] at stream
      cases stream
  | cons first rest =>
      have some_ := Buffered.filled_ne_nil pieces
      have zero : first.head? = some 0 := by
        obtain ⟨byte, more, rfl⟩ := List.exists_cons_of_ne_nil some_
        rw [← Buffered.filled_flatten, pieces] at stream
        rw [(List.cons.inj stream).1, List.head?_cons]
      obtain ⟨later, rfl, split, reads⟩ := readsBlock_first pieces zero data behind
      have left := (List.cons.inj (split.symm.trans stream)).2
      rw [reads, binaryReply_reads_iff fits left]
      exact holds_header some_ later connection.peer data.length

/-- A header that lacks bytes at its end announces no more than the whole one. -/
theorem headerSize_take (size count : Nat)
    : headerSize (overlay 4 ((htonl size).take count)) ≤ headerSize (htonl size) := by
  match count with
  | 0 | 1 | 2 | 3 =>
      simp only [headerSize, overlay, htonl, List.take_succ_cons, List.take_zero,
        List.length_cons, List.length_nil, List.replicate, List.cons_append, List.nil_append,
        List.getD_cons_zero, List.getD_cons_succ, Nat.reduceAdd, Nat.reduceSub,
        Nat.shiftLeft_eq, UInt8.toNat_zero]
      omega
  | count + 4 =>
      have whole : (htonl size).take (count + 4) = htonl size :=
        List.take_of_length_le (Nat.le_add_left 4 count)
      rw [whole, @overlay_full 4 (htonl size) rfl]

/-- To read all of a binary reply is to read the block. -/
theorem readsWhole_block {data : Bytes} (fits : data.length < 2 ^ 32) {connection : Connection}
    (stream : connection.arrivals.flatten = 0 :: (htonl data.length ++ data))
    : ReadsWhole connection ↔ ReadsBlock connection data [] := by
  constructor
  · rintro ⟨reply, after, reads, none_⟩
    obtain ⟨next, -, behind, binary⟩ := readReply_first stream
    rw [if_neg (by decide), if_pos rfl] at binary
    rw [binary] at reads
    have returns := reads
    rw [binaryReply] at reads
    cases first : read 4 next with
    | error failure last =>
        rw [Receiving.bind_error first] at reads
        cases reads
    | ok header middle =>
        rw [Receiving.bind_ok first] at reads
        obtain ⟨split, short⟩ := read_stream first
        have front : header = (htonl data.length).take header.length := by
          have both := congrArg (List.take header.length) (split.symm.trans behind)
          rwa [List.take_left, List.take_append_of_le_length short] at both
        have least := headerSize_take data.length header.length
        rw [← front, headerSize_htonl fits] at least
        generalize headerSize (overlay 4 header) = size at least reads
        cases second : read size middle with
        | error failure last =>
            rw [Receiving.bind_error second] at reads
            cases reads
        | ok bytes last =>
            rw [Receiving.bind_ok second] at reads
            cases reads
            obtain ⟨rest, room⟩ := read_stream second
            rw [split, rest, none_, List.append_nil] at behind
            have lengths := congrArg List.length behind
            simp only [List.length_append, htonl, List.length_cons, List.length_nil] at lengths
            have full : header.length = (htonl data.length).length := by
              simp only [htonl, List.length_cons, List.length_nil]
              omega
            obtain ⟨-, rfl⟩ := front_eq behind full
            refine ⟨after, ?_, none_⟩
            rw [binary, returns, overlay_full (by omega)]
  · rintro ⟨reader, reads, none_⟩
    exact ⟨_, reader, reads, none_⟩

/-- For every payload below 2^32 bytes and every way in which its binary reply arrives, with
anything behind it, `get_reply` returns the payload and reads the whole reply if and only if the
pieces let one read return the size and one read return the data.
-/
theorem binaryReply_roundTrip_iff (socket : SOCKET) (data : Bytes) (fits : data.length < 2 ^ 32)
    (connection : Connection) (behind : Bytes)
    (arrives : connection.arrivals.flatten = sendBinaryBlock transmit socket data [] ++ behind)
    : ReadsBlock connection data behind
      ↔ BlockArrives data.length connection.peer (filled connection.arrivals) := by
  have sends : sendBinaryBlock transmit socket data [] = (Reply.block data fits).text :=
    Reply.send_transmitting socket (.block data fits) []
  apply readsBlock_iff fits
  rw [arrives, sends]
  simp [Reply.text, Reply.writes]

/-- The first byte, the size and the data in a piece each. -/
theorem binaryReply_roundTrip_pieces
    : ReadsBlock ⟨[[0], [0, 0, 0, 3], [1, 2, 3]], .silent⟩ [1, 2, 3] [] :=
  (binaryReply_roundTrip_iff 4 [1, 2, 3] (by decide) ⟨[[0], [0, 0, 0, 3], [1, 2, 3]], .silent⟩ []
    (by decide)).mpr ⟨by decide, Nat.le_refl 3⟩

/-- Data in two pieces is cut behind the first and padded. -/
theorem binaryReply_padded
    : ¬ ∀ socket data connection,
        data.length < 2 ^ 32
        → connection.arrivals.flatten = sendBinaryBlock transmit socket data []
        → (getReply connection).1 = .ok (.binary data) := by
  intro whole
  have returned := whole 4 [1, 2, 3] ⟨[[0, 0, 0, 0, 3], [1, 2], [3]], .silent⟩ (by decide)
    (by decide)
  exact absurd returned (by decide)

end NetworkAccess
