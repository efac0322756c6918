import NetworkAccess.Validator.Decoding
import NetworkAccess.Validator.ReadCounts

/-! What `get_reply` makes of arbitrary bytes: an ASCII reply line by line, until it stops or meets
the peer.
-/

namespace NetworkAccess

/-- The lines that end with a newline, without it. -/
def completeLines (bytes : Bytes) : List Bytes := (bytes.splitOn newline).dropLast

/-- Bytes without a newline have no complete line. -/
theorem completeLines_open {bytes : Bytes} (open_ : newline ∉ bytes)
    : completeLines bytes = [] := by
  rw [completeLines, List.splitOn_eq_singleton open_]
  rfl

/-- The first complete line ends at the first newline. -/
theorem completeLines_line {line : Bytes} (open_ : newline ∉ line) (rest : Bytes)
    : completeLines (line ++ newline :: rest) = line :: completeLines rest := by
  rw [completeLines, List.splitOn_append_cons_self_of_not_mem open_,
    List.dropLast_cons_of_ne_nil (List.splitOn_ne_nil _ _)]
  rfl

/-- By induction on the length: the lines hold no newline. -/
theorem completeLines_closed {bytes line : Bytes} (member : line ∈ completeLines bytes)
    : newline ∉ line := by
  generalize size : bytes.length = length
  induction length using Nat.strongRecOn generalizing bytes with
  | ind length ih =>
      by_cases some_ : newline ∈ bytes
      · obtain ⟨first, rest, rfl, open_⟩ := List.eq_append_cons_of_mem some_
        rw [completeLines_line open_] at member
        rw [List.length_append, List.length_cons] at size
        rcases List.mem_cons.mp member with rfl | member
        · exact open_
        · exact ih rest.length (by omega) member rfl
      · rw [completeLines_open some_] at member
        cases member

/-- What the line carries before and behind its first colon fits into the arrays. -/
def LineFits (line : Bytes) : Prop :=
  let key := line.takeWhile (· ≠ colon)
  key.length ≤ keySize ∧ (line.drop (key.length + 1)).length ≤ valueSize

instance : DecidablePred LineFits := fun line =>
  inferInstanceAs
    (Decidable
      ((line.takeWhile (· ≠ colon)).length ≤ keySize
        ∧ (line.drop ((line.takeWhile (· ≠ colon)).length + 1)).length ≤ valueSize))

/-- The bytes before the first colon are the key. -/
theorem takeWhile_colon {key : Bytes} (open_ : colon ∉ key) (value : Bytes)
    : (key ++ colon :: value).takeWhile (· ≠ colon) = key := by
  have inside : ∀ letter ∈ key, decide (letter ≠ colon) = true := by
    intro letter member
    exact decide_eq_true (fun isColon => open_ (isColon ▸ member))
  rw [List.takeWhile_append_of_pos inside]
  simp

/-- A complete line is taken apart, refused for want of a colon, or too long. -/
theorem scanLine_line {line : Bytes} (closed : newline ∉ line)
    : (LineFits line → colon ∈ line → ∃ pair, scanLine (line ++ [newline]) = .ok pair)
      ∧ (LineFits line → colon ∉ line
        → scanLine (line ++ [newline]) = .error (.io ⟨.other, ascii "Mal formed reply"⟩))
      ∧ (¬ LineFits line → scanLine (line ++ [newline]) = .error .panics) := by
  by_cases some_ : colon ∈ line
  · obtain ⟨key, value, rfl, open_⟩ := List.eq_append_cons_of_mem some_
    simp only [List.mem_append, List.mem_cons, not_or] at closed
    have scanned := scanKey_clean ⟨open_, closed.1⟩ (fun other => other.1 rfl) (value ++ [newline])
      [] (Nat.zero_le _)
    have behind := scanValue_clean closed.2.2 [] (Nat.zero_le _)
    rw [List.length_nil, Nat.zero_add, List.nil_append] at scanned behind
    have fits : LineFits (key ++ colon :: value)
        ↔ key.length ≤ keySize ∧ value.length ≤ valueSize := by
      rw [LineFits, takeWhile_colon open_]
      simp
    have differs : colon ≠ newline := by decide
    rw [fits, scanLine, List.append_assoc, List.cons_append, scanned]
    by_cases keyFits : key.length ≤ keySize
    · by_cases valueFits : value.length ≤ valueSize <;>
        simp [keyFits, valueFits, behind, bind, Except.bind, pure, Except.pure, differs]
    · simp [keyFits, bind, Except.bind]
  · have scanned := scanKey_clean ⟨some_, closed⟩ (fun other => other.2 rfl) [] [] (Nat.zero_le _)
    rw [List.length_nil, Nat.zero_add, List.nil_append] at scanned
    have fits : LineFits line ↔ line.length ≤ keySize := by
      have all : line.takeWhile (· ≠ colon) = line := by
        rw [List.takeWhile_eq_self_iff]
        intro letter member
        exact decide_eq_true (fun isColon => some_ (isColon ▸ member))
      rw [LineFits, all]
      simp
    rw [fits, scanLine, scanned]
    by_cases keyFits : line.length ≤ keySize <;>
      simp [keyFits, some_, bind, Except.bind, throw, throwThe, MonadExceptOf.throw]

/-- Behind a line that does not end the arrays are indexed out of range. -/
theorem scanKey_open {bytes : Bytes} (open_ : newline ∉ bytes) (got : Bytes)
    : scanKey bytes got = .error .panics
      ∨ ∃ key rest, scanKey bytes got = .ok (key, colon :: rest) ∧ newline ∉ rest := by
  induction bytes generalizing got with
  | nil => exact Or.inl rfl
  | cons letter rest ih =>
      simp only [List.mem_cons, not_or] at open_
      rw [scanKey]
      split
      case isTrue =>
        split
        case isTrue => exact ih open_.2 _
        case isFalse => exact Or.inl rfl
      case isFalse ends =>
        obtain rfl : letter = colon := by
          by_contra other
          exact ends ⟨other, Ne.symm open_.1⟩
        exact Or.inr ⟨_, _, rfl, open_.2⟩

/-- The scan of a value without a newline runs off the line and panics. By induction on the bytes.
-/
theorem scanValue_open {bytes : Bytes} (open_ : newline ∉ bytes) (got : Bytes)
    : scanValue bytes got = .error .panics := by
  induction bytes generalizing got with
  | nil => rfl
  | cons letter rest ih =>
      simp only [List.mem_cons, not_or] at open_
      rw [scanValue, if_pos (Ne.symm open_.1)]
      split
      case isTrue => exact ih open_.2 _
      case isFalse => rfl

/-- The scan of a line without a newline panics. -/
theorem scanLine_open {line : Bytes} (open_ : newline ∉ line)
    : scanLine line = .error .panics := by
  rcases scanKey_open open_ [] with panics | ⟨key, rest, scanned, behind⟩
  · rw [scanLine, panics]
    rfl
  · have differs : colon ≠ newline := by decide
    rw [scanLine, scanned]
    simp [bind, Except.bind, differs, scanValue_open behind]

-----------------------------------------------------------------------------------------
-- The loop
-----------------------------------------------------------------------------------------

/-- What the loop makes of the lines that are complete, and of the peer behind them. -/
def decodeLines (peer : Peer) : List Bytes → StringMap → Except Failure EmulatorReply
  | [], _ =>
      match peer with
      | .silent => .error .waits
      | .closed => .error .panics
      | .failed error => .error (.io error)
  | line :: rest, map =>
      if line = [] then
        .ok (closing map)
      else
        match scanLine (line ++ [newline]) with
        | .error failure => .error failure
        | .ok (key, value) => decodeLines peer rest (map.insert key value)

/-- One turn on a complete line. -/
theorem asciiLoop_line {line rest : Bytes} (open_ : newline ∉ line) {reader : BufReader}
    (stream : reader.stream = line ++ newline :: rest) (fuel : Nat) (map : StringMap)
    : ∃ after,
        reader.Advances (line ++ [newline]) after
        ∧ asciiLoop (fuel + 1) map reader
          = if line = [] then
              .ok (closing map) after
            else
              match scanLine (line ++ [newline]) with
              | .error failure => .error failure after
              | .ok (key, value) => asciiLoop fuel (map.insert key value) after := by
  obtain ⟨after, reads, advances⟩ := readUntil_line open_ stream
  refine ⟨after, advances, ?_⟩
  rw [asciiLoop, Receiving.bind_ok reads]
  cases line with
  | nil =>
      rw [if_pos rfl, closing]
      by_cases empty : map = ∅ <;> simp [empty, pure, EStateM.pure]
  | cons first more =>
      have inside : first ≠ newline := by
        rintro rfl
        exact open_ List.mem_cons_self
      rw [if_neg (List.cons_ne_nil _ _), List.cons_append]
      simp only [inside, false_and, if_false]
      cases scanLine (first :: (more ++ [newline])) <;> rfl

/-- The last turn, when no further line is complete. -/
theorem asciiLoop_open {reader : BufReader} (open_ : newline ∉ reader.stream) (fuel : Nat)
    (map : StringMap)
    : ∃ after,
        asciiLoop (fuel + 1) map reader
        = match reader.connection.peer with
          | .silent => .error .waits after
          | .closed => .error .panics after
          | .failed error => .error (.io error) after := by
  obtain ⟨after, reads⟩ := readUntil_open open_
  refine ⟨after, ?_⟩
  cases peer : reader.connection.peer <;> rw [peer] at reads <;> dsimp only at reads ⊢
  case silent => rw [asciiLoop, Receiving.bind_error reads]
  case failed => rw [asciiLoop, Receiving.bind_error reads]
  case closed =>
    rw [asciiLoop, Receiving.bind_ok reads]
    cases line : reader.stream with
    | nil => rfl
    | cons first more =>
        rw [line] at open_
        have inside : first ≠ newline := by
          rintro rfl
          exact open_ List.mem_cons_self
        simp only [inside, false_and, if_false, scanLine_open open_]
        rfl

/-- By induction on the turns: the loop decodes the complete lines. -/
theorem asciiLoop_lines {fuel : Nat} {reader : BufReader} (enough : reader.stream.length < fuel)
    (map : StringMap)
    : ∃ after,
        asciiLoop fuel map reader
        = match decodeLines reader.connection.peer (completeLines reader.stream) map with
          | .ok reply => .ok reply after
          | .error failure => .error failure after := by
  induction fuel generalizing reader map with
  | zero => omega
  | succ fuel ih =>
      by_cases some_ : newline ∈ reader.stream
      · obtain ⟨line, rest, stream, open_⟩ := List.eq_append_cons_of_mem some_
        obtain ⟨next, advances, turn⟩ := asciiLoop_line open_ stream fuel map
        have later : next.stream = rest := by
          have both := advances.stream.symm.trans stream
          rw [List.append_assoc] at both
          exact (List.cons.inj (List.append_cancel_left both)).2
        rw [stream, completeLines_line open_, decodeLines, turn]
        by_cases empty : line = []
        · exact ⟨next, by rw [if_pos empty, if_pos empty]⟩
        · rw [if_neg empty, if_neg empty]
          cases scanned : scanLine (line ++ [newline]) with
          | error failure => exact ⟨next, rfl⟩
          | ok pair =>
              rw [stream, List.length_append, List.length_cons] at enough
              have result := ih (show next.stream.length < fuel by rw [later]; omega)
                (map.insert pair.1 pair.2)
              rw [later, advances.peer] at result
              exact result
      · obtain ⟨after, meets⟩ := asciiLoop_open some_ fuel map
        refine ⟨after, ?_⟩
        rw [meets, completeLines_open some_]
        cases reader.connection.peer <;> rfl

/-- The first byte decides what follows. -/
theorem readReply_first {connection : Connection} {first : UInt8} {behind : Bytes}
    (arrives : connection.arrivals.flatten = first :: behind)
    : ∃ next,
        (BufReader.new connection).Advances [first] next
        ∧ next.stream = behind
        ∧ readReply (BufReader.new connection)
          = if first = newline then
              asciiReply next
            else if first = 0 then
              binaryReply next
            else
              .error (.io ⟨.other, ascii "Invalid reply"⟩) next := by
  have stream : (BufReader.new connection).stream = first :: behind := arrives
  obtain ⟨next, reads, advances⟩ := read_one stream
  refine ⟨next, advances, (List.cons.inj (advances.stream.symm.trans stream)).2, ?_⟩
  rw [readReply, Receiving.bind_ok reads]
  dsimp only
  split
  case isTrue => rfl
  case isFalse => split <;> rfl

/-- An ASCII reply is decoded by its lines. -/
theorem getReply_lines {connection : Connection} {behind : Bytes}
    (arrives : connection.arrivals.flatten = newline :: behind)
    : (getReply connection).1 = decodeLines connection.peer (completeLines behind) ∅ := by
  obtain ⟨next, advances, stream, reply⟩ := readReply_first arrives
  obtain ⟨after, decodes⟩ := asciiLoop_lines (Nat.lt_succ_self next.stream.length) ∅
  rw [if_pos rfl, asciiReply, decodes, stream, advances.peer] at reply
  rw [getReply, reply, show (BufReader.new connection).connection = connection from rfl]
  cases decodeLines connection.peer (completeLines behind) ∅ <;> rfl

end NetworkAccess
