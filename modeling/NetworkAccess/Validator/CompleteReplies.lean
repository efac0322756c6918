import NetworkAccess.Library.PrefixFree
import NetworkAccess.Validator.Lines

/-! Complete replies as the protocol describes them, and what `get_reply` needs to return at all.
-/

namespace NetworkAccess

/-- Lines with their newlines. -/
def joinLines (lines : List Bytes) : Bytes := lines.flatMap (· ++ [newline])

/-- Lines between a newline and an empty line. -/
def linesText (lines : List Bytes) : Bytes := newline :: joinLines (lines ++ [[]])

/-- A complete text reply starts with a newline and ends with the first empty line. -/
def CompleteAscii (text : Bytes) : Prop :=
  ∃ lines : List Bytes,
    (∀ line ∈ lines, line ≠ [] ∧ newline ∉ line) ∧ text = linesText lines

/-- A complete block: the length of the data is the size in the header. -/
def CompleteBinary (text : Bytes) : Prop :=
  ∃ data : Bytes, data.length < 2 ^ 32 ∧ text = 0 :: htonl data.length ++ data

/-- A complete reply, of one form or the other. -/
def CompleteReply (text : Bytes) : Prop := CompleteAscii text ∨ CompleteBinary text

-----------------------------------------------------------------------------------------
-- Lines
-----------------------------------------------------------------------------------------

/-- There are no more lines than bytes in them. -/
theorem length_le_joinLines (lines : List Bytes) : lines.length ≤ (joinLines lines).length := by
  induction lines with
  | nil => exact Nat.le_refl _
  | cons line rest ih =>
      rw [joinLines, List.flatMap_cons, ← joinLines, List.length_append, List.length_append,
        List.length_singleton, List.length_cons]
      omega

/-- Lines that stand in front of other bytes are split off in order, by induction on them. -/
theorem completeLines_join {lines : List Bytes} (closed : ∀ line ∈ lines, newline ∉ line)
    (rest : Bytes)
    : completeLines (joinLines lines ++ rest) = lines ++ completeLines rest := by
  induction lines with
  | nil => rfl
  | cons line more ih =>
      obtain ⟨here, later⟩ := List.forall_mem_cons.mp closed
      have split : joinLines (line :: more) ++ rest
          = line ++ newline :: (joinLines more ++ rest) := by
        simp [joinLines]
      rw [split, completeLines_line here, ih later, List.cons_append]

/-- A text that ends with a newline is its lines, by induction on its length. -/
theorem joinLines_complete (body : Bytes)
    : joinLines (completeLines (body ++ [newline])) = body ++ [newline] := by
  generalize size : body.length = length
  induction length using Nat.strongRecOn generalizing body with
  | ind length ih =>
      by_cases some_ : newline ∈ body
      · obtain ⟨first, rest, rfl, open_⟩ := List.eq_append_cons_of_mem some_
        rw [List.length_append, List.length_cons] at size
        have later := ih rest.length (by omega) rest rfl
        rw [List.append_assoc, List.cons_append, completeLines_line open_, joinLines,
          List.flatMap_cons, ← joinLines, later, List.append_assoc, List.singleton_append]
      · rw [completeLines_line some_, completeLines_open List.not_mem_nil]
        simp [joinLines]

/-- The lines of a complete reply, with anything behind it. -/
theorem completeLines_ascii {lines : List Bytes}
    (full : ∀ line ∈ lines, line ≠ [] ∧ newline ∉ line) (rest : Bytes)
    : completeLines (joinLines (lines ++ [[]]) ++ rest) = lines ++ [] :: completeLines rest := by
  have closed : ∀ line ∈ lines ++ [[]], newline ∉ line := by
    simp only [List.forall_mem_append, List.forall_mem_singleton]
    exact ⟨fun line member => (full line member).2, List.not_mem_nil⟩
  rw [completeLines_join closed, List.append_assoc, List.singleton_append]

-----------------------------------------------------------------------------------------
-- One reading only
-----------------------------------------------------------------------------------------

/-- A complete text reply that begins another one is that one. -/
theorem CompleteAscii.eq_of_begins {left right : Bytes} (one : CompleteAscii left)
    (other : CompleteAscii right) (begins : left <+: right)
    : left = right := by
  obtain ⟨lines, full, rfl⟩ := one
  obtain ⟨others, fullOthers, rfl⟩ := other
  obtain ⟨rest, same⟩ := begins
  rw [linesText, List.cons_append] at same
  have texts := congrArg completeLines (List.cons.inj same).2
  have noRest := completeLines_ascii fullOthers []
  rw [List.append_nil, completeLines_open List.not_mem_nil] at noRest
  rw [completeLines_ascii full, noRest] at texts
  have equal := (List.append_cons_inj_of_notMem (fun member => (fullOthers _ member).1 rfl)
    List.not_mem_nil).mp texts.symm
  rw [equal.1]

/-- A complete block that begins another one is that one. -/
theorem CompleteBinary.eq_of_begins {left right : Bytes} (one : CompleteBinary left)
    (other : CompleteBinary right) (begins : left <+: right)
    : left = right := by
  obtain ⟨data, fits, rfl⟩ := one
  obtain ⟨others, fitsOthers, rfl⟩ := other
  obtain ⟨rest, same⟩ := begins
  rw [List.append_assoc] at same
  obtain ⟨header, contents⟩ := List.append_inj same rfl
  have size := congrArg headerSize (List.cons.inj header).2
  rw [headerSize_htonl fits, headerSize_htonl fitsOthers] at size
  have none_ : rest = [] := by
    have length := congrArg List.length contents
    rw [List.length_append] at length
    exact List.eq_nil_of_length_eq_zero (by omega)
  rw [none_, List.append_nil] at contents
  rw [contents]

/-- No complete reply begins another one, so that a sequence of them can be taken apart. -/
theorem completeReply_prefixFree : PrefixFree CompleteReply where
  nonempty := by rintro (⟨_, -, empty⟩ | ⟨_, -, empty⟩) <;> cases empty
  eq_of_begins := by
    rintro left right (one | one) (other | other) begins
    · exact one.eq_of_begins other begins
    · obtain ⟨_, -, rfl⟩ := one
      obtain ⟨_, -, rfl⟩ := other
      obtain ⟨_, same⟩ := begins
      cases (List.cons.inj same).1
    · obtain ⟨_, -, rfl⟩ := one
      obtain ⟨_, -, rfl⟩ := other
      obtain ⟨_, same⟩ := begins
      cases (List.cons.inj same).1
    · exact one.eq_of_begins other begins

-----------------------------------------------------------------------------------------
-- Reading a whole reply
-----------------------------------------------------------------------------------------

/-- `get_reply` returns a reply, and its reader has read everything that arrives. -/
def ReadsWhole (connection : Connection) : Prop :=
  ∃ reply reader, readReply (BufReader.new connection) = .ok reply reader ∧ reader.stream = []

/-- A line that `get_reply` takes for a pair. -/
def Scannable (line : Bytes) : Prop := LineFits line ∧ colon ∈ line

instance : DecidablePred Scannable := fun line =>
  inferInstanceAs (Decidable (LineFits line ∧ colon ∈ line))

/-- The loop reads all lines of pairs and the empty one behind them, by induction on the lines. -/
theorem asciiLoop_scannable {lines : List Bytes} (closed : ∀ line ∈ lines, newline ∉ line)
    (scannable : ∀ line ∈ lines, Scannable line) {reader : BufReader}
    (stream : reader.stream = joinLines (lines ++ [[]])) {fuel : Nat}
    (enough : lines.length < fuel) (map : StringMap)
    : ∃ reply after, asciiLoop fuel map reader = .ok reply after ∧ after.stream = [] := by
  induction lines generalizing reader fuel map with
  | nil =>
      cases fuel with
      | zero => omega
      | succ fuel =>
          obtain ⟨after, advances, ends⟩ := asciiLoop_newline stream fuel map
          exact ⟨_, after, ends, (List.cons.inj (advances.stream.symm.trans stream)).2⟩
  | cons line rest ih =>
      cases fuel with
      | zero => omega
      | succ fuel =>
          obtain ⟨here, later⟩ := List.forall_mem_cons.mp closed
          obtain ⟨pair, pairs⟩ := List.forall_mem_cons.mp scannable
          rw [List.length_cons] at enough
          have split : reader.stream = line ++ newline :: joinLines (rest ++ [[]]) := by
            rw [stream]
            simp [joinLines]
          obtain ⟨next, advances, turn⟩ := asciiLoop_line here split fuel map
          have behind : next.stream = joinLines (rest ++ [[]]) := by
            have both := advances.stream.symm.trans split
            rw [List.append_assoc] at both
            exact (List.cons.inj (List.append_cancel_left both)).2
          obtain ⟨scanned, scan⟩ := (scanLine_line here).1 pair.1 pair.2
          rw [if_neg (List.ne_nil_of_mem pair.2), scan] at turn
          rw [turn]
          exact ih later pairs behind (by omega) _

/-- What is decoded up to the empty line was taken for pairs. -/
theorem decodeLines_scannable {peer : Peer} {lines : List Bytes}
    (full : ∀ line ∈ lines, line ≠ [] ∧ newline ∉ line) {map : StringMap} {reply : EmulatorReply}
    (decodes : decodeLines peer (lines ++ [[]]) map = .ok reply)
    : ∀ line ∈ lines, Scannable line := by
  induction lines generalizing map with
  | nil => exact nofun
  | cons line rest ih =>
      obtain ⟨⟨some_, here⟩, later⟩ := List.forall_mem_cons.mp full
      obtain ⟨-, refused, tooLong⟩ := scanLine_line here
      rw [List.cons_append, decodeLines, if_neg some_] at decodes
      have scannable : Scannable line := by
        by_contra other
        by_cases fits : LineFits line
        · rw [refused fits (fun pair => other ⟨fits, pair⟩)] at decodes
          cases decodes
        · rw [tooLong fits] at decodes
          cases decodes
      refine List.forall_mem_cons.mpr ⟨scannable, ?_⟩
      obtain ⟨pair, scan⟩ := (scanLine_line here).1 scannable.1 scannable.2
      rw [scan] at decodes
      exact ih later decodes

/-- A reply of lines is complete and read to its end exactly if they are all pairs. -/
theorem linesReply_iff {lines : List Bytes} (closed : ∀ line ∈ lines, newline ∉ line)
    {connection : Connection}
    (arrives : connection.arrivals.flatten = linesText lines)
    : CompleteReply (linesText lines) ∧ ReadsWhole connection
      ↔ ∀ line ∈ lines, Scannable line := by
  have texts : completeLines (joinLines (lines ++ [[]])) = lines ++ [[]] := by
    have both := completeLines_join (List.forall_mem_append.mpr
      ⟨closed, List.forall_mem_singleton.mpr List.not_mem_nil⟩) []
    rwa [List.append_nil, completeLines_open List.not_mem_nil, List.append_nil] at both
  constructor
  · rintro ⟨complete, reply, reader, reads, -⟩
    rcases complete with ⟨others, full, same⟩ | ⟨data, -, same⟩
    · have lines_ := completeLines_ascii full []
      rw [List.append_nil, ← (List.cons.inj same).2, texts, completeLines_open List.not_mem_nil]
        at lines_
      obtain rfl : lines = others := List.append_cancel_right lines_
      have decodes := getReply_lines arrives
      rw [getReply, reads, texts] at decodes
      exact decodeLines_scannable full decodes.symm
    · cases (List.cons.inj same).1
  · intro scannable
    refine ⟨.inl ⟨lines, ?_, rfl⟩, ?_⟩
    · exact fun line member => ⟨List.ne_nil_of_mem (scannable line member).2, closed line member⟩
    · obtain ⟨next, -, stream, reply⟩ := readReply_first arrives
      have enough : lines.length < next.stream.length + 1 := by
        have count := length_le_joinLines (lines ++ [[]])
        rw [← stream, List.length_append] at count
        omega
      rw [if_pos rfl] at reply
      obtain ⟨result, after, ends, none_⟩ := asciiLoop_scannable closed scannable stream enough ∅
      exact ⟨result, after, reply.trans ends, none_⟩

end NetworkAccess
