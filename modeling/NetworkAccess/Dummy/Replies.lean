import NetworkAccess.Dummy.Memory
import NetworkAccess.Validator.CompleteReplies

/-! What the handlers of the dummy and its write function send for one request.
-/

namespace NetworkAccess

/-- What was sent on the socket from `before` to `after`, and on no other. -/
def Dummy.Transmits (before : Dummy) (socket : SOCKET) (text : Bytes) (after : Dummy) : Prop :=
  ∃ buffers : List Bytes,
    buffers.flatten = text ∧ after.sent = before.sent ++ buffers.map (socket, ·)

section Transmits

variable {socket : SOCKET} {before middle after : Dummy} {text more : Bytes}

/-- A dummy that makes no call transmits nothing. -/
theorem Dummy.Transmits.nothing (same : after.sent = before.sent)
    : before.Transmits socket [] after :=
  ⟨[], rfl, by rw [same, List.map_nil, List.append_nil]⟩

/-- Two parts transmit the text of both. -/
theorem Dummy.Transmits.trans (first : before.Transmits socket text middle)
    (later : middle.Transmits socket more after)
    : before.Transmits socket (text ++ more) after := by
  obtain ⟨buffers, rfl, sent⟩ := first
  obtain ⟨others, rfl, further⟩ := later
  refine ⟨buffers ++ others, List.flatten_append, ?_⟩
  rw [further, sent, List.map_append, List.append_assoc]

/-- What is sent is transmitted. -/
theorem Sends.transmits (sends : Sends socket before after text)
    : before.Transmits socket text after := by
  obtain ⟨buffers, same, rfl⟩ := sends
  exact ⟨buffers, same, rfl⟩

/-- What is transmitted is determined by the calls. -/
theorem Dummy.Transmits.unique (one : before.Transmits socket text after)
    (other : before.Transmits socket more after)
    : text = more := by
  obtain ⟨buffers, rfl, sent⟩ := one
  obtain ⟨others, rfl, again⟩ := other
  rw [sent_inj (sent.symm.trans again)]

end Transmits

-----------------------------------------------------------------------------------------
-- Replies of lines
-----------------------------------------------------------------------------------------

/-- The lines of the buffers of pairs; a value may hold several. -/
def hashLines (pairs : List (Bytes × Bytes)) : List Bytes :=
  pairs.flatMap (fun pair => completeLines (hashLine pair.1 pair.2))

/-- A hash reply is a text of lines. -/
theorem hash_lines (pairs : List (Bytes × Bytes))
    : (Reply.hash pairs).text = linesText (hashLines pairs) := by
  have each : pairs.flatMap (fun pair => joinLines (completeLines (hashLine pair.1 pair.2)))
      = pairs.flatMap (fun pair => hashLine pair.1 pair.2) :=
    List.flatMap_congr (fun pair _ => joinLines_complete _)
  have body : joinLines (hashLines pairs ++ [[]])
      = pairs.flatMap (fun pair => hashLine pair.1 pair.2) ++ [newline] := by
    rw [joinLines, List.flatMap_append, hashLines, List.flatMap_assoc]
    exact congrArg (· ++ [newline]) each
  rw [linesText, body]
  simp [Reply.text, Reply.writes, List.flatMap_def]

/-- Successive calls of `write`, by induction on them. -/
theorem foldl_write (socket : SOCKET) (buffers : List Bytes) (dummy : Dummy)
    : buffers.foldl (fun dummy buffer => Dummy.write socket buffer dummy) dummy
      = dummy.send socket buffers := by
  induction buffers generalizing dummy with
  | nil => rw [Dummy.send, List.map_nil, List.append_nil, List.foldl_nil]
  | cons buffer rest ih =>
      rw [List.foldl_cons, ih, Dummy.send, Dummy.send, Dummy.write, List.map_cons]
      simp only [List.append_assoc, List.singleton_append]

/-- The dummy sends it so. -/
theorem replyHash_lines (pairs : List (String × Bytes)) (socket : SOCKET) (dummy : Dummy)
    : Sends socket dummy (replyHash pairs socket dummy).2
        (linesText (hashLines (pairs.map (fun pair => (ascii pair.1, pair.2))))) := by
  refine ⟨_, hash_lines _, ?_⟩
  exact (Reply.send_eq Dummy.host socket (.hash _) dummy).trans (foldl_write socket _ dummy)

/-- The reply to `EMULATION_STATUS` has two lines, the first of which is a pair. -/
theorem dummyEmuStatus_lines (socket : SOCKET) (args : List Bytes) (dummy : Dummy)
    : ∃ status,
        Scannable status
        ∧ newline ∉ status
        ∧ Sends socket dummy (dummyEmuStatus socket args dummy).2
            (linesText [status, ascii "game:Dummy game"]) := by
  have ends : ascii "\ngame:Dummy game\n\n"
      = newline :: (ascii "game:Dummy game" ++ [newline, newline]) := by decide
  have sends (status : Bytes)
      : Sends socket dummy
          (Dummy.write socket (ascii "\ngame:Dummy game\n\n")
            (Dummy.write socket status (Dummy.write socket (ascii "\n") dummy)))
          (linesText [status, ascii "game:Dummy game"]) := by
    refine ⟨_, ?_, foldl_write socket [ascii "\n", status, ascii "\ngame:Dummy game\n\n"] dummy⟩
    rw [ends]
    simp [linesText, joinLines, show ascii "\n" = [newline] by decide]
  rw [dummyEmuStatus]
  cases dummy.dummyState with
  | running => exact ⟨ascii "state:running", by decide, by decide, sends _⟩
  | paused => exact ⟨ascii "state:paused", by decide, by decide, sends _⟩
  | stopped => exact ⟨ascii "state:stopped", by decide, by decide, sends _⟩

-----------------------------------------------------------------------------------------
-- Writes
-----------------------------------------------------------------------------------------

/-- The write is complete with this block: the flag is set and the block has the announced size, or
its first four bytes are the size of the rest.
-/
def Dummy.Completes (dummy : Dummy) (size : Nat) (data : Bytes) : Prop :=
  HexStringFits data.length
  ∧ if dummy.sizeHeaderGet then
      size = data.length
    else
      4 < data.length ∧ ntohl data = data.length - 4

section Writes

variable (socket : SOCKET) {before : Dummy} {memory : MemoryName} {offset : Nat} {data : Bytes}
  (defined : before.undefined = false)
  (inside : offset + data.length ≤ (before.memory memory).bytes.length)
  (counted : data.length < 2 ^ 32)
include defined inside counted

/-- A part of a block transmits a simple reply exactly if it completes the block. -/
theorem awaiting_transmits {copied : Bytes} (some_ : copied ≠ [])
    (shorter : copied.length ≤ data.length) (size : Nat)
    : let after := (before.awaiting memory offset size).copyToMemory socket copied
      after.undefined = false
      ∧ before.Transmits socket (if copied.length = size then ascii "\n\n" else []) after := by
  have room : offset + copied.length ≤ (before.memory memory).bytes.length :=
    (Nat.add_le_add_left shorter offset).trans inside
  obtain ⟨-, -, answer, left⟩ :=
    Dummy.awaiting_copy socket some_ room (Nat.lt_of_le_of_lt shorter counted)
  refine ⟨left.trans defined, ?_⟩
  by_cases full : copied.length = size
  · rw [if_pos full]
    exact ⟨[ascii "\n\n"], rfl, answer.trans (if_pos full)⟩
  · rw [if_neg full]
    exact .nothing (answer.trans (if_neg full))

/-- A block in range is answered exactly if it completes the write. -/
theorem writeToMemory_transmits (positive : 1 ≤ data.length) (size : Nat)
    : let after := (writeToMemory socket data (before.announce memory offset size)).2
      (before.Completes size data
        ∧ after.undefined = false
        ∧ before.Transmits socket (ascii "\n\n") after)
      ∨ (¬ before.Completes size data
        ∧ (after.undefined = true ∨ before.Transmits socket [] after)) := by
  intro after
  by_cases shown : HexStringFits data.length
  case neg =>
    refine Or.inr ⟨fun completes => shown completes.1, Or.inl ?_⟩
    simp only [after, writeToMemory, if_pos shown, Dummy.leave]
  cases flag : before.sizeHeaderGet with
  | true =>
      have completes : before.Completes size data ↔ data.length = size := by
        simp only [Dummy.Completes, shown, flag, if_true, true_and, eq_comm]
      have copies := awaiting_transmits socket defined inside counted
        (List.length_pos_iff.mp positive) (Nat.le_refl _) size
      rw [← writeToMemory_flag socket shown flag] at copies
      rw [completes]
      by_cases full : data.length = size
      · rw [if_pos full] at copies
        exact Or.inl ⟨full, copies⟩
      · rw [if_neg full] at copies
        exact Or.inr ⟨full, Or.inr copies.2⟩
  | false =>
      have completes : before.Completes size data
          ↔ 4 < data.length ∧ data.length - 4 = ntohl data := by
        simp only [Dummy.Completes, shown, flag, Bool.false_eq_true, if_false, true_and, eq_comm]
      have header : after = if data.length < 4 then _ else _ :=
        writeToMemory_header socket shown flag
      rw [completes]
      by_cases long : 4 < data.length
      · have rest : data.drop 4 ≠ [] := mt List.drop_eq_nil_iff.mp (by omega)
        have copies := awaiting_transmits socket defined inside counted rest (by simp) (ntohl data)
        rw [if_neg (show ¬ data.length < 4 by omega)] at header
        rw [← header, List.length_drop] at copies
        by_cases full : data.length - 4 = ntohl data
        · rw [if_pos full] at copies
          exact Or.inl ⟨⟨long, full⟩, copies⟩
        · rw [if_neg full] at copies
          exact Or.inr ⟨fun both => full both.2, Or.inr copies.2⟩
      · refine Or.inr ⟨fun both => long both.1, ?_⟩
        have rest : data.drop 4 = [] := List.drop_eq_nil_of_le (by omega)
        by_cases short : data.length < 4
        · rw [if_pos short] at header
          exact Or.inl (by rw [header]; rfl)
        · rw [if_neg short, rest, Dummy.copyToMemory, if_pos rfl] at header
          exact Or.inr (.nothing (by rw [header]; rfl))

end Writes
end NetworkAccess
