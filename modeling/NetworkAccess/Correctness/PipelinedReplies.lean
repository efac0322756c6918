import NetworkAccess.Validator.Decoding

/-! Each call of `get_reply` drops what its reader has read ahead, so pipelined replies stay in
place exactly if every reply ends where the buffer is used up.
-/

namespace NetworkAccess

open Buffered (AtRefill Boundary)

/-- Successive calls return the decodings of the replies in order, and each leaves exactly the
bytes behind its own reply.
-/
def InPlace : List (List (Bytes × Bytes)) → Bytes → Connection → Prop
  | [], behind, connection => connection.arrivals.flatten = behind
  | pairs :: rest, behind, connection =>
      let (returned, left) := getReply connection
      returned = .ok (decoded pairs)
      ∧ left.arrivals.flatten = rest.flatMap asciiText ++ behind
      ∧ InPlace rest behind left

/-- Every reply fits the arrays and ends where the buffer of its reader is used up. -/
def EndAtRefills (replies : List (List (Bytes × Bytes))) (arrivals : List Bytes) : Prop :=
  (∀ pairs ∈ replies, ∀ pair ∈ pairs, FittingPair pair)
  ∧ ∀ count, count < replies.length
    → AtRefill BufReader.capacity arrivals ((replies.take (count + 1)).flatMap asciiText).length

/-- Replies end at refills exactly if the first does and, from what it leaves, the others do. -/
theorem endAtRefills_cons {pairs : List (Bytes × Bytes)} {rest : List (List (Bytes × Bytes))}
    {arrivals left : List Bytes}
    (moves
      : ∀ count,
          AtRefill BufReader.capacity arrivals ((asciiText pairs).length + count)
            ↔ AtRefill BufReader.capacity left count)
    : EndAtRefills (pairs :: rest) arrivals
      ↔ (∀ pair ∈ pairs, FittingPair pair) ∧ EndAtRefills rest left := by
  have first : AtRefill BufReader.capacity arrivals (asciiText pairs).length :=
    (moves 0).mpr (Buffered.atRefill_zero left)
  have later : (∀ count, count < rest.length + 1
        → AtRefill BufReader.capacity arrivals
            (((pairs :: rest).take (count + 1)).flatMap asciiText).length)
      ↔ ∀ count, count < rest.length
        → AtRefill BufReader.capacity left ((rest.take (count + 1)).flatMap asciiText).length := by
    constructor
    · intro all count inside
      have here := all (count + 1) (Nat.succ_lt_succ inside)
      rwa [List.take_succ_cons, List.flatMap_cons, List.length_append, moves] at here
    · intro all count inside
      cases count with
      | zero => simpa using first
      | succ count =>
          rw [List.take_succ_cons, List.flatMap_cons, List.length_append, moves]
          exact all count (Nat.lt_of_succ_lt_succ inside)
  rw [EndAtRefills, EndAtRefills, List.forall_mem_cons, List.length_cons, later, and_assoc]

/-- One call: what it leaves is what the reply is followed by if the buffer is used up, and then
the next reader fills its buffer at the same places.
-/
theorem getReply_leaves {pairs : List (Bytes × Bytes)} (clean : ∀ pair ∈ pairs, CleanPair pair)
    (fits : ∀ pair ∈ pairs, FittingPair pair) {behind : Bytes} {connection : Connection}
    (arrives : connection.arrivals.flatten = asciiText pairs ++ behind)
    : ∃ left,
        getReply connection = (.ok (decoded pairs), left)
        ∧ (left.arrivals.flatten = behind
          ↔ AtRefill BufReader.capacity connection.arrivals (asciiText pairs).length)
        ∧ (left.arrivals.flatten = behind
          → ∀ count,
              AtRefill BufReader.capacity connection.arrivals ((asciiText pairs).length + count)
                ↔ AtRefill BufReader.capacity left.arrivals count) := by
  obtain ⟨after, run⟩ := readReply_ascii clean arrives
  rw [if_pos fits] at run
  obtain ⟨advances, returns⟩ := run
  have stream : after.buffer ++ after.connection.arrivals.flatten = behind :=
    List.append_cancel_left (advances.stream.symm.trans arrives)
  have dropped : after.connection.arrivals.flatten = behind ↔ after.buffer = [] := by
    rw [← stream]
    exact ⟨fun same => List.append_left_eq_self.mp same.symm, fun empty => by rw [empty]; rfl⟩
  refine ⟨after.connection, by rw [getReply, returns], ?_, ?_⟩
  · rw [dropped]
    exact advances.buffered.buffer_nil_iff
  · intro kept count
    have boundary := advances.buffered.boundary count
    have empty := dropped.mp kept
    simpa [Boundary, BufReader.buffered, BufReader.new, empty] using boundary

/-- For all pipelined replies with any bytes behind them, delivered in any pieces, the calls return
the replies in order and leave the bytes behind each in place if and only if the replies fit the
arrays and each of them ends where its reader has used up its buffer.
-/
theorem pipelined_inPlace_iff (replies : List (List (Bytes × Bytes)))
    (clean : ∀ pairs ∈ replies, ∀ pair ∈ pairs, CleanPair pair) (behind : Bytes)
    (connection : Connection)
    (arrives : connection.arrivals.flatten = replies.flatMap asciiText ++ behind)
    : InPlace replies behind connection ↔ EndAtRefills replies connection.arrivals := by
  induction replies generalizing connection with
  | nil => exact ⟨fun _ => ⟨nofun, nofun⟩, fun _ => arrives⟩
  | cons pairs rest ih =>
      rw [List.flatMap_cons, List.append_assoc] at arrives
      have here := clean pairs List.mem_cons_self
      by_cases fits : ∀ pair ∈ pairs, FittingPair pair
      · obtain ⟨left, returns, leaves, moves⟩ := getReply_leaves here fits arrives
        rw [InPlace, returns]
        simp only [true_and]
        by_cases kept : left.arrivals.flatten = rest.flatMap asciiText ++ behind
        · rw [endAtRefills_cons (moves kept), and_iff_right kept, and_iff_right fits]
          exact ih (fun pairs member => clean pairs (List.mem_cons_of_mem _ member)) left kept
        · refine ⟨fun inPlace => absurd inPlace.1 kept, fun ends => ?_⟩
          have first := ends.2 0 (Nat.succ_pos _)
          rw [List.take_succ_cons, List.take_zero, List.flatMap_cons, List.flatMap_nil,
            List.append_nil] at first
          exact absurd (leaves.mpr first) kept
      · obtain ⟨after, run⟩ := readReply_ascii here arrives
        rw [if_neg fits] at run
        constructor
        · intro inPlace
          rw [InPlace, getReply, run] at inPlace
          cases inPlace.1
        · exact fun ends => absurd (ends.1 pairs List.mem_cons_self) fits

/-- Two replies in a piece each. -/
theorem pipelined_inPlace_pieces
    : InPlace [[(ascii "state", ascii "running")], []] []
        ⟨[asciiText [(ascii "state", ascii "running")], asciiText []], .silent⟩ := by
  have clean : ∀ pairs ∈ [[(ascii "state", ascii "running")], []], ∀ pair ∈ pairs,
      CleanPair pair := by
    intro pairs member pair inPairs
    simp only [List.mem_cons, List.not_mem_nil, or_false] at member
    rcases member with rfl | rfl
    · cases List.mem_singleton.mp inPairs
      exact ⟨by decide, by decide⟩
    · cases inPairs
  exact (pipelined_inPlace_iff _ clean [] _ (by decide)).mpr ⟨by decide, by decide⟩

/-- Of two replies in one piece, the second is lost. -/
theorem pipelined_lost
    : ¬ ∀ pairs behind,
        (∀ pair ∈ pairs, CleanPair pair)
        → (∀ pair ∈ pairs, FittingPair pair)
        → InPlace [pairs] behind ⟨[asciiText pairs ++ behind], .silent⟩ := by
  intro inPlace
  have first := inPlace [] (asciiText []) nofun nofun
  exact absurd first.2.1 (by decide)

end NetworkAccess
