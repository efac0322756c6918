import NetworkAccess.Correctness.RoundTrip
import NetworkAccess.Dummy.Memory

/-! A write request with its block and the read of the same bytes: the dummy takes the payload as it
is only if its flag says that the header was read before.
-/

namespace NetworkAccess

/-- What the block of a write request is to do. -/
structure Stored (socket : SOCKET) (memory : MemoryName) (offset : Nat) (data : Bytes)
    (before written : Dummy)
    : Prop where
  stored
    : (written.memory memory).bytes = overwritten (before.memory memory).bytes offset data
  kept : ∀ other, other ≠ memory → written.memory other = before.memory other
  answered : written.sent = before.sent ++ [(socket, ascii "\n\n")]
  defined : written.undefined = false

/-- What a read of the same bytes behind it is to do. -/
structure ReadBack (socket : SOCKET) (data : Bytes) (written final : Dummy) : Prop where
  sent
    : final.sent
      = written.sent ++ [(socket, [0]), (socket, htonl data.length), (socket, data)]
  memory : final.memory = written.memory
  defined : final.undefined = false

/-- The four bytes at the front, taken for a header, announce the rest, and the rest, put in the
place of the data, makes the data appear there.
-/
def PosesAsHeader (bytes : Bytes) (offset : Nat) (data : Bytes) : Prop :=
  4 < data.length
  ∧ data.length - 4 = ntohl data
  ∧ data = data.drop 4 ++ (bytes.drop (offset + (data.length - 4))).take 4

instance (bytes : Bytes) (offset : Nat) (data : Bytes)
    : Decidable (PosesAsHeader bytes offset data) :=
  inferInstanceAs (Decidable (_ ∧ _ ∧ _))

/-- When the dummy takes a payload as it was meant. -/
def Dummy.TakesPayload (dummy : Dummy) (memory : MemoryName) (offset : Nat) (data : Bytes)
    : Prop :=
  HexStringFits data.length
  ∧ (dummy.sizeHeaderGet = true
    ∨ PosesAsHeader (dummy.memory memory).bytes offset data)

instance (dummy : Dummy) (memory : MemoryName) (offset : Nat) (data : Bytes)
    : Decidable (dummy.TakesPayload memory offset data) :=
  inferInstanceAs (Decidable (_ ∧ (_ ∨ _)))

/-- Without the flag, the copy of the rest changes what the data would change and completes the
write exactly if the data pose as a header.
-/
theorem posesAsHeader_iff (bytes : Bytes) (offset : Nat) (data : Bytes)
    : (data.drop 4 ≠ []
        ∧ overwritten bytes offset (data.drop 4) = overwritten bytes offset data
        ∧ (data.drop 4).length = ntohl data)
      ↔ PosesAsHeader bytes offset data := by
  rw [PosesAsHeader, overwritten_inj (by simp), ← List.length_pos_iff, List.length_drop]
  constructor
  · rintro ⟨long, same, size⟩
    rw [show data.length - (data.length - 4) = 4 by omega] at same
    exact ⟨by omega, size, same⟩
  · rintro ⟨long, size, same⟩
    rw [show data.length - (data.length - 4) = 4 by omega]
    exact ⟨by omega, same, size⟩

section Writes

variable {before : Dummy} {memory : MemoryName} {offset : Nat} {data : Bytes}
  (defined : before.undefined = false)
  (inside : offset + data.length ≤ (before.memory memory).bytes.length)
  (counted : data.length < 2 ^ 32)
include defined inside counted

/-- A copy behind the line of the request does what the block is to do if it changes what the data
would change and has the size that the dummy waits for.
-/
theorem stored_copy_iff (socket : SOCKET) {size : Nat} {copied : Bytes} (some_ : copied ≠ [])
    (shorter : copied.length ≤ data.length)
    : Stored socket memory offset data before
        ((before.awaiting memory offset size).copyToMemory socket copied)
      ↔ overwritten (before.memory memory).bytes offset copied
          = overwritten (before.memory memory).bytes offset data
        ∧ copied.length = size := by
  have room : offset + copied.length ≤ (before.memory memory).bytes.length :=
    (Nat.add_le_add_left shorter offset).trans inside
  obtain ⟨changed, others, sent, left⟩ :=
    Dummy.awaiting_copy socket some_ room (Nat.lt_of_le_of_lt shorter counted)
  constructor
  · intro stored
    refine ⟨changed.symm.trans stored.stored, ?_⟩
    by_contra more
    rw [if_neg more, stored.answered] at sent
    exact List.cons_ne_nil _ _ (List.append_right_eq_self.mp sent)
  · rintro ⟨same, full⟩
    rw [if_pos full] at sent
    exact {
      stored := changed.trans same
      kept := others
      answered := sent
      defined := left.trans defined
    }

/-- The block does what it is to do exactly if the dummy takes the payload as it is. -/
theorem stored_iff (socket : SOCKET) (positive : 1 ≤ data.length)
    : Stored socket memory offset data before
        (writeToMemory socket data (before.announce memory offset data.length)).2
      ↔ before.TakesPayload memory offset data := by
  have left {dummy : Dummy} : ¬ Stored socket memory offset data before dummy.leave :=
    fun stored => absurd stored.defined (by simp [Dummy.leave])
  by_cases shown : HexStringFits data.length
  case neg =>
    rw [Dummy.TakesPayload, writeToMemory, if_pos shown]
    exact iff_of_false left (fun takes => shown takes.1)
  cases flag : before.sizeHeaderGet with
  | true =>
      have takes : before.TakesPayload memory offset data := ⟨shown, .inl flag⟩
      rw [writeToMemory_flag socket shown flag]
      refine iff_of_true ?_ takes
      exact (stored_copy_iff defined inside counted socket (List.length_pos_iff.mp positive)
        (Nat.le_refl _)).mpr ⟨rfl, rfl⟩
  | false =>
      have takes : before.TakesPayload memory offset data
          ↔ PosesAsHeader (before.memory memory).bytes offset data := by
        simp only [Dummy.TakesPayload, shown, flag, Bool.false_eq_true, false_or, true_and]
      rw [writeToMemory_header socket shown flag, takes, ← posesAsHeader_iff]
      by_cases long : 4 < data.length
      · have rest : data.drop 4 ≠ [] := mt List.drop_eq_nil_iff.mp (by omega)
        rw [if_neg (by omega), stored_copy_iff defined inside counted socket rest (by simp)]
        simp only [ne_eq, rest, not_false_eq_true, true_and]
      · have rest : data.drop 4 = [] := List.drop_eq_nil_of_le (by omega)
        simp only [rest, ne_eq, not_true_eq_false, false_and, iff_false]
        split
        case isTrue => exact left
        case isFalse =>
          -- a header alone is not answered
          intro stored
          have answered := stored.answered
          rw [Dummy.copyToMemory, if_pos rfl] at answered
          exact List.cons_ne_nil _ _ (List.append_right_eq_self.mp answered.symm)

omit defined in

/-- A read of what the block has stored sends it. -/
theorem Stored.readBack {written : Dummy} (socket : SOCKET) (low : offset < 2 ^ 63)
    (shown : HexStringFits data.length)
    (stored : Stored socket memory offset data before written)
    : ReadBack socket data written
        (dummyCoreMemoryRead socket (rangeArgs memory offset data.length) written).2 := by
  have length : (written.memory memory).bytes.length = (before.memory memory).bytes.length := by
    rw [stored.stored, overwritten_length inside]
  have bytes : ((written.memory memory).bytes.drop offset).take data.length = data := by
    rw [stored.stored, overwritten_read (by omega)]
  rw [dummyCoreMemoryRead_rangeArgs socket memory low counted written (length ▸ inside) shown,
    bytes]
  exact {
    sent := rfl
    memory := rfl
    defined := stored.defined
  }

end Writes

-----------------------------------------------------------------------------------------
-- The requests on a connection
-----------------------------------------------------------------------------------------

/-- A write request is answered, and it does what `write_to_memory` does after its line announced
the destination.
-/
theorem writeRequest_perform (socket : SOCKET) {memory : MemoryName} {offset : Nat} {data : Bytes}
    (low : offset < 2 ^ 63) (counted : data.length < 2 ^ 32) (before : Dummy)
    : let request := writeRequest memory offset data
      request.Answered Dummy.host socket before
      ∧ (request.perform Dummy.host socket before).2
        = (writeToMemory socket data (before.announce memory offset data.length)).2 := by
  have served : (writeRequest memory offset data).served Dummy.host socket before
      = let args := rangeArgs memory offset data.length
        let result := dummyCoreMemoryWrite socket args before
        ⟨result.1, result.2, [.handled socket (.generic .bCoreWrite) args result.1]⟩ := rfl
  simp only [dummyCoreMemoryWrite_rangeArgs socket memory low counted before] at served
  refine ⟨.inr (.inl (congrArg Served.size served)), ?_⟩
  rw [Request.perform.eq_def, served]
  simp only [writeRequest]
  rw [if_neg (by omega)]
  rfl

/-- One request, in reads of its own, on a connection between two requests. -/
theorem feedReads_request {client : Client} (wellFormed : client.WellFormed)
    (idle : client.parser.phase = .idle) {dummy : Dummy} {request : Request}
    (sendable : request.Sendable)
    (answered : request.Answered Dummy.host client.socketFd dummy) {reads : List ClientRead}
    (stream : reads.flatMap ClientRead.bytes = request.encode)
    : ∃ events last,
        feedReads Dummy.host (client, dummy) reads
          = .emit events (last, (request.perform Dummy.host client.socketFd dummy).2)
        ∧ last.WellFormed
        ∧ last.parser.phase = .idle
        ∧ last.socketFd = client.socketFd := by
  have builtin : resolve Dummy.host bCoreWriteName
      = .generic .bCoreWrite ⟨.bCoreWrite, dummyCoreMemoryWrite⟩ := rfl
  have ends : BlocksEndReads [request] reads := by
    intro before args data after same
    cases before with
    | nil =>
        cases same
        exact ⟨reads, [], (List.append_nil _).symm, by simp [stream]⟩
    | cons first rest => simp at same
  obtain ⟨last, turn, formed, between⟩ := feedReads_requests builtin wellFormed idle
    (List.forall_mem_singleton.mpr sendable) ⟨answered, trivial⟩
    (by rw [stream, List.flatMap_singleton]) ends
  have kept := feedReads_kept wellFormed (by rw [turn]; rfl : _ = Except.ok (last, _))
  exact ⟨_, last, turn, formed, between, kept.2⟩

/-- A write of bytes into a memory and the read of the same bytes behind it, on any connection that
is between two requests and from any state of the dummy, do what they are to do exactly if the dummy
takes the payload as it is: the flag is left over from an earlier write, or the payload happens to
pose as a header.
-/
theorem memoryWrite_readBack_iff (client : Client) (wellFormed : client.WellFormed)
    (waiting : client.state = .waitingForCommand) (before : Dummy)
    (defined : before.undefined = false) (memory : MemoryName) (offset : Nat) (data : Bytes)
    (positive : 1 ≤ data.length)
    (inside : offset + data.length ≤ (before.memory memory).bytes.length)
    (counted : data.length < 2 ^ 32) (writes reads : List ClientRead)
    (request : writes.flatMap ClientRead.bytes = (writeRequest memory offset data).encode)
    (following
      : reads.flatMap ClientRead.bytes = (readRequest memory offset data.length).encode)
    : ∃ events middle written more last final,
        feedReads Dummy.host (client, before) writes = .emit events (middle, written)
        ∧ feedReads Dummy.host (middle, written) reads = .emit more (last, final)
        ∧ (Stored client.socketFd memory offset data before written
            ∧ ReadBack client.socketFd data written final
          ↔ before.TakesPayload memory offset data) := by
  have low : offset < 2 ^ 63 := by
    have fits := (before.memory memory).fits
    omega
  have idle : client.parser.phase = .idle := by
    simp only [Client.parser, Client.phase, waiting]
  obtain ⟨answered, performed⟩ := writeRequest_perform client.socketFd low counted before
  obtain ⟨events, middle, first, formed, between, socket⟩ :=
    feedReads_request wellFormed idle (writeRequest_sendable memory low positive counted) answered
      request
  obtain ⟨more, last, second, -⟩ :=
    feedReads_request formed between (readRequest_sendable memory low (by omega)) trivial following
  refine ⟨events, middle, _, more, last, _, first, second, ?_⟩
  rw [performed, socket]
  have stored := stored_iff defined inside counted client.socketFd positive
  constructor
  · exact fun both => stored.mp both.1
  · intro takes
    have writes := stored.mpr takes
    exact ⟨writes, writes.readBack inside counted client.socketFd low takes.1⟩

/-- The payload of the examples. -/
def eightBytes : Bytes := [1, 2, 3, 4, 5, 6, 7, 8]

/-- Those bytes written to the front of the work memory, the block in two reads. -/
def writingReads : List ClientRead := [
  ⟨ascii "bCORE_WRITE WRAM;0;8\n", by decide, by decide⟩,
  ⟨[0, 0, 0, 0, 8, 1, 2, 3], by decide, by decide⟩,
  ⟨[4, 5, 6, 7, 8], by decide, by decide⟩
]

/-- The request that reads the payload back. -/
def readingReads : List ClientRead := [
  ⟨ascii "CORE_READ WRAM;0;8\n", by decide, by decide⟩
]

/-- The first write after the start loses the first four bytes, puts the others in their place and
is not answered; the read sends what is there.
-/
theorem memoryWrite_misplaced
    : ∃ events middle written more last final,
        feedReads Dummy.host (Client.zero.add 4, smallDummy) writingReads
          = .emit events (middle, written)
        ∧ feedReads Dummy.host (middle, written) readingReads = .emit more (last, final)
        ∧ (written.memory .wram).bytes = [5, 6, 7, 8, 0, 0, 0, 0]
        ∧ written.sent = []
        ∧ final.sent = [(4, [0]), (4, [0, 0, 0, 8]), (4, [5, 6, 7, 8, 0, 0, 0, 0])]
        ∧ ¬ (Stored 4 .wram 0 eightBytes smallDummy written
          ∧ ReadBack 4 eightBytes written final) := by
  have writable : (writeRequest .wram 0 eightBytes).Sendable :=
    writeRequest_sendable .wram (by decide) (by decide) (by decide)
  have readable : (readRequest .wram 0 8).Sendable :=
    readRequest_sendable .wram (by decide) (by decide)
  have formed := Client.zero.wellFormed_add 4
  obtain ⟨events, middle, first, formed, between, socket⟩ :=
    feedReads_request formed rfl writable
      (show Request.Answered Dummy.host 4 smallDummy _ from .inr (.inl rfl))
      (show writingReads.flatMap ClientRead.bytes = _ by decide)
  obtain ⟨more, last, second, -⟩ :=
    feedReads_request formed between readable trivial
      (show readingReads.flatMap ClientRead.bytes = _ by decide)
  rw [show middle.socketFd = 4 from socket] at second
  refine ⟨events, middle, _, more, last, _, first, second, by decide, by decide, by decide, ?_⟩
  intro both
  exact absurd both.1.answered (by decide)

/-- Witness: the flag is left over from a write of four bytes. -/
theorem memoryWrite_readBack_flag
    : ∃ events middle written more last final,
        feedReads Dummy.host (Client.zero.add 4, { smallDummy with sizeHeaderGet := true })
            writingReads
          = .emit events (middle, written)
        ∧ feedReads Dummy.host (middle, written) readingReads = .emit more (last, final)
        ∧ Stored 4 .wram 0 eightBytes { smallDummy with sizeHeaderGet := true } written
        ∧ ReadBack 4 eightBytes written final := by
  obtain ⟨events, middle, written, more, last, final, first, second, same⟩ :=
    memoryWrite_readBack_iff (Client.zero.add 4) (Client.zero.wellFormed_add 4) rfl
      { smallDummy with sizeHeaderGet := true } rfl .wram 0 eightBytes (by decide) (by decide)
      (by decide) writingReads readingReads (by decide) (by decide)
  obtain ⟨stored, read⟩ := same.mpr ⟨by decide, .inl rfl⟩
  exact ⟨events, middle, written, more, last, final, first, second, stored, read⟩

end NetworkAccess
