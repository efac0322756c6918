import NetworkAccess.Parser.Runs

/-! What the fields of a slot tell between two reads: nothing of one request is left over when the
next one begins.
-/

namespace NetworkAccess

variable {Emulator : Type}

/-- The fields of a slot in each of its states. -/
structure Client.Represents (client : Client) : Prop where
  waiting
    : client.state = .waitingForCommand
      → client.commandDataPos = 0
        ∧ client.binaryBlock = none
        ∧ client.shallowBinaryBlock = false
  getting
    : client.state = .gettingCommand
      → 0 < client.commandDataPos
        ∧ startsCommand client.commandData.head
        ∧ newline ∉ client.commandData.toList.take client.commandDataPos
        ∧ client.binaryBlock = none
        ∧ client.shallowBinaryBlock = false
  expecting
    : client.state = .expectingBinaryData
      → client.commandDataPos = 0
        ∧ client.commandData.head = lowerB
        ∧ client.binaryHeaderSize = 0
        ∧ client.binaryBlock = none
  binary
    : client.state = .gettingBinaryData
      → client.commandDataPos = 0
        ∧ 1 ≤ client.binaryHeaderSize
        ∧ client.binaryHeaderSize ≤ 5
        ∧ client.binaryHeader.head = 0
        ∧ (client.binaryBlock.isSome ↔ client.binaryHeaderSize = 5)
        ∧ (client.binaryHeaderSize = 5
          → client.binaryBlockDefinedSize = client.expectedBlockSize
            ∨ client.expectedBlockSize = 0)

/-- The first byte of what is stored in an array. -/
theorem head?_take_toList {size : Nat} [NeZero size] (bytes : Vector UInt8 size) {count : Nat}
    (some_ : 0 < count)
    : (bytes.toList.take count).head? = some bytes.head := by
  rw [List.head?_take, if_neg (Nat.ne_of_gt some_), List.head?_eq_getElem?,
    Vector.getElem?_toList, Vector.getElem?_eq_getElem (Nat.pos_of_neZero size)]
  rfl

/-- A header is only stored once its first byte, which is 0, is there. -/
theorem Client.BlockStored.begun {client : Client} (stored : client.BlockStored)
    : 1 ≤ client.binaryHeaderSize ∧ client.binaryHeader.head = 0 := by
  have started := stored.started
  rw [Client.partialHeader] at started
  have some_ : 0 < client.binaryHeaderSize := by
    rw [Nat.pos_iff_ne_zero]
    intro none_
    rw [none_, List.take_zero] at started
    cases started
  rw [head?_take_toList _ some_] at started
  exact ⟨some_, Option.some.inj started⟩

/-- A block is allocated exactly when its header is complete. -/
theorem Client.BlockStored.allocated {client : Client} (stored : client.BlockStored)
    : client.binaryBlock.isSome ↔ client.binaryHeaderSize = 5 := by
  constructor
  · intro allocated
    by_contra incomplete
    have short : client.binaryHeaderSize < 5 := Nat.lt_of_le_of_ne stored.header incomplete
    rw [stored.noBlock short] at allocated
    cases allocated
  · intro complete
    obtain ⟨block, here, -⟩ := stored.block complete
    rw [here, Option.isSome_some]

/-- The invariant of the iterations tells all of it. -/
theorem Client.WellFormed.represents {client : Client} (wellFormed : client.WellFormed)
    : client.Represents where
  waiting := wellFormed.waiting
  getting := by
    intro state
    obtain ⟨some_, stored⟩ := wellFormed.line state
    have first : client.partialLine.head? = some client.commandData.head :=
      head?_take_toList client.commandData some_
    exact ⟨some_, stored.starts _ first, stored.open_, stored.noBlock, stored.noSwallow⟩
  expecting := wellFormed.expecting
  binary := by
    intro state
    have stored := wellFormed.block state
    obtain ⟨some_, zero⟩ := stored.begun
    exact ⟨stored.noLine, some_, stored.header, zero, stored.allocated, stored.agreed⟩

/-- Whenever `preprocess_data` has returned `true` for each of any reads of a connection, whatever
the slot was used for before, its fields are as its state says. In particular no swallow flag, no
block and no part of a line is left over when a request begins.
-/
theorem represents_between_reads (host : Host Emulator) (slot : Client) (fd : SOCKET)
    (emulator : Emulator) (reads : List ClientRead) (client : Client) (after : Emulator)
    (returns : (feedReads host (slot.add fd, emulator) reads).result = .ok (client, after))
    : client.Represents :=
  (feedReads_kept (slot.wellFormed_add fd) returns).1.represents

/-- A line whose block is to be swallowed, and the part of a header. -/
def headerReads : List ClientRead := [
  ⟨ascii "bCORE_WRITE\n", by decide, by decide⟩,
  ⟨[0, 0, 0], by decide, by decide⟩
]

/-- The slot inside the header. -/
theorem represents_between_reads_header
    : ∃ client,
        (feedReads (Host.fixed [(.bCoreWrite, -3)]) (Client.zero.add 4, ()) headerReads).result
          = .ok (client, ())
        ∧ client.binaryHeaderSize = 3
        ∧ client.Represents := by
  have header
      : (feedReads (Host.fixed [(.bCoreWrite, -3)]) (Client.zero.add 4, ())
            headerReads).result.toOption.map (fun last => last.1.binaryHeaderSize)
        = some 3 := by
    decide +kernel
  cases returns
    : (feedReads (Host.fixed [(.bCoreWrite, -3)]) (Client.zero.add 4, ()) headerReads).result with
  | error stopped =>
      rw [returns] at header
      cases header
  | ok last =>
      rw [returns] at header
      exact ⟨last.1, rfl, Option.some.inj header, represents_between_reads _ _ _ _ _ _ _ returns⟩

end NetworkAccess
