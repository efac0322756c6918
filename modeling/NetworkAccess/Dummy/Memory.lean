import Mathlib.Data.Nat.Digits.Lemmas
import NetworkAccess.Dummy.Emulator
import NetworkAccess.Validator.Requests

/-! Writes and reads of the dummy's memories: the requests with decimal numbers, and what each
function of the dummy does with them.
-/

namespace NetworkAccess

open Numerals

/-- The name of a memory in the protocol. -/
def MemoryName.text : MemoryName → Bytes
  | .wram => ascii "WRAM"
  | .sram => ascii "SRAM"
  | .cartrom => ascii "CARTROM"

/-- `M;o;n`. -/
def rangeArgs (memory : MemoryName) (offset size : Nat) : List Bytes :=
  [memory.text, decimal offset, decimal size]

/-- A `bCORE_WRITE` of some data. -/
def writeRequest (memory : MemoryName) (offset : Nat) (data : Bytes) : Request :=
  .write (rangeArgs memory offset data.length) data

/-- A `CORE_READ` of one range. -/
def readRequest (memory : MemoryName) (offset size : Nat) : Request :=
  .text (ascii "CORE_READ") (rangeArgs memory offset size)

-----------------------------------------------------------------------------------------
-- The requests can be sent
-----------------------------------------------------------------------------------------

/-- A digit is none of the letters that mean something else in an argument. -/
theorem IsDigit.clean {letter : UInt8} (digit : IsDigit letter)
    : letter ≠ semicolon ∧ letter ≠ newline ∧ letter ≠ 0 ∧ letter ≠ dollar := by
  obtain ⟨value, small, rfl⟩ := digit
  revert value
  decide

/-- No digit separates arguments or ends a line or a string. -/
theorem decimal_clean (value : Nat)
    : semicolon ∉ decimal value ∧ newline ∉ decimal value ∧ (0 : UInt8) ∉ decimal value := by
  have digits := fun letter member => IsDigit.clean (decimal_digits value letter member)
  exact ⟨
    fun member => (digits _ member).1 rfl,
    fun member => (digits _ member).2.1 rfl,
    fun member => (digits _ member).2.2.1 rfl
  ⟩

/-- A number of 63 bits has at most 19 digits. -/
theorem decimal_length {value : Nat} (fits : value < 2 ^ 63) : (decimal value).length ≤ 19 := by
  rw [decimal]
  split
  case isTrue => decide
  case isFalse =>
    rw [List.length_map, List.length_reverse, Nat.digits_length_le_iff (by decide)]
    omega

/-- A memory and a range can be sent as arguments. -/
theorem rangeArgs_sendable (memory : MemoryName) (offset size : Nat)
    : SendableArgs (rangeArgs memory offset size) where
  few := show 3 ≤ maxArgs by decide
  clean := by
    intro arg member
    simp only [rangeArgs, List.mem_cons, List.not_mem_nil, or_false] at member
    rcases member with rfl | rfl | rfl
    · cases memory <;> decide
    · exact decimal_clean offset
    · exact decimal_clean size
  first := by
    intro arg head
    cases head
    cases memory <;> decide

/-- The line with these arguments is short. -/
theorem rangeArgs_length (memory : MemoryName) {offset size : Nat} (low : offset < 2 ^ 63)
    (small : size < 2 ^ 63) (name : Bytes)
    : (executeRawCommand name (joinArgs (rangeArgs memory offset size))).length
      ≤ name.length + 49 := by
  have first := decimal_length low
  have second := decimal_length small
  have text : memory.text.length ≤ 7 := by cases memory <;> decide
  simp only [rangeArgs, joinArgs, Option.map_some, executeRawCommand, List.length_append,
    List.length_cons, List.length_nil]
  omega

/-- A write of data that is not empty can be sent. -/
theorem writeRequest_sendable (memory : MemoryName) {offset : Nat} {data : Bytes}
    (low : offset < 2 ^ 63) (positive : 1 ≤ data.length) (fits : data.length < 2 ^ 32)
    : (writeRequest memory offset data).Sendable := by
  have name : SendableName bCoreWriteName := ⟨⟨lowerB, _, rfl, by decide⟩, by decide⟩
  refine ⟨name, rangeArgs_sendable _ _ _, ?_, positive, fits⟩
  have short := rangeArgs_length memory low (show data.length < 2 ^ 63 by omega) bCoreWriteName
  exact short.trans (by decide)

/-- A read can be sent. -/
theorem readRequest_sendable (memory : MemoryName) {offset size : Nat} (low : offset < 2 ^ 63)
    (small : size < 2 ^ 63)
    : (readRequest memory offset size).Sendable := by
  have name : SendableName (ascii "CORE_READ") := ⟨⟨67, _, rfl, by decide⟩, by decide⟩
  have text : (ascii "CORE_READ").head? ≠ some lowerB := by decide
  refine ⟨name, rangeArgs_sendable _ _ _, ?_, text⟩
  exact (rangeArgs_length memory low small (ascii "CORE_READ")).trans (by decide)

-----------------------------------------------------------------------------------------
-- What the handlers make of the arguments
-----------------------------------------------------------------------------------------

/-- An offset comes back from its decimal text. -/
theorem getOffset_decimal {value : Nat} (fits : value < 2 ^ 63)
    : getOffset (decimal value) = value :=
  (NumberText.decimal (decimal_writes value)).getOffset fits

/-- The size is a decimal number to 32 bits. -/
theorem atoi_decimal_text {text : Bytes} {value : Nat} (writes : Writes 10 text value)
    : toUnsigned (atoi text) = min value (2 ^ 63 - 1) % 2 ^ 32 := by
  rw [toUnsigned, atoi, Writes.cString writes, strtoll_writes writes]
  omega

/-- Another notation is read as 0. -/
theorem atoi_hexadecimal {text : Bytes} {value : Nat} (writes : Writes 16 text value)
    : toUnsigned (atoi (dollar :: text)) = 0 := by
  have noNumber : strtoll (dollar :: text) = 0 := strtoll_other rfl (by decide) rfl text
  rw [toUnsigned, atoi, Writes.cString_dollar writes, noNumber]
  decide

/-- A size of 32 bits is read back from its decimal digits. -/
theorem atoi_decimal {value : Nat} (fits : value < 2 ^ 32)
    : toUnsigned (atoi (decimal value)) = value := by
  rw [atoi_decimal_text (decimal_writes value)]
  omega

/-- A memory is found by its name. -/
theorem memoryNamed_text (memory : MemoryName) : memoryNamed memory.text = some memory := by
  cases memory <;> rfl

/-- The variables of a write after its line. -/
def Dummy.announce (memory : MemoryName) (offset size : Nat) (dummy : Dummy) : Dummy := {
  dummy with
  memoryToWrite := some memory
  offsetToWrite := offset
  sizeToWrite := size
  sizeWritten := 0
}

/-- `bCORE_WRITE` announces the range that it is sent, and returns its size. -/
theorem dummyCoreMemoryWrite_rangeArgs (socket : SOCKET) (memory : MemoryName)
    {offset size : Nat} (low : offset < 2 ^ 63) (small : size < 2 ^ 32) (dummy : Dummy)
    : dummyCoreMemoryWrite socket (rangeArgs memory offset size) dummy
      = ((size : Int), dummy.announce memory offset size) := by
  simp only [dummyCoreMemoryWrite, rangeArgs, memoryNamed_text, getOffset_decimal low,
    atoi_decimal small, Option.some_or, Dummy.announce]

/-- A range inside of a memory can be loaded. -/
theorem Dummy.load_inside {dummy : Dummy} {memory : MemoryName} {offset size : Nat}
    (inside : offset + size ≤ (dummy.memory memory).bytes.length)
    : dummy.load (some memory) offset size
      = some (((dummy.memory memory).bytes.drop offset).take size) := by
  unfold load
  split
  case isTrue none_ => rw [none_, List.take_zero]
  case isFalse => exact if_pos inside

/-- All bytes of a read are in the memory. -/
theorem Dummy.load_length {dummy : Dummy} {pointer : Option MemoryName} {offset size : Nat}
    {data : Bytes} (loads : dummy.load pointer offset size = some data)
    : data.length = size := by
  unfold load at loads
  split at loads
  case isTrue none_ =>
    cases loads
    exact none_.symm
  case isFalse =>
    cases pointer with
    | none => cases loads
    | some memory =>
        dsimp only at loads
        split at loads
        case isTrue inside =>
          cases loads
          rw [List.length_take, List.length_drop]
          omega
        case isFalse => cases loads

/-- What was sent does not matter to a read. -/
theorem Dummy.load_sent (dummy : Dummy) (sent : List (SOCKET × Bytes))
    (pointer : Option MemoryName) (offset size : Nat)
    : Dummy.load { dummy with sent } pointer offset size = dummy.load pointer offset size := rfl

/-- Several calls of `write` on a socket. -/
def Dummy.send (socket : SOCKET) (buffers : List Bytes) (dummy : Dummy) : Dummy :=
  { dummy with sent := dummy.sent ++ buffers.map (socket, ·) }

/-- Only these buffers were sent. -/
def Sends (socket : SOCKET) (before after : Dummy) (text : Bytes) : Prop :=
  ∃ buffers : List Bytes, buffers.flatten = text ∧ after = before.send socket buffers

/-- Nothing but a defined state is left by replies. -/
theorem Sends.defined {socket : SOCKET} {dummy after : Dummy} {text : Bytes}
    (sends : Sends socket dummy after text) (defined : dummy.undefined = false)
    : after.undefined = false := by
  obtain ⟨buffers, -, rfl⟩ := sends
  exact defined

/-- The buffers that were sent are determined. -/
theorem sent_inj {socket : SOCKET} {sent : List (SOCKET × Bytes)} {left right : List Bytes}
    (same : sent ++ left.map (socket, ·) = sent ++ right.map (socket, ·))
    : left = right := by
  have texts := congrArg (List.map Prod.snd) (List.append_cancel_left same)
  rwa [List.map_map, List.map_map, Function.comp_def, List.map_id', List.map_id'] at texts

section ThreeArguments

variable (socket : SOCKET) {name offset size : Bytes} {rest : List Bytes} (dummy : Dummy)
  {count : Nat} (counts : toUnsigned (atoi size) = count)
include counts

/-- Three arguments for bytes that are there. -/
theorem dummyCoreMemoryRead_some {data : Bytes}
    (loads : dummy.load (memoryNamed name) (getOffset offset) count = some data)
    (shown : HexStringFits count)
    : (dummyCoreMemoryRead socket (name :: offset :: size :: rest) dummy).2
      = dummy.send socket [[0], htonl count, data] := by
  simp only [dummyCoreMemoryRead, Dummy.write, Dummy.load_sent, counts, loads, if_pos shown]
  simp [Dummy.send]

/-- The header is sent even if they are not. -/
theorem dummyCoreMemoryRead_none
    (fails
      : dummy.load (memoryNamed name) (getOffset offset) count = none ∨ ¬ HexStringFits count)
    : (dummyCoreMemoryRead socket (name :: offset :: size :: rest) dummy).2
      = (dummy.send socket [[0], htonl count]).leave := by
  simp only [dummyCoreMemoryRead, Dummy.write, Dummy.load_sent, counts]
  cases loads : dummy.load (memoryNamed name) (getOffset offset) count with
  | none => simp [Dummy.send]
  | some data =>
      rw [loads] at fails
      simp [Dummy.send, fails.resolve_left nofun]

end ThreeArguments

/-- A read inside a memory sends the bytes that are there. -/
theorem dummyCoreMemoryRead_rangeArgs (socket : SOCKET) (memory : MemoryName)
    {offset size : Nat} (low : offset < 2 ^ 63) (small : size < 2 ^ 32) (dummy : Dummy)
    (inside : offset + size ≤ (dummy.memory memory).bytes.length) (shown : HexStringFits size)
    : (dummyCoreMemoryRead socket (rangeArgs memory offset size) dummy).2
      = {
          dummy with
          sent := dummy.sent
            ++ [
              (socket, [0]),
              (socket, htonl size),
              (socket, ((dummy.memory memory).bytes.drop offset).take size)
            ]
        } := by
  refine dummyCoreMemoryRead_some socket dummy (atoi_decimal small) ?_ shown
  rw [getOffset_decimal low, memoryNamed_text]
  exact Dummy.load_inside inside

-----------------------------------------------------------------------------------------
-- Copies
-----------------------------------------------------------------------------------------

/-- A copy inside of a memory keeps its size. -/
theorem overwritten_length {bytes source : Bytes} {offset : Nat}
    (inside : offset + source.length ≤ bytes.length)
    : (overwritten bytes offset source).length = bytes.length := by
  simp only [overwritten, List.length_append, List.length_take, List.length_drop]
  omega

/-- What was put there is found there. -/
theorem overwritten_read {bytes source : Bytes} {offset : Nat} (inside : offset ≤ bytes.length)
    : ((overwritten bytes offset source).drop offset).take source.length = source := by
  have front : (bytes.take offset).length = offset := by
    rw [List.length_take, Nat.min_eq_left inside]
  rw [overwritten, List.append_assoc, List.drop_append_of_le_length (Nat.le_of_eq front.symm),
    List.drop_eq_nil_of_le (Nat.le_of_eq front), List.nil_append, List.take_left]

/-- Two texts of which one is shorter are the same where the longer one repeats, behind it, what was
there.
-/
theorem overwritten_inj {bytes source other : Bytes} {offset : Nat}
    (shorter : other.length ≤ source.length)
    : overwritten bytes offset other = overwritten bytes offset source
      ↔ source
        = other
          ++ (bytes.drop (offset + other.length)).take (source.length - other.length) := by
  have behind : bytes.drop (offset + other.length)
      = (bytes.drop (offset + other.length)).take (source.length - other.length)
        ++ bytes.drop (offset + source.length) := by
    refine (List.take_append_drop (source.length - other.length) _).symm.trans ?_
    rw [List.drop_drop, Nat.add_assoc, Nat.add_sub_cancel' shorter]
  generalize (bytes.drop (offset + other.length)).take (source.length - other.length) = repeated
    at behind ⊢
  rw [overwritten, overwritten, List.append_assoc, List.append_assoc,
    List.append_cancel_left_eq, behind, ← List.append_assoc, List.append_left_inj, eq_comm]

/-- A copy inside a memory changes this memory there, and is answered if it completes the write. -/
theorem Dummy.copyToMemory_inside (socket : SOCKET) {data : Bytes} (some_ : data ≠ [])
    {dummy : Dummy} {name : MemoryName} (target : dummy.memoryToWrite = some name)
    (inside : dummy.offsetToWrite + data.length ≤ (dummy.memory name).bytes.length)
    : let after := dummy.copyToMemory socket data
      (after.memory name).bytes
        = overwritten (dummy.memory name).bytes dummy.offsetToWrite data
      ∧ (∀ other, other ≠ name → after.memory other = dummy.memory other)
      ∧ after.sent
        = (if (dummy.sizeWritten + data.length) % 2 ^ 32 = dummy.sizeToWrite then
            dummy.sent ++ [(socket, ascii "\n\n")]
          else
            dummy.sent)
      ∧ after.undefined = dummy.undefined := by
  simp only [Dummy.copyToMemory, if_neg some_, target, Allocation.memcpy, dif_pos inside]
  split
  case isTrue =>
    exact ⟨by simp [Dummy.write], fun other differs => by simp [Dummy.write, differs], rfl, rfl⟩
  case isFalse =>
    exact ⟨by simp, fun other differs => by simp [differs], rfl, rfl⟩

/-- The variables of a write behind its line and the header of its data. -/
def Dummy.awaiting (memory : MemoryName) (offset size : Nat) (dummy : Dummy) : Dummy :=
  { dummy.announce memory offset size with sizeHeaderGet := true }

/-- A copy into them is answered if it has the size that they wait for. -/
theorem Dummy.awaiting_copy (socket : SOCKET) {before : Dummy} {memory : MemoryName}
    {offset size : Nat} {copied : Bytes} (some_ : copied ≠ [])
    (inside : offset + copied.length ≤ (before.memory memory).bytes.length)
    (counted : copied.length < 2 ^ 32)
    : let after := (before.awaiting memory offset size).copyToMemory socket copied
      (after.memory memory).bytes = overwritten (before.memory memory).bytes offset copied
      ∧ (∀ other, other ≠ memory → after.memory other = before.memory other)
      ∧ after.sent
        = (if copied.length = size then
            before.sent ++ [(socket, ascii "\n\n")]
          else
            before.sent)
      ∧ after.undefined = before.undefined := by
  have copies := (before.awaiting memory offset size).copyToMemory_inside socket some_ rfl inside
  have count : ((before.awaiting memory offset size).sizeWritten + copied.length) % 2 ^ 32
      = copied.length := by
    rw [show (before.awaiting memory offset size).sizeWritten = 0 from rfl, Nat.zero_add,
      Nat.mod_eq_of_lt counted]
  rw [count] at copies
  exact copies

/-- With the flag set, the payload is copied as it is. -/
theorem writeToMemory_flag (socket : SOCKET) {before : Dummy} {memory : MemoryName}
    {offset size : Nat} {data : Bytes} (shown : HexStringFits data.length)
    (flag : before.sizeHeaderGet = true)
    : (writeToMemory socket data (before.announce memory offset size)).2
      = (before.awaiting memory offset size).copyToMemory socket data := by
  have same : before.announce memory offset size = before.awaiting memory offset size := by
    rw [Dummy.awaiting, Dummy.announce, flag]
  rw [same, writeToMemory, if_neg (not_not.mpr shown)]
  rfl

/-- Without it, the first four bytes are taken for a header. -/
theorem writeToMemory_header (socket : SOCKET) {before : Dummy} {memory : MemoryName}
    {offset size : Nat} {data : Bytes} (shown : HexStringFits data.length)
    (flag : before.sizeHeaderGet = false)
    : let announced := before.announce memory offset size
      (writeToMemory socket data announced).2
      = if data.length < 4 then
          announced.leave
        else
          (before.awaiting memory offset (ntohl data)).copyToMemory socket (data.drop 4) := by
  intro announced
  rw [writeToMemory, if_neg (not_not.mpr shown),
    if_pos (show announced.sizeHeaderGet = false from flag)]
  split <;> rfl

/-- A dummy with eight bytes in each memory. -/
def smallDummy : Dummy :=
  Dummy.start (ascii "game.sfc") (fun _ => ⟨List.replicate 8 0, by decide⟩)

end NetworkAccess
