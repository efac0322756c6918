import NetworkAccess.Dummy.Memory

/-! `CORE_READ` of the dummy emulator. It looks at three arguments, and reads the size as a decimal
number only.
-/

namespace NetworkAccess

open Numerals

/-- `M`, `M;o` or `M;o;n`, with the numbers in either notation. -/
inductive ReadArguments : List Bytes → Bytes → Option Nat → Option Nat → Prop
  | memory {name} : ReadArguments [name] name none none
  | offset {name text offset} (number : NumberText text offset)
    : ReadArguments [name, text] name (some offset) none
  | size {name text other offset size} (number : NumberText text offset)
    (more : NumberText other size)
    : ReadArguments [name, text, other] name (some offset) (some size)

/-- `min(n, L - o)`, where `o` stands for 0 and `n` for all that is left if they are missing. -/
def readLength (length : Nat) (offset size : Option Nat) : Nat :=
  let left := length - offset.getD 0
  min (size.getD left) left

/-- The handler sends the bytes of the memory in one binary reply, or an error reply if the memory
is unknown or ends before the offset. It does nothing else, and leaves the behaviour defined.
-/
def ReadsAsAsked (socket : SOCKET) (args : List Bytes) (name : Bytes) (offset size : Option Nat)
    (dummy : Dummy)
    : Prop :=
  let after := (dummyCoreMemoryRead socket args dummy).2
  match memoryNamed name with
  | some memory =>
      let bytes := (dummy.memory memory).bytes
      let start := offset.getD 0
      if start ≤ bytes.length then
        let data := (bytes.drop start).take (readLength bytes.length offset size)
        Sends socket dummy after (0 :: htonl data.length ++ data)
      else
        ∃ errorType reason, Sends socket dummy after (errorReplyText errorType reason)
  | none => ∃ errorType reason, Sends socket dummy after (errorReplyText errorType reason)

/-- All three arguments are given, the memory is known and does not end before the offset, the
length is what the size has as a decimal number of 32 bits, and the debug output of the bytes fits.
-/
def ReadWithin (args : List Bytes) (name : Bytes) (offset size : Option Nat) (dummy : Dummy)
    : Prop :=
  ∃ memory start count text,
    memoryNamed name = some memory
    ∧ offset = some start
    ∧ size = some count
    ∧ args[2]? = some text
    ∧ start ≤ (dummy.memory memory).bytes.length
    ∧ (let length := readLength (dummy.memory memory).bytes.length offset size
      (Writes 10 text count ∧ min count (2 ^ 63 - 1) % 2 ^ 32 = length
          ∨ text.head? = some dollar ∧ length = 0)
      ∧ HexStringFits length)

-----------------------------------------------------------------------------------------
-- The replies
-----------------------------------------------------------------------------------------

/-- An error reply begins with a newline. -/
theorem errorReplyText_head (errorType : ErrorType) (reason : Bytes)
    : (errorReplyText errorType reason).head? = some newline := by
  rw [errorReplyText_eq]
  rfl

section Sending

variable {socket : SOCKET} {dummy : Dummy} {text : Bytes}

/-- The text that was sent is the one of the buffers. -/
theorem sends_iff {buffers : List Bytes}
    : Sends socket dummy (dummy.send socket buffers) text ↔ buffers.flatten = text := by
  refine ⟨?_, fun same => ⟨buffers, same, rfl⟩⟩
  rintro ⟨others, same, after⟩
  rw [sent_inj (congrArg Dummy.sent after), same]

end Sending

/-- A request that is answered as it asks is answered without undefined behaviour. -/
theorem ReadsAsAsked.defined {socket : SOCKET} {args : List Bytes} {name : Bytes}
    {offset size : Option Nat} {dummy : Dummy}
    (reads : ReadsAsAsked socket args name offset size dummy) (defined : dummy.undefined = false)
    : (dummyCoreMemoryRead socket args dummy).2.undefined = false := by
  rw [ReadsAsAsked] at reads
  split at reads
  case h_1 memory _ =>
    dsimp only at reads
    split at reads
    case isTrue => exact reads.defined defined
    case isFalse =>
      obtain ⟨_, _, sends⟩ := reads
      exact sends.defined defined
  case h_2 =>
    obtain ⟨_, _, sends⟩ := reads
    exact sends.defined defined

/-- No more is read than the memory has behind the offset. -/
theorem readLength_le (length : Nat) (offset size : Option Nat)
    : readLength length offset size ≤ length - offset.getD 0 := Nat.min_le_right _ _

/-- What the handler takes for the size. -/
theorem atoi_eq_iff {text : Bytes} {count : Nat} (number : NumberText text count) (length : Nat)
    : toUnsigned (atoi text) = length
      ↔ Writes 10 text count ∧ min count (2 ^ 63 - 1) % 2 ^ 32 = length
        ∨ text.head? = some dollar ∧ length = 0 := by
  cases number with
  | decimal writes =>
      have noDollar : text.head? ≠ some dollar := by
        obtain ⟨letter, rest, digit, rfl, found, -⟩ := writes.cons
        rw [List.head?_cons]
        rintro same
        cases same
        cases found
      rw [atoi_decimal_text writes]
      simp only [writes, true_and, noDollar, false_and, or_false]
  | @hexadecimal text _ writes =>
      have noDecimal : ¬ Writes 10 (dollar :: text) count := by
        rintro decimal
        obtain ⟨letter, rest, digit, same, found, -⟩ := decimal.cons
        cases same
        cases found
      rw [atoi_hexadecimal writes]
      simp only [noDecimal, false_and, false_or, List.head?_cons, true_and]
      exact eq_comm

section ThreeArguments

variable {socket : SOCKET} {name text other : Bytes} {start size : Nat}
  (offset : NumberText text start) (number : NumberText other size) {dummy : Dummy}
include number

/-- With three arguments, a reply as it was asked for has the length that the handler computed. -/
theorem ReadsAsAsked.within
    (reads : ReadsAsAsked socket [name, text, other] name (some start) (some size) dummy)
    (defined : dummy.undefined = false)
    : ReadWithin [name, text, other] name (some start) (some size) dummy := by
  have clear := reads.defined defined
  obtain ⟨count, counts⟩ : ∃ count, toUnsigned (atoi other) = count := ⟨_, rfl⟩
  cases loads : dummy.load (memoryNamed name) (getOffset text) count with
  | none =>
      rw [dummyCoreMemoryRead_none socket dummy counts (Or.inl loads)] at clear
      cases clear
  | some data =>
      by_cases shown : HexStringFits count
      swap
      · rw [dummyCoreMemoryRead_none socket dummy counts (Or.inr shown)] at clear
        cases clear
      rw [ReadsAsAsked, dummyCoreMemoryRead_some socket dummy counts loads shown] at reads
      have noError : ¬ ∃ errorType reason,
          Sends socket dummy (dummy.send socket [[0], htonl count, data])
            (errorReplyText errorType reason) := by
        rintro ⟨errorType, reason, sends⟩
        have head := errorReplyText_head errorType reason
        rw [← sends_iff.mp sends] at head
        cases head
      split at reads
      case h_2 => exact absurd reads noError
      case h_1 memory named =>
        dsimp only at reads
        split at reads
        case isFalse => exact absurd reads noError
        case isTrue inside =>
          have lengths := congrArg List.length (sends_iff.mp reads)
          have short := readLength_le (dummy.memory memory).bytes.length (some start) (some size)
          have same : count
              = readLength (dummy.memory memory).bytes.length (some start) (some size) := by
            simp only [List.flatten_cons, List.flatten_nil, List.append_nil, List.length_append,
              List.length_cons, List.length_nil, htonl, Dummy.load_length loads, List.length_take,
              List.length_drop] at lengths
            omega
          rw [same] at counts shown
          exact ⟨memory, start, size, other, named, rfl, rfl, rfl, inside,
            (atoi_eq_iff number _).mp counts, shown⟩

include offset in

/-- Conversely, such a read sends the bytes that were asked for. -/
theorem ReadWithin.readsAsAsked
    (within : ReadWithin [name, text, other] name (some start) (some size) dummy)
    : ReadsAsAsked socket [name, text, other] name (some start) (some size) dummy := by
  obtain ⟨memory, _, _, _, named, first, second, third, inside, asked, shown⟩ := within
  cases first
  cases second
  cases third
  have counts := (atoi_eq_iff number _).mpr asked
  have fits := (dummy.memory memory).fits
  have short := readLength_le (dummy.memory memory).bytes.length (some start) (some size)
  rw [Option.getD_some] at short
  have start_ : getOffset text = start := offset.getOffset (by omega)
  rw [ReadsAsAsked, named]
  dsimp only
  rw [Option.getD_some, if_pos inside]
  generalize readLength (dummy.memory memory).bytes.length (some start) (some size) = count
    at shown short counts
  have loads : dummy.load (memoryNamed name) (getOffset text) count
      = some (((dummy.memory memory).bytes.drop start).take count) := by
    rw [start_, named]
    exact Dummy.load_inside (by omega)
  rw [dummyCoreMemoryRead_some socket dummy counts loads shown, Dummy.load_length loads, sends_iff]
  simp

end ThreeArguments

/-- For every `CORE_READ` with up to three arguments in either notation. -/
theorem readsAsAsked_iff (socket : SOCKET) {args : List Bytes} {name : Bytes}
    {offset size : Option Nat} (arguments : ReadArguments args name offset size) (dummy : Dummy)
    (defined : dummy.undefined = false)
    : ReadsAsAsked socket args name offset size dummy
      ↔ ReadWithin args name offset size dummy := by
  cases arguments with
  | memory =>
      refine ⟨fun reads => ?_, ?_⟩
      · cases reads.defined defined
      · rintro ⟨_, _, _, _, _, none_, -⟩
        cases none_
  | offset =>
      refine ⟨fun reads => ?_, ?_⟩
      · cases reads.defined defined
      · rintro ⟨_, _, _, _, _, _, none_, -⟩
        cases none_
  | size number more => exact ⟨fun reads => reads.within more defined,
      fun within => within.readsAsAsked number more⟩

/-- A read of three of eight bytes. -/
theorem readsAsAsked_three
    : ReadsAsAsked 4 [ascii "WRAM", ascii "$2", ascii "3"] (ascii "WRAM") (some 2) (some 3)
        smallDummy := by
  have offset : NumberText (ascii "$2") 2 := .hexadecimal (hexadecimal_writes 2)
  have size : NumberText (ascii "3") 3 := .decimal (decimal_writes 3)
  refine (readsAsAsked_iff 4 (.size offset size) smallDummy rfl).mpr ?_
  exact ⟨.wram, 2, 3, ascii "3", rfl, rfl, rfl, rfl, by decide,
    Or.inl ⟨decimal_writes 3, by decide⟩, by decide⟩

/-- Without a size, an argument that is not there is read. -/
theorem core_read_without_size
    : ReadArguments [ascii "WRAM", ascii "2"] (ascii "WRAM") (some 2) none
      ∧ ¬ ReadsAsAsked 4 [ascii "WRAM", ascii "2"] (ascii "WRAM") (some 2) none smallDummy := by
  refine ⟨.offset (.decimal (decimal_writes 2)), fun reads => ?_⟩
  cases reads.defined rfl

end NetworkAccess
