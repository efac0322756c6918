import NetworkAccess.Connections.Replay
import NetworkAccess.Connections.WriteOrder
import NetworkAccess.Dummy.Memory

/-! The destination of a write is kept in variables of the whole program, so the block of a client
goes where its own line says only if no line of another client comes between them.
-/

namespace NetworkAccess

/-- The destination that the arguments name. -/
def WriteLine.target (line : WriteLine) : Option (MemoryName × Nat) :=
  match line.args with
  | name :: offset :: _ => (memoryNamed name).map (·, getOffset offset)
  | _ => none

/-- Every `bCORE_WRITE` line names a destination. -/
def NamesTargets (trace : List Event) : Prop :=
  ∀ event ∈ trace, ∀ line ∈ event.writeLine, line.target.isSome

instance (trace : List Event) : Decidable (NamesTargets trace) :=
  inferInstanceAs (Decidable (∀ event ∈ trace, ∀ line ∈ event.writeLine, _))

/-- Every copy of a run that starts with `start` goes where the last line of the same client says.
-/
def CopiesOwn (start : Dummy) (trace : List Event) : Prop :=
  ∀ before socket data after,
    trace = before ++ .blockWritten socket data :: after
    → let dummy := Dummy.host.replay start before
      let written := (writeToMemory socket data dummy).2
      ∀ copy ∈ written.copies.drop dummy.copies.length,
        ∃ line memory,
          lastLine (ownEvents socket before) = some line
          ∧ line.target = some (memory, copy.offset)
          ∧ copy.memory = some memory
          ∧ copy.socket = socket

/-- Where the next copy goes. -/
def Dummy.destination (dummy : Dummy) : Option MemoryName × Nat :=
  (dummy.memoryToWrite, dummy.offsetToWrite)

-----------------------------------------------------------------------------------------
-- What the calls do to the destination
-----------------------------------------------------------------------------------------

/-- A handler that leaves the destination as it is. -/
def KeepsDestination (handler : Handler Dummy) : Prop :=
  ∀ socket args dummy, (handler socket args dummy).2.destination = dummy.destination

/-- Writing a reply changes only what was sent, by induction on the pairs. -/
theorem hashReply_destination (socket : SOCKET) (pairs : List (Bytes × Bytes)) (dummy : Dummy)
    : (sendFullHashReply Dummy.write socket pairs dummy).destination = dummy.destination := by
  have lines
      : ∀ dummy : Dummy,
          (pairs.foldl
            (fun dummy pair => Dummy.write socket (hashLine pair.1 pair.2) dummy)
            dummy).destination
            = dummy.destination := by
    induction pairs with
    | nil => exact fun _ => rfl
    | cons pair rest ih => exact fun dummy => ih (Dummy.write socket (hashLine pair.1 pair.2) dummy)
  exact lines (startHashReply Dummy.write socket dummy)

/-- Replying with a hash keeps the destination of the write. -/
theorem replyHash_keeps (pairs : Dummy → List (String × Bytes))
    : KeepsDestination (fun socket _ dummy => replyHash (pairs dummy) socket dummy) :=
  fun socket _ dummy => hashReply_destination socket _ dummy

/-- CORE_READ keeps the destination of the write. -/
theorem dummyCoreMemoryRead_keeps : KeepsDestination dummyCoreMemoryRead := by
  intro socket args dummy
  unfold dummyCoreMemoryRead
  split
  case h_1 name offset size rest =>
    dsimp only
    split
    case h_1 => rfl
    case h_2 =>
      split
      case isTrue => rfl
      case isFalse => rfl
  case h_2 => rfl

/-- Only `bCORE_WRITE` changes the destination. -/
theorem handler_destination
    : ∀ entry ∈ Dummy.host.genericMap,
        entry.command ≠ .bCoreWrite → KeepsDestination entry.function := by
  have still : KeepsDestination dummyNp := fun _ _ _ => rfl
  have status : KeepsDestination dummyEmuStatus := fun _ _ _ => rfl
  have pause : KeepsDestination dummyEmuPause := fun _ _ _ => rfl
  have stop : KeepsDestination dummyEmuStop := fun _ _ _ => rfl
  have resume : KeepsDestination dummyEmuResume := fun _ _ _ => rfl
  have info : KeepsDestination dummyEmuInfo := replyHash_keeps _
  have game : KeepsDestination dummyGameInfo := replyHash_keeps _
  have cores : KeepsDestination dummyCoresList := replyHash_keeps _
  have memories : KeepsDestination dummyCoreMemories := replyHash_keeps _
  have read := dummyCoreMemoryRead_keeps
  simp only [Dummy.host, List.forall_mem_cons]
  simp [*]

/-- Events that are neither `bCORE_WRITE` lines nor blocks leave it as it is. -/
theorem call_destination (dummy : Dummy) {event : Event} (none_ : event.writeLine = none)
    (quiet : event.isWrite = false)
    : (Dummy.host.call dummy event).destination = dummy.destination := by
  cases event with
  | handled socket target args result =>
      cases target with
      | custom index => rfl
      | generic command =>
          rw [Host.call]
          split
          case h_1 entry found =>
            have member := List.mem_of_find?_eq_some found
            have same : entry.command = command := by simpa using List.find?_some found
            refine handler_destination entry member (fun write => ?_) socket args dummy
            rw [same] at write
            subst write
            cases none_
          case h_2 => rfl
  | blockWritten => cases quiet
  | _ => rfl

/-- A `bCORE_WRITE` line that names a destination sets it. -/
theorem call_writeLine (dummy : Dummy) {event : Event} {line : WriteLine}
    (here : event.writeLine = some line) (named : line.target.isSome)
    : ∃ memory offset,
        line.target = some (memory, offset)
        ∧ (Dummy.host.call dummy event).destination = (some memory, offset) := by
  unfold Event.writeLine at here
  split at here
  case h_2 => cases here
  case h_1 socket args result =>
    cases here
    obtain ⟨⟨memory, offset⟩, target⟩ := Option.isSome_iff_exists.mp named
    refine ⟨memory, offset, target, ?_⟩
    change (dummyCoreMemoryWrite socket args dummy).2.destination = _
    match args, target with
    | name :: offsetText :: rest, target =>
        obtain ⟨memory, known, same⟩ := Option.map_eq_some_iff.mp target
        cases same
        simp only [dummyCoreMemoryWrite, known, Option.some_or, Dummy.destination]

/-- While the last line is open, the destination is the one that it names. -/
theorem openLine_destination (start : Dummy) {trace : List Event} (named : NamesTargets trace)
    {line : WriteLine} (open_ : openLine trace = some line)
    : ∃ memory offset,
        line.target = some (memory, offset)
        ∧ (Dummy.host.replay start trace).destination = (some memory, offset) := by
  induction trace using List.reverseRecOn with
  | nil => cases open_
  | append_singleton trace event ih =>
      obtain ⟨earlier, here⟩ := List.forall_mem_append.mp named
      rw [Host.replay_concat]
      cases write : event.isWrite with
      | true =>
          rw [openLine_concat, if_pos write] at open_
          cases open_
      | false =>
          cases line_ : event.writeLine with
          | some other =>
              rw [openLine_concat, write, if_neg Bool.false_ne_true, line_] at open_
              cases open_
              exact call_writeLine _ line_ (here event List.mem_cons_self line line_)
          | none =>
              rw [openLine_keep line_ write] at open_
              rw [call_destination _ line_ write]
              exact ih earlier open_

-----------------------------------------------------------------------------------------
-- Copies
-----------------------------------------------------------------------------------------

/-- A copy goes to the destination, for the client whose block it is. -/
def Dummy.Takes (dummy : Dummy) (socket : SOCKET) (copy : MemoryCopy) : Prop :=
  copy.socket = socket ∧ (copy.memory, copy.offset) = dummy.destination

/-- A copy is recorded with the connection, the destination and the data, unless it is empty. -/
theorem Dummy.copyToMemory_copies (socket : SOCKET) (data : Bytes) (dummy : Dummy)
    : (dummy.copyToMemory socket data).copies
      = if data = [] then
          dummy.copies
        else
          dummy.copies ++ [⟨socket, dummy.memoryToWrite, dummy.offsetToWrite, data⟩] := by
  rw [Dummy.copyToMemory]
  split
  case isTrue => rfl
  case isFalse =>
    dsimp only
    split
    case h_1 => rfl
    case h_2 =>
      split
      case h_1 => rfl
      case h_2 =>
        split
        case isTrue => rfl
        case isFalse => rfl

/-- Every copy of a block goes to the destination that was set before it. -/
theorem writeToMemory_takes (socket : SOCKET) (data : Bytes) (dummy : Dummy)
    : ∀ copy ∈ (writeToMemory socket data dummy).2.copies.drop dummy.copies.length,
        dummy.Takes socket copy := by
  have left : dummy.leave.copies.drop dummy.copies.length = [] :=
    List.drop_eq_nil_of_le (Nat.le_refl _)
  have copied (data : Bytes) (before : Dummy) (copies : before.copies = dummy.copies)
      (destination : before.destination = dummy.destination)
      : ∀ copy ∈ (before.copyToMemory socket data).copies.drop dummy.copies.length,
          dummy.Takes socket copy := by
    rw [Dummy.copyToMemory_copies, copies]
    split
    case isTrue =>
      rw [List.drop_eq_nil_of_le (Nat.le_refl _)]
      nofun
    case isFalse =>
      rw [List.drop_left]
      exact List.forall_mem_singleton.mpr ⟨rfl, destination⟩
  rw [writeToMemory]
  split
  case isTrue =>
    rw [left]
    nofun
  split
  case isTrue =>
    split
    case isTrue =>
      rw [left]
      nofun
    case isFalse => exact copied (data.drop 4) _ rfl rfl
  case isFalse => exact copied data dummy rfl rfl

-----------------------------------------------------------------------------------------
-- Runs
-----------------------------------------------------------------------------------------

/-- Clients write to the memories only through `bCORE_WRITE` lines that name a destination. In every
run in which the last `bCORE_WRITE` line before a block, of all clients, is one of the block's own
client, every copy of a block goes to the memory and the offset that the last line of this client
names. The copies are those that the dummy has made at the end.
-/
theorem copies_own (serverSocket : SOCKET) (clients : Clients) (dummy : Dummy)
    (rounds : List Round)
    (fresh
      : Reaction.CalmAlong (pollRound Dummy.host .absent) Round.Fresh
          (.listening serverSocket clients dummy) rounds)
    (binary
      : BinaryWrites
          (genericPollServerStart Dummy.host .absent serverSocket clients dummy rounds).emitted)
    (named
      : NamesTargets
          (genericPollServerStart Dummy.host .absent serverSocket clients dummy rounds).emitted)
    (undisturbed
      : BlocksFollow WroteLast
          (genericPollServerStart Dummy.host .absent serverSocket clients dummy rounds).emitted)
    : let run := genericPollServerStart Dummy.host .absent serverSocket clients dummy rounds
      ServerTurn.emulator run = Dummy.host.replay dummy run.emitted
      ∧ CopiesOwn dummy run.emitted := by
  have builtin : resolve Dummy.host (ascii "bCORE_WRITE")
      = .generic .bCoreWrite ⟨.bCoreWrite, dummyCoreMemoryWrite⟩ := rfl
  have owed := genericPollServerStart_order Dummy.host builtin serverSocket clients dummy rounds
    fresh binary
  have holds := BlocksFollow.holdsLine owed undisturbed
  refine ⟨genericPollServerStart_replay Dummy.host serverSocket clients dummy rounds fresh, ?_⟩
  intro before socket data after split replayed written copy member
  obtain ⟨line, -, open_, last⟩ := holds before socket data after split
  have earlier : NamesTargets before := fun event member =>
    named event (split ▸ List.mem_append_left _ member)
  obtain ⟨memory, offset, target, destination⟩ := openLine_destination dummy earlier open_
  obtain ⟨own, goes⟩ := writeToMemory_takes socket data replayed copy member
  obtain ⟨toMemory, toOffset⟩ := Prod.mk.inj (goes.trans destination)
  exact ⟨line, memory, last, toOffset ▸ target, toMemory, own⟩

/-- Two clients connect, and in every round each of them sends what it is given. -/
def twoClients (reads : List (Option ClientRead × Option ClientRead)) : List Round :=
  let calm : SOCKET → Revents := fun _ => .none
  let connecting (fd : SOCKET) : Round := ⟨false, .ready true calm, some fd, fun _ => none⟩
  let sending (read : Option ClientRead × Option ClientRead) : Round :=
    let answer (fd : SOCKET) := if fd = 4 then read.1 else read.2
    ⟨false, .ready false (fun fd => ⟨(answer fd).isSome, false, false⟩), none, answer⟩
  connecting 4 :: connecting 5 :: reads.map sending

/-- The read of a line that asks for a write of eight bytes to the memory. -/
def lineTo (memory : MemoryName) : ClientRead := {
  bytes := ascii "bCORE_WRITE " ++ memory.text ++ ascii ";0;8\n"
  nonempty := by cases memory <;> decide
  fits := by cases memory <;> decide
}

/-- A block of eight bytes, of which the dummy copies the last four. -/
def blockOf (byte : UInt8) : ClientRead := {
  bytes := [0, 0, 0, 0, 8, 0, 0, 0, 4, byte, byte, byte, byte]
  nonempty := nofun
  fits := by simp
}

/-- One client after the other sends a line and its block. -/
def writingInTurn : List Round :=
  twoClients [
    (some (lineTo .wram), none),
    (some (blockOf 1), some (lineTo .sram)),
    (none, some (blockOf 2))
  ]

/-- Witness: both blocks are copied to where their lines say. -/
theorem copies_own_inTurn
    : let run :=
        genericPollServerStart Dummy.host .absent 3 (Vector.replicate 5 Client.zero) smallDummy
          writingInTurn
      (ServerTurn.emulator run).copies
        = [⟨4, some .wram, 0, [1, 1, 1, 1]⟩, ⟨5, some .sram, 0, [2, 2, 2, 2]⟩]
      ∧ CopiesOwn smallDummy run.emitted := by
  intro run
  have checked : BlocksFollow.check WroteLast [] run.emitted := by decide +kernel
  have follow : BlocksFollow WroteLast run.emitted := BlocksFollow.check_sound checked .nil
  have own := copies_own 3 (Vector.replicate 5 Client.zero) smallDummy writingInTurn
    (by decide +kernel) (by decide +kernel) (by decide +kernel) follow
  exact ⟨by decide +kernel, own.2⟩

/-- Both clients send their lines, and then their blocks. -/
def writingMixed : List Round :=
  twoClients [
    (some (lineTo .wram), some (lineTo .sram)),
    (some (blockOf 1), some (blockOf 2))
  ]

/-- The first block goes to the memory of the other client's line, and the second one to `NULL`. -/
theorem copies_mixed
    : let run :=
        genericPollServerStart Dummy.host .absent 3 (Vector.replicate 5 Client.zero) smallDummy
          writingMixed
      BinaryWrites run.emitted
      ∧ NamesTargets run.emitted
      ∧ (ServerTurn.emulator run).copies
        = [⟨4, some .sram, 0, [1, 1, 1, 1]⟩, ⟨5, none, 0, [2, 2, 2, 2]⟩]
      ∧ ¬ CopiesOwn smallDummy run.emitted := by
  intro run
  refine ⟨by decide +kernel, by decide +kernel, by decide +kernel, fun own => ?_⟩
  have split : run.emitted
      = run.emitted.take 7
        ++ .blockWritten 4 [0, 0, 0, 4, 1, 1, 1, 1] :: run.emitted.drop 8 := by
    decide +kernel
  have line : lastLine (ownEvents 4 (run.emitted.take 7))
      = some ⟨4, [ascii "WRAM", ascii "0", ascii "8"]⟩ := by
    decide +kernel
  obtain ⟨line_, memory, last, target, goes, -⟩ :=
    own _ _ _ _ split ⟨4, some .sram, 0, [1, 1, 1, 1]⟩ (by decide +kernel)
  have first : line_ = ⟨4, [ascii "WRAM", ascii "0", ascii "8"]⟩ :=
    Option.some.inj (last.symm.trans line)
  have sram : memory = .sram := (Option.some.inj goes).symm
  rw [first, sram] at target
  exact absurd target (by decide +kernel)

end NetworkAccess
