import NetworkAccess.Correctness.SharedDestination
import NetworkAccess.Dummy.Answers
import NetworkAccess.Library.LastWrite

/-! The state that the clients of the dummy share. Every status that is reported is the one that the
last command of any client has set, and every byte that is read is the one that the last copy for
any client has put there.
-/

namespace NetworkAccess

/-- The status that a command sets. -/
def EmulatorCommand.sets : EmulatorCommand → Option DummyStatus
  | .emulationPause => some .paused
  | .emulationStop => some .stopped
  | .emulationResume => some .running
  | _ => none

/-- The state of the emulation that an event sets, if it sets one. -/
def Event.sets : Event → Option DummyStatus
  | .handled _ (.generic known) _ _ => known.sets
  | _ => none

/-- The status that the last command of all clients has set. -/
def lastStatus (trace : List Event) : DummyStatus :=
  (trace.reverse.findSome? Event.sets).getD .running

/-- The reply to `EMULATION_STATUS`. -/
def statusReply (status : DummyStatus) : Bytes :=
  let state :=
    match status with
    | .running => ascii "state:running"
    | .paused => ascii "state:paused"
    | .stopped => ascii "state:stopped"
  linesText [state, ascii "game:Dummy game"]

/-- A copy as a write to a memory. -/
def MemoryCopy.write? (copy : MemoryCopy) : Option (RangeWrite MemoryName UInt8) :=
  copy.memory.map (fun memory => ⟨memory, copy.offset, copy.data⟩)

/-- The writes of the copies that were made. -/
def Dummy.writes (dummy : Dummy) : List (RangeWrite MemoryName UInt8) :=
  dummy.copies.filterMap MemoryCopy.write?

/-- The memories are what the copies since the start have made of them. -/
def Dummy.Stores (start dummy : Dummy) : Prop :=
  RangeWrite.Describes dummy.writes (fun name => (start.memory name).bytes)
    (fun name => (dummy.memory name).bytes)

-----------------------------------------------------------------------------------------
-- Handlers
-----------------------------------------------------------------------------------------

/-- A handler that copies nothing, and sets the status or leaves it. -/
def OnlySets (status : Option DummyStatus) (handler : Handler Dummy) : Prop :=
  ∀ socket args dummy,
    let after := (handler socket args dummy).2
    after.memory = dummy.memory
    ∧ after.copies = dummy.copies
    ∧ after.dummyState = status.getD dummy.dummyState

/-- A handler that only sends keeps the memories, the copies and the state of the emulation. -/
theorem Sends.onlySets {socket : SOCKET} {before after : Dummy} {text : Bytes}
    (sends : Sends socket before after text)
    : after.memory = before.memory
      ∧ after.copies = before.copies
      ∧ after.dummyState = before.dummyState := by
  obtain ⟨buffers, -, rfl⟩ := sends
  exact ⟨rfl, rfl, rfl⟩

/-- Replying with a hash sets nothing. -/
theorem replyHash_onlySets (pairs : Dummy → List (String × Bytes))
    : OnlySets none (fun socket _ dummy => replyHash (pairs dummy) socket dummy) :=
  fun socket _ dummy => (replyHash_lines (pairs dummy) socket dummy).onlySets

/-- CORE_READ sets nothing. -/
theorem dummyCoreMemoryRead_onlySets : OnlySets none dummyCoreMemoryRead := by
  intro socket args dummy
  unfold dummyCoreMemoryRead
  split
  case h_1 =>
    dsimp only
    split
    case h_1 => exact ⟨rfl, rfl, rfl⟩
    case h_2 => split <;> exact ⟨rfl, rfl, rfl⟩
  case h_2 => exact ⟨rfl, rfl, rfl⟩

/-- The line of a write sets nothing but the destination. -/
theorem dummyCoreMemoryWrite_onlySets : OnlySets none dummyCoreMemoryWrite := by
  intro socket args dummy
  unfold dummyCoreMemoryWrite
  split <;> exact ⟨rfl, rfl, rfl⟩

/-- Each handler of the table sets what its command does. -/
theorem handler_onlySets
    : ∀ entry ∈ Dummy.host.genericMap, OnlySets entry.command.sets entry.function := by
  have still : OnlySets none dummyNp := fun _ _ _ => ⟨rfl, rfl, rfl⟩
  have pause : OnlySets (some .paused) dummyEmuPause := fun _ _ _ => ⟨rfl, rfl, rfl⟩
  have stop : OnlySets (some .stopped) dummyEmuStop := fun _ _ _ => ⟨rfl, rfl, rfl⟩
  have resume : OnlySets (some .running) dummyEmuResume := fun _ _ _ => ⟨rfl, rfl, rfl⟩
  have status : OnlySets none dummyEmuStatus := fun _ _ _ => ⟨rfl, rfl, rfl⟩
  have info : OnlySets none dummyEmuInfo := replyHash_onlySets _
  have game : OnlySets none dummyGameInfo := replyHash_onlySets _
  have cores : OnlySets none dummyCoresList := replyHash_onlySets _
  have memories : OnlySets none dummyCoreMemories := replyHash_onlySets _
  have read := dummyCoreMemoryRead_onlySets
  have write := dummyCoreMemoryWrite_onlySets
  simp only [Dummy.host, List.forall_mem_cons]
  simp [EmulatorCommand.sets, *]

-----------------------------------------------------------------------------------------
-- Copies
-----------------------------------------------------------------------------------------

/-- A copy keeps the memories what the copies made of them. -/
theorem Dummy.copyToMemory_stores {start dummy : Dummy} (stores : start.Stores dummy)
    (socket : SOCKET) (data : Bytes)
    : let after := dummy.copyToMemory socket data
      after.dummyState = dummy.dummyState ∧ (after.undefined = false → start.Stores after) := by
  rw [Dummy.copyToMemory]
  split
  case isTrue => exact ⟨rfl, fun _ => stores⟩
  case isFalse =>
    dsimp only
    cases target : dummy.memoryToWrite with
    | none => exact ⟨rfl, fun defined => by cases defined⟩
    | some name =>
        cases copied : (dummy.memory name).memcpy dummy.offsetToWrite data with
        | none =>
            simp only [copied]
            exact ⟨rfl, fun defined => by cases defined⟩
        | some written =>
            have inside : dummy.offsetToWrite + data.length ≤ (dummy.memory name).bytes.length := by
              by_contra outside
              rw [Allocation.memcpy, dif_neg outside] at copied
              cases copied
            have bytes : written.bytes
                = overwritten (dummy.memory name).bytes dummy.offsetToWrite data := by
              rw [Allocation.memcpy, dif_pos inside] at copied
              cases copied
              rfl
            let memory (other : MemoryName) : Allocation :=
              if other = name then written else dummy.memory other
            have writes : RangeWrite.Describes
                (dummy.writes ++ [⟨name, dummy.offsetToWrite, data⟩])
                (fun name => (start.memory name).bytes) (fun name => (memory name).bytes) := by
              refine RangeWrite.Describes.write stores _ inside ?_ ?_
              · simp only [memory, if_pos, bytes, overwritten]
              · intro other apart
                simp only [memory, if_neg apart]
            have log : dummy.writes ++ [⟨name, dummy.offsetToWrite, data⟩]
                = (dummy.copies
                    ++ [MemoryCopy.mk socket (some name) dummy.offsetToWrite data]).filterMap
                      MemoryCopy.write? := by
              rw [List.filterMap_append]
              rfl
            rw [log] at writes
            simp only [copied]
            split
            case isTrue => exact ⟨rfl, fun _ => writes⟩
            case isFalse => exact ⟨rfl, fun _ => writes⟩

/-- `write_to_memory` keeps the memories what the copies made of them. -/
theorem writeToMemory_stores {start dummy : Dummy} (stores : start.Stores dummy)
    (socket : SOCKET) (data : Bytes)
    : let after := (writeToMemory socket data dummy).2
      after.dummyState = dummy.dummyState ∧ (after.undefined = false → start.Stores after) := by
  rw [writeToMemory]
  split
  case isTrue => exact ⟨rfl, fun defined => by cases defined⟩
  split
  case isTrue =>
    split
    case isTrue => exact ⟨rfl, fun defined => by cases defined⟩
    case isFalse =>
      let header := { dummy with sizeToWrite := ntohl data, sizeHeaderGet := true }
      have same : start.Stores header := stores
      exact Dummy.copyToMemory_stores same socket (data.drop 4)
  case isFalse => exact Dummy.copyToMemory_stores stores socket data

-----------------------------------------------------------------------------------------
-- Events
-----------------------------------------------------------------------------------------

/-- A command that sets the status is in the table. -/
theorem sets_listed {command : EmulatorCommand} (sets : command.sets ≠ none)
    : ∃ entry ∈ Dummy.host.genericMap, entry.command = command := by
  cases command <;> first | decide | exact absurd rfl sets

/-- One event: it may set the status, and the memories stay what the copies make of them. -/
theorem Dummy.call_stores {start dummy : Dummy} (stores : start.Stores dummy) (event : Event)
    : let after := Dummy.host.call dummy event
      after.dummyState = event.sets.getD dummy.dummyState
      ∧ (after.undefined = false → start.Stores after) := by
  cases event with
  | handled socket target args result =>
      cases target with
      | custom index => exact ⟨rfl, fun _ => stores⟩
      | generic command =>
          rcases Dummy.host.call_generic dummy socket command args result with
            ⟨unlisted, still⟩ | ⟨entry, listed, same, calls⟩
          · rw [still]
            refine ⟨?_, fun _ => stores⟩
            rw [Event.sets]
            by_cases sets : command.sets = none
            · rw [sets]
              rfl
            · obtain ⟨entry, listed, same⟩ := sets_listed sets
              exact absurd same (unlisted entry listed)
          · obtain ⟨memory, copies, status⟩ := handler_onlySets entry listed socket args dummy
            rw [same] at status
            rw [calls]
            refine ⟨status, fun _ => ?_⟩
            rw [Dummy.Stores, Dummy.writes, copies, memory]
            exact stores
  | errorReply => exact ⟨rfl, fun _ => stores⟩
  | blockWritten socket data => exact writeToMemory_stores stores socket data
  | _ => exact ⟨rfl, fun _ => stores⟩

/-- The state that the events of all clients have made, by induction on them. -/
theorem Dummy.replay_stores {start : Dummy} (runs : start.dummyState = .running)
    (fresh : start.copies = []) {trace : List Event}
    (defined : (Dummy.host.replay start trace).undefined = false)
    : let dummy := Dummy.host.replay start trace
      dummy.dummyState = lastStatus trace ∧ start.Stores dummy := by
  induction trace using List.reverseRecOn with
  | nil =>
      refine ⟨runs, ?_⟩
      rw [Dummy.Stores, Dummy.writes, show (Dummy.host.replay start []) = start from rfl, fresh]
      exact RangeWrite.describes_nil _
  | append_singleton trace event ih =>
      rw [Host.replay_concat] at defined
      obtain ⟨status, stores⟩ := ih ((Dummy.call_sends _ event).1.defined defined)
      obtain ⟨set, kept⟩ := Dummy.call_stores stores event
      rw [Host.replay_concat]
      refine ⟨set.trans ?_, kept defined⟩
      rw [status, lastStatus, lastStatus, List.reverse_append, List.reverse_singleton,
        List.singleton_append, List.findSome?_cons]
      cases event.sets with
      | none => rfl
      | some status => rfl

-----------------------------------------------------------------------------------------
-- Replies
-----------------------------------------------------------------------------------------

/-- EMULATION_STATUS transmits the status reply of the current state. -/
theorem statusReply_sent (socket : SOCKET) (args : List Bytes) (dummy : Dummy)
    : dummy.Transmits socket (statusReply dummy.dummyState)
        (dummyEmuStatus socket args dummy).2 := by
  obtain ⟨state⟩ := dummy
  cases state with
  | running =>
      refine ⟨[ascii "\n", ascii "state:running", ascii "\ngame:Dummy game\n\n"], ?_, ?_⟩
      · exact show _ = statusReply .running by decide
      · simp [dummyEmuStatus, Dummy.write]
  | paused =>
      refine ⟨[ascii "\n", ascii "state:paused", ascii "\ngame:Dummy game\n\n"], ?_, ?_⟩
      · exact show _ = statusReply .paused by decide
      · simp [dummyEmuStatus, Dummy.write]
  | stopped =>
      refine ⟨[ascii "\n", ascii "state:stopped", ascii "\ngame:Dummy game\n\n"], ?_, ?_⟩
      · exact show _ = statusReply .stopped by decide
      · simp [dummyEmuStatus, Dummy.write]

/-- The bytes at a place of a memory that the copies describe. -/
theorem Dummy.Stores.load {start dummy : Dummy} (stores : start.Stores dummy)
    {memory : MemoryName} {offset size : Nat} {data : Bytes}
    (loads : dummy.load (some memory) offset size = some data)
    : ∀ index < data.length,
        data[index]?
        = (RangeWrite.last? dummy.writes memory (offset + index)).or
            (start.memory memory).bytes[offset + index]? := by
  intro index fits
  have same : (dummy.memory memory).bytes.length = (start.memory memory).bytes.length :=
    (stores memory).1
  have length := Dummy.load_length loads
  unfold Dummy.load at loads
  split at loads
  case isTrue none_ =>
    cases loads
    omega
  case isFalse =>
    dsimp only at loads
    split at loads
    case isTrue inside =>
      cases loads
      rw [length] at fits
      rw [List.getElem?_take_of_lt fits, List.getElem?_drop]
      have here : offset + index < (start.memory memory).bytes.length := by omega
      exact (stores memory).2 (offset + index) here
    case isFalse => cases loads

/-- What is sent for a `CORE_READ` that keeps to defined behaviour. -/
theorem coreRead_sent {start dummy : Dummy} (stores : start.Stores dummy) (socket : SOCKET)
    (name offset size : Bytes) (rest : List Bytes)
    (defined
      : (dummyCoreMemoryRead socket (name :: offset :: size :: rest) dummy).2.undefined = false)
    : ∃ data : Bytes,
        data.length = toUnsigned (atoi size)
        ∧ dummy.Transmits socket (0 :: htonl data.length ++ data)
            (dummyCoreMemoryRead socket (name :: offset :: size :: rest) dummy).2
        ∧ ∀ memory,
            memoryNamed name = some memory
            → ∀ index < data.length,
                data[index]?
                = (RangeWrite.last? dummy.writes memory (getOffset offset + index)).or
                    (start.memory memory).bytes[getOffset offset + index]? := by
  obtain ⟨_, _, _, _, data, same, loads, -, sent⟩ := dummyCoreMemoryRead_loads defined
  cases same
  refine ⟨data, Dummy.load_length loads, sent, fun memory named => ?_⟩
  rw [named] at loads
  exact stores.load loads

-----------------------------------------------------------------------------------------
-- Whole runs
-----------------------------------------------------------------------------------------

/-- What the reply for an event says is the state that the events before it have made. -/
structure RepliesCurrent (start : Dummy) (before : List Event) (event : Event) : Prop where
  status
    : ∀ socket args result,
        event = .handled socket (.generic .emulationStatus) args result
        → (Dummy.host.replay start before).answer event = statusReply (lastStatus before)
  read
    : ∀ socket name offset size rest result,
        event = .handled socket (.generic .coreRead) (name :: offset :: size :: rest) result
        → let dummy := Dummy.host.replay start before
          ∃ data : Bytes,
            data.length = toUnsigned (atoi size)
            ∧ dummy.answer event = 0 :: htonl data.length ++ data
            ∧ ∀ memory,
                memoryNamed name = some memory
                → ∀ index < data.length,
                    data[index]?
                    = (RangeWrite.last? dummy.writes memory (getOffset offset + index)).or
                        (start.memory memory).bytes[getOffset offset + index]?

/-- In every run of the dummy, before every event at which it keeps to its defined behaviour: a
reported status is the one that the last command of any client has set, and each byte that is read
is the one that the last copy for any client has put at its place, or the one that was loaded there.
-/
theorem replies_current (serverSocket : SOCKET) (clients : Clients) (romPath : Bytes)
    (memory : MemoryName → Allocation) (rounds : List Round)
    (fresh
      : Reaction.CalmAlong (pollRound Dummy.host .absent) Round.Fresh
          (.listening serverSocket clients (Dummy.start romPath memory)) rounds)
    : let start := Dummy.start romPath memory
      let run := genericPollServerStart Dummy.host .absent serverSocket clients start rounds
      ServerTurn.emulator run = Dummy.host.replay start run.emitted
      ∧ ∀ before event after,
          run.emitted = before ++ event :: after
          → (Dummy.host.replay start (before ++ [event])).undefined = false
          → RepliesCurrent start before event := by
  intro start run
  refine ⟨genericPollServerStart_replay Dummy.host serverSocket clients start rounds fresh, ?_⟩
  intro before event after split defined
  rw [Host.replay_concat] at defined
  have earlier := (Dummy.call_sends _ event).1.defined defined
  obtain ⟨status, stores⟩ := Dummy.replay_stores rfl rfl earlier
  constructor
  · rintro socket args result rfl
    refine (Dummy.answer_eq (statusReply_sent socket args _)).trans ?_
    rw [status]
  · rintro socket name offset size rest result rfl
    obtain ⟨data, length, sent, bytes⟩ :=
      coreRead_sent stores socket name offset size rest defined
    exact ⟨data, length, Dummy.answer_eq sent, bytes⟩

/-- One client writes to a memory and stops the emulation between the requests of the other. -/
def sharingRounds : List Round :=
  twoClients [
    (some (lineTo .wram), some ⟨ascii "EMULATION_STATUS\n", by decide, by decide⟩),
    (some (blockOf 7), none),
    (some ⟨ascii "EMULATION_PAUSE\nEMULATION_STOP\n", by decide, by decide⟩, none),
    (none, some ⟨ascii "CORE_READ WRAM;2;4\nEMULATION_STATUS\n", by decide, by decide⟩)
  ]

/-- Witness: the second client reads two of the bytes that the first one wrote, and two older ones,
and that the emulation has stopped.
-/
theorem replies_current_sharing
    : let run :=
        genericPollServerStart Dummy.host .absent 3 (Vector.replicate 5 Client.zero) smallDummy
          sharingRounds
      (∀ before event after,
        run.emitted = before ++ event :: after
        → (Dummy.host.replay smallDummy (before ++ [event])).undefined = false
        → RepliesCurrent smallDummy before event)
      ∧ (ServerTurn.emulator run).textTo 5
        = statusReply .running ++ [0, 0, 0, 0, 4, 7, 7, 0, 0] ++ statusReply .stopped := by
  intro run
  have current := replies_current 3 (Vector.replicate 5 Client.zero) (ascii "game.sfc")
    (fun _ => ⟨List.replicate 8 0, by decide⟩) sharingRounds (by decide +kernel)
  exact ⟨current.2, by decide +kernel⟩

end NetworkAccess
