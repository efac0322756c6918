import NetworkAccess.Correctness.SavestateWalk
import NetworkAccess.Correctness.SharedState

/-! From the files of the dummy to its replies: whatever is in the savestate, its memories are the
parts of the files behind the headers that its loader has met, and what is read of them before a
write are the bytes of the files.
-/

namespace NetworkAccess

open Stdio

-----------------------------------------------------------------------------------------
-- The sections of any file
-----------------------------------------------------------------------------------------

/-- The last section of a name that was met. -/
def lastVisit (name : Bytes) (visits : List SectionVisit) : Option SectionVisit :=
  visits.reverse.find? (fun visit => cString visit.name = name)

/-- The part of a file behind a header, which may be shorter than the header says. -/
def SectionVisit.loaded (contents : Bytes) (visit : SectionVisit) : LoadedMemory := {
  size := visit.size
  bytes := (contents.drop visit.position).take visit.size
  fits := List.length_take_le visit.size _
}

/-- The memories are those of the last sections of their names. -/
structure LoadedFrom (contents : Bytes) (before : Memories) (visits : List SectionVisit)
    (after : Memories)
    : Prop where
  wram
    : after.wram
      = ((lastVisit (ascii "RAM") visits).map (SectionVisit.loaded contents)).or before.wram
  sram
    : after.sram
      = ((lastVisit (ascii "SRA") visits).map (SectionVisit.loaded contents)).or before.sram
  rom : after.rom = before.rom

/-- The last visit of a section is looked for in the later visits first. -/
theorem lastVisit_cons (name : Bytes) (visit : SectionVisit) (later : List SectionVisit)
    : lastVisit name (visit :: later)
      = (lastVisit name later).or (if cString visit.name = name then some visit else none) := by
  rw [lastVisit, List.reverse_cons, List.find?_append, ← lastVisit, List.find?_singleton]
  simp only [decide_eq_true_eq]

/-- Reading the header of a section moves the position forward in the same file. -/
theorem nextSection_moves {fd payload : Stream} {sectionName : Bytes} {size : Nat}
    (found : nextSection fd = some (sectionName, size, payload))
    : payload.contents = fd.contents ∧ fd.position ≤ payload.position := by
  rw [nextSection] at found
  split at found
  case h_1 letters value behind scans =>
    cases found
    have moved : payload = (fd.fscanf sectionFormat).2 := by rw [scans]
    rw [moved]
    exact ⟨rfl, Nat.le_add_right _ _⟩
  case h_2 => cases found

/-- Loading the payload of a section moves the position forward in the same file. -/
theorem loadSection_moves (sectionName : Bytes) (size : Nat) (payload : Stream)
    (memories : Memories)
    : let loaded := loadSection sectionName size payload memories
      loaded.1.contents = payload.contents ∧ payload.position ≤ loaded.1.position := by
  rw [loadSection]
  split
  case isTrue => exact ⟨rfl, Nat.le_add_right _ _⟩
  case isFalse =>
    split
    case isTrue => exact ⟨rfl, Nat.le_add_right _ _⟩
    case isFalse => exact ⟨rfl, Nat.le_add_right _ _⟩

/-- One turn of the loop. -/
theorem loadSection_loaded (sectionName : Bytes) (size : Nat) (payload : Stream)
    (memories : Memories)
    : LoadedFrom payload.contents memories [⟨sectionName, size, payload.position⟩]
        (loadSection sectionName size payload memories).2 := by
  have differs : ascii "RAM" ≠ ascii "SRA" := by decide
  have single (name : Bytes) : lastVisit name [⟨sectionName, size, payload.position⟩]
      = if cString sectionName = name then some ⟨sectionName, size, payload.position⟩ else none :=
    lastVisit_cons name _ []
  rw [loadSection]
  split
  case isTrue isRam =>
    refine ⟨?_, ?_, rfl⟩
    · rw [single, if_pos isRam]
      rfl
    · rw [single, if_neg (isRam ▸ differs)]
      rfl
  case isFalse noRam =>
    split
    case isTrue isSra =>
      refine ⟨?_, ?_, rfl⟩
      · rw [single, if_neg noRam]
        rfl
      · rw [single, if_pos isSra]
        rfl
    case isFalse noSra =>
      refine ⟨?_, ?_, rfl⟩
      · rw [single, if_neg noRam]
        rfl
      · rw [single, if_neg noSra]
        rfl

/-- Loading one section and then the later ones is loading all of them. -/
theorem LoadedFrom.cons {contents : Bytes} {before middle after : Memories}
    {visit : SectionVisit} {later : List SectionVisit}
    (first : LoadedFrom contents before [visit] middle)
    (rest : LoadedFrom contents middle later after)
    : LoadedFrom contents before (visit :: later) after := by
  have split (name : Bytes)
      : lastVisit name (visit :: later) = (lastVisit name later).or (lastVisit name [visit]) := by
    rw [lastVisit_cons, lastVisit_cons]
    rfl
  refine ⟨?_, ?_, rest.rom.trans first.rom⟩
  · rw [rest.wram, first.wram, split, Option.map_or, Option.or_assoc]
  · rw [rest.sram, first.sram, split, Option.map_or, Option.or_assoc]

/-- Every section has its header in the file behind a position. -/
def HeadersBehind (start : Nat) (contents : Bytes) (visits : List SectionVisit) : Prop :=
  ∀ visit ∈ visits,
    ∃ position,
      start ≤ position
      ∧ nextSection ⟨contents, position⟩
        = some (visit.name, visit.size, ⟨contents, visit.position⟩)

/-- By induction on the turns of the loop: whatever is in the file, the memories are those of the
last sections that were met, and each section has its header in the file behind the start.
-/
theorem loadSections_loaded (fd : Stream) (memories : Memories)
    : let loaded := loadSections fd memories
      LoadedFrom fd.contents memories loaded.1 loaded.2
      ∧ HeadersBehind fd.position fd.contents loaded.1 := by
  induction fd, memories using loadSections.induct with
  | case1 fd memories ends =>
      rw [loadSections_end ends]
      exact ⟨⟨rfl, rfl, rfl⟩, List.forall_mem_nil _⟩
  | case2 fd memories sectionName size payload next loaded visits result later ih =>
      obtain ⟨contents, position⟩ := payload
      obtain ⟨same, begins⟩ := nextSection_moves next
      obtain ⟨kept, ends⟩ := loadSection_moves sectionName size ⟨contents, position⟩ memories
      dsimp only at same begins kept ends
      subst same
      rw [loadSections_next next (show _ = (loaded.1, loaded.2) from rfl)]
      have behind : LoadedFrom loaded.1.contents loaded.2 _ _ ∧ _ := ih
      rw [show loaded.1.contents = fd.contents from kept] at behind
      have first : LoadedFrom fd.contents memories [⟨sectionName, size, position⟩] loaded.2 :=
        loadSection_loaded sectionName size ⟨fd.contents, position⟩ memories
      refine ⟨first.cons behind.1, ?_⟩
      refine List.forall_mem_cons.mpr ⟨⟨fd.position, Nat.le_refl _, next⟩, fun visit member => ?_⟩
      obtain ⟨header, after, scans⟩ := behind.2 visit member
      exact ⟨header, begins.trans (ends.trans after), scans⟩

-----------------------------------------------------------------------------------------
-- The memories at the start
-----------------------------------------------------------------------------------------

/-- The byte of the files that belongs at an address of a memory. -/
def fileByte (rom state : Bytes) (visits : List SectionVisit) (address : Nat)
    : MemoryName → Option UInt8
  | .cartrom => rom[address]?
  | .wram => (lastVisit (ascii "RAM") visits).bind (fun visit => state[visit.position + address]?)
  | .sram => (lastVisit (ascii "SRA") visits).bind (fun visit => state[visit.position + address]?)

/-- Every byte that a visit loads stands in the file at its address behind the visit's position. -/
theorem SectionVisit.loaded_byte {state : Bytes} {visit : SectionVisit} {address : Nat}
    {byte : UInt8} (here : (visit.loaded state).bytes[address]? = some byte)
    : state[visit.position + address]? = some byte := by
  have inside : address < visit.size := by
    by_contra outside
    have none_ : (visit.loaded state).bytes[address]? = none :=
      List.getElem?_eq_none ((visit.loaded state).fits.trans (Nat.le_of_not_lt outside))
    cases none_.symm.trans here
  rwa [loaded, List.getElem?_take_of_lt inside, List.getElem?_drop] at here

/-- The allocation of a loaded memory holds the bytes that were loaded. -/
theorem LoadedMemory.allocation_bytes {memory : LoadedMemory} {allocation : Allocation}
    (allocates : memory.allocation = some allocation)
    : allocation.bytes = memory.bytes := by
  rw [LoadedMemory.allocation] at allocates
  split at allocates
  case isTrue =>
    cases allocates
    rfl
  case isFalse => cases allocates

/-- A memory that is loaded from a section has the bytes of the section. -/
theorem lastVisit_byte {state name : Bytes} {visits : List SectionVisit}
    {allocation : Allocation}
    (allocates
      : ((lastVisit name visits).map (SectionVisit.loaded state)).bind LoadedMemory.allocation
        = some allocation)
    {address : Nat} {byte : UInt8} (here : allocation.bytes[address]? = some byte)
    : (lastVisit name visits).bind (fun visit => state[visit.position + address]?)
      = some byte := by
  cases found : lastVisit name visits with
  | none =>
      rw [found] at allocates
      cases allocates
  | some visit =>
      rw [found] at allocates
      rw [LoadedMemory.allocation_bytes allocates] at here
      exact SectionVisit.loaded_byte here

/-- When `prep_memory` succeeds, the rom is the whole first file and the other memories were loaded
from the second.
-/
theorem prepMemory_loaded {romfile savestate : Option Bytes} {memories : Memories}
    {loaded : List SectionVisit × Memories}
    (prepares : prepMemory romfile savestate memories = some loaded)
    : ∃ rom state,
        romfile = some rom
        ∧ savestate = some state
        ∧ LoadedFrom state { memories with rom := some (.whole rom) } loaded.1 loaded.2
        ∧ HeadersBehind 14 state loaded.1 := by
  cases romfile with
  | none => cases prepares
  | some rom =>
      have read : loadMemory rom.length ⟨rom, 0⟩ = (.whole rom, ⟨rom, 0 + rom.length⟩) :=
        loadMemory_moved (List.append_nil rom).symm
      cases savestate with
      | none => cases prepares
      | some state =>
          simp only [prepMemory, read, snes9x152SavestateGetRamWram, Option.bind_eq_bind,
            Option.bind_some, Option.map_some, Option.some.injEq] at prepares
          obtain ⟨slices, headers⟩ := loadSections_loaded (Stream.fseekSet 14 ⟨state, 0⟩)
            { memories with rom := some (.whole rom) }
          rw [prepares] at slices headers
          exact ⟨rom, state, rfl, rfl, slices, headers⟩

/-- The memories with which the server starts are the parts of the files behind the last headers. -/
theorem dummyMain_starts {files : Bytes → Option Bytes} {argv : List Bytes} {romPath : Bytes}
    {visits : List SectionVisit} {memories : Memories}
    (loads : dummyMain files argv = some (romPath, visits, memories)) {start : Dummy}
    (starts : memories.start romPath = some start)
    : ∃ program statePath rom state memory,
        argv = [program, romPath, statePath]
        ∧ files romPath = some rom
        ∧ files statePath = some state
        ∧ start = Dummy.start romPath memory
        ∧ HeadersBehind 14 state visits
        ∧ ∀ name address byte,
            (memory name).bytes[address]? = some byte
            → fileByte rom state visits address name = some byte := by
  unfold dummyMain at loads
  split at loads
  case h_2 => cases loads
  case h_1 program path statePath =>
    obtain ⟨loaded, prepares, same⟩ := Option.map_eq_some_iff.mp loads
    cases same
    obtain ⟨rom, state, romFile, stateFile, slices, headers⟩ := prepMemory_loaded prepares
    obtain ⟨wram, wramLoads, starts⟩ := Option.bind_eq_some_iff.mp starts
    obtain ⟨sram, sramLoads, starts⟩ := Option.bind_eq_some_iff.mp starts
    obtain ⟨cartrom, romLoads, starts⟩ := Option.bind_eq_some_iff.mp starts
    rw [slices.wram, Option.or_none] at wramLoads
    rw [slices.sram, Option.or_none] at sramLoads
    rw [slices.rom] at romLoads
    refine ⟨program, statePath, rom, state, allocations wram sram cartrom, rfl, romFile, stateFile,
      (Option.some.inj starts).symm, headers, ?_⟩
    intro name address byte here
    cases name with
    | wram => exact lastVisit_byte wramLoads here
    | sram => exact lastVisit_byte sramLoads here
    | cartrom =>
        have same : cartrom.bytes = rom := LoadedMemory.allocation_bytes romLoads
        exact same ▸ here

-----------------------------------------------------------------------------------------
-- Whole runs
-----------------------------------------------------------------------------------------

/-- Each byte of a reply to `CORE_READ` is the one that the last copy has put at its place, or else
the one of the files.
-/
def ReadsFiles (rom state : Bytes) (visits : List SectionVisit) (start : Dummy)
    (trace : List Event)
    : Prop :=
  ∀ before after socket name offset size rest result,
    let event := Event.handled socket (.generic .coreRead) (name :: offset :: size :: rest) result
    trace = before ++ event :: after
    → (Dummy.host.replay start (before ++ [event])).undefined = false
    → let dummy := Dummy.host.replay start before
      ∃ data : Bytes,
        data.length = toUnsigned (atoi size)
        ∧ dummy.answer event = 0 :: htonl data.length ++ data
        ∧ ∀ memory,
            memoryNamed name = some memory
            → ∀ index < data.length,
                data[index]?
                = (RangeWrite.last? dummy.writes memory (getOffset offset + index)).or
                    (fileByte rom state visits (getOffset offset + index) memory)

/-- Whatever is in the files, and whatever the clients send: if the dummy has loaded all of its
memories, then in every run from there, before every event at which it keeps to its defined
behaviour, each byte of a `CORE_READ` reply is the one that the last copy for any client has put at
its place, or the one that stands there in the file of the ROM, or in the savestate behind the last
header of its section.
-/
theorem dummyMain_reads (files : Bytes → Option Bytes) (argv : List Bytes) {romPath : Bytes}
    {visits : List SectionVisit} {memories : Memories}
    (loads : dummyMain files argv = some (romPath, visits, memories)) {start : Dummy}
    (starts : memories.start romPath = some start) (serverSocket : SOCKET) (clients : Clients)
    (rounds : List Round)
    (fresh
      : Reaction.CalmAlong (pollRound Dummy.host .absent) Round.Fresh
          (.listening serverSocket clients start) rounds)
    : let run := genericPollServerStart Dummy.host .absent serverSocket clients start rounds
      ServerTurn.emulator run = Dummy.host.replay start run.emitted
      ∧ ∃ program statePath rom state,
          argv = [program, romPath, statePath]
          ∧ files romPath = some rom
          ∧ files statePath = some state
          ∧ HeadersBehind 14 state visits
          ∧ ReadsFiles rom state visits start run.emitted := by
  intro run
  refine ⟨genericPollServerStart_replay Dummy.host serverSocket clients start rounds fresh, ?_⟩
  obtain ⟨program, statePath, rom, state, memory, rfl, romFile, stateFile, rfl, headers, bytes⟩ :=
    dummyMain_starts loads starts
  refine ⟨program, statePath, rom, state, rfl, romFile, stateFile, headers, ?_⟩
  intro before after socket name offset size rest result event split defined dummy
  rw [Host.replay_concat] at defined
  have earlier := (Dummy.call_sends _ _).1.defined defined
  obtain ⟨-, stores⟩ := Dummy.replay_stores rfl rfl earlier
  obtain ⟨data, length, sent, stored⟩ := coreRead_sent stores socket name offset size rest defined
  refine ⟨data, length, Dummy.answer_eq sent, fun memory named index inside => ?_⟩
  have here := stored memory named index inside
  cases last : RangeWrite.last? dummy.writes memory (getOffset offset + index) with
  | some byte =>
      rw [last] at here
      exact here
  | none =>
      -- no copy has reached the place, so the byte is one of the start
      rw [last, Option.none_or, List.getElem?_eq_getElem inside] at here
      rw [Option.none_or, List.getElem?_eq_getElem inside]
      exact (bytes memory _ _ here.symm).symm

/-- A savestate with a part of a header at its end. -/
def partialState : Bytes :=
  ascii "#!snes9x:0006\nRAM:000004:" ++ [1, 2, 3, 4] ++ ascii "SRA:000002:" ++ [5, 6] ++ ascii "end"

/-- The files of the example: the game, and this savestate under any other path. -/
def partialFiles (path : Bytes) : Option Bytes :=
  if path = ascii "game.sfc" then some [7, 8, 9] else some partialState

/-- What the dummy starts with then. -/
def partialStart : Dummy :=
  Dummy.start (ascii "game.sfc")
    (allocations ⟨[1, 2, 3, 4], by decide⟩ ⟨[5, 6], by decide⟩ ⟨[7, 8, 9], by decide⟩)

/-- Both whole sections are loaded, the partial header at the end is not. -/
theorem partialState_sections (memories : Memories)
    : loadSections (Stream.fseekSet 14 ⟨partialState, 0⟩) memories
      = (
        [⟨ascii "RAM", 4, 25⟩, ⟨ascii "SRA", 2, 40⟩],
        { memories with wram := some (.whole [1, 2, 3, 4]), sram := some (.whole [5, 6]) }
      ) := by
  rw [@loadSections_next _ ⟨partialState, 25⟩ ⟨partialState, 29⟩ (ascii "RAM") 4 memories
      { memories with wram := some (.whole [1, 2, 3, 4]) } rfl rfl,
    @loadSections_next _ ⟨partialState, 40⟩ ⟨partialState, 42⟩ (ascii "SRA") 2
      { memories with wram := some (.whole [1, 2, 3, 4]) }
      { memories with wram := some (.whole [1, 2, 3, 4]), sram := some (.whole [5, 6]) } rfl rfl,
    loadSections_end rfl]

/-- Witness: a client reads two bytes of the section. -/
theorem dummyMain_reads_partial
    : let visits := [⟨ascii "RAM", 4, 25⟩, ⟨ascii "SRA", 2, 40⟩]
      let rounds :=
        twoClients [(some ⟨ascii "CORE_READ WRAM;$1;2\n", by decide, by decide⟩, none)]
      let run :=
        genericPollServerStart Dummy.host .absent 3 (Vector.replicate 5 Client.zero) partialStart
          rounds
      ReadsFiles [7, 8, 9] partialState visits partialStart run.emitted
      ∧ (ServerTurn.emulator run).textTo 4 = [0, 0, 0, 0, 2, 2, 3] := by
  intro visits rounds run
  have loads
      : dummyMain partialFiles [ascii "dummyserver", ascii "game.sfc", ascii "state"]
        = some
          (
            ascii "game.sfc",
            visits,
            ⟨some (.whole [5, 6]), some (.whole [1, 2, 3, 4]), some (.whole [7, 8, 9])⟩
          ) := by
    have walks := partialState_sections ⟨none, none, some (.whole [7, 8, 9])⟩
    exact congrArg (fun loaded => some (ascii "game.sfc", loaded)) walks
  obtain ⟨-, program, statePath, rom, state, argv, romFile, stateFile, -, reads⟩ :=
    @dummyMain_reads partialFiles _ _ _ _ loads partialStart rfl 3
      (Vector.replicate 5 Client.zero) rounds (by decide +kernel)
  cases argv
  cases romFile
  cases stateFile
  exact ⟨reads, by decide +kernel⟩

end NetworkAccess
