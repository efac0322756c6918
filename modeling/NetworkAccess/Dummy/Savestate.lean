import NetworkAccess.Dummy.Emulator
import NetworkAccess.Library.Stdio

/-! How the dummy loads its memories: `prep_memory`, and the walk over the sections of a savestate.
-/

namespace NetworkAccess

open Stdio

/-- A memory that was allocated and read from a file. Where the file was shorter, the bytes behind
those that were read are not determined.
-/
structure LoadedMemory where
  size : Nat
  bytes : Bytes
  fits : bytes.length ≤ size

/-- The pointers `sram_memory`, `wram_memory` and `rom_memory`. -/
structure Memories where
  sram : Option LoadedMemory
  wram : Option LoadedMemory
  rom : Option LoadedMemory

/-- `malloc`, which does not fail, and `fread` of so many bytes, and what is behind them. -/
def loadMemory (size : Nat) (fd : Stream) : LoadedMemory × Stream :=
  (⟨size, (fd.fread size).1, List.length_take_le size fd.rest⟩, (fd.fread size).2)

/-- The format `"%3c:%06d:"`, where the zero is part of the width. -/
def sectionFormat : List Directive :=
  [.chars 3, .literal colon, .decimal 6, .literal colon]

/-- The condition of the loop: the name and the size, an `unsigned int`, if both are converted. -/
def nextSection (fd : Stream) : Option (Bytes × Nat × Stream) :=
  match fd.fscanf sectionFormat with
  | ([.chars sectionName, .decimal size], fd) => some (sectionName, (size % 2 ^ 32).toNat, fd)
  | _ => none

/-- The body of the loop. -/
def loadSection (sectionName : Bytes) (size : Nat) (fd : Stream) (memories : Memories)
    : Stream × Memories :=
  if cString sectionName = ascii "RAM" then
    let (wram, fd) := loadMemory size fd
    (fd, { memories with wram := some wram })
  else if cString sectionName = ascii "SRA" then
    let (sram, fd) := loadMemory size fd
    (fd, { memories with sram := some sram })
  else
    (fd.fseekCur size, memories)

/-- One turn of the loop: a section, and where its payload begins. -/
structure SectionVisit where
  name : Bytes
  size : Nat
  position : Nat
deriving DecidableEq

/-- A stream that is moved forward has less behind it. -/
theorem rest_length_le {fd after : Stream} (same : after.contents = fd.contents)
    (forward : fd.position ≤ after.position)
    : after.rest.length ≤ fd.rest.length := by
  simp only [Stream.rest, List.length_drop, same]
  omega

/-- The header of a section is taken from the file, so the loop comes to an end. -/
theorem nextSection_shorter {fd after : Stream} {sectionName : Bytes} {size : Nat}
    (found : nextSection fd = some (sectionName, size, after))
    : after.rest.length < fd.rest.length := by
  rw [nextSection] at found
  split at found
  case h_1 letters value behind scans =>
    cases found
    have converts : (scanf sectionFormat fd.rest).1 ≠ [] := by
      rw [← Stream.fscanf_converted, scans]
      exact List.cons_ne_nil _ _
    have taken := scanf_chars_length converts
    rw [← sectionFormat, ← Stream.fscanf_rest, scans] at taken
    dsimp only at taken
    omega
  case h_2 => cases found

/-- A section that is loaded leaves no more of the file than before it. -/
theorem loadSection_forward (sectionName : Bytes) (size : Nat) (fd : Stream) (memories : Memories)
    : (loadSection sectionName size fd memories).1.rest.length ≤ fd.rest.length := by
  rw [loadSection]
  split
  case isTrue => exact rest_length_le rfl (Nat.le_add_right _ _)
  case isFalse =>
    split
    case isTrue => exact rest_length_le rfl (Nat.le_add_right _ _)
    case isFalse => exact rest_length_le rfl (Nat.le_add_right _ _)

/-- The loop, with the sections that it meets. -/
def loadSections (fd : Stream) (memories : Memories) : List SectionVisit × Memories :=
  match _ : nextSection fd with
  | none => ([], memories)
  | some (sectionName, size, payload) =>
      let loaded := loadSection sectionName size payload memories
      let (visits, memories) := loadSections loaded.1 loaded.2
      (⟨sectionName, size, payload.position⟩ :: visits, memories)
termination_by fd.rest.length
decreasing_by
  exact Nat.lt_of_le_of_lt (loadSection_forward _ _ _ _) (nextSection_shorter ‹_›)

/-- The loop ends where no section comes. -/
theorem loadSections_end {fd : Stream} (ends : nextSection fd = none) (memories : Memories)
    : loadSections fd memories = ([], memories) := by
  rw [loadSections]
  split
  case h_1 => rfl
  case h_2 found =>
    rw [ends] at found
    cases found

/-- Otherwise it visits the section and goes on behind it. -/
theorem loadSections_next {fd payload behind : Stream} {sectionName : Bytes} {size : Nat}
    {memories loaded : Memories} (next : nextSection fd = some (sectionName, size, payload))
    (loads : loadSection sectionName size payload memories = (behind, loaded))
    : loadSections fd memories
      = (
        ⟨sectionName, size, payload.position⟩ :: (loadSections behind loaded).1,
        (loadSections behind loaded).2
      ) := by
  rw [loadSections]
  split
  case h_1 ends =>
    rw [next] at ends
    cases ends
  case h_2 found =>
    cases next.symm.trans found
    rw [loads]

/-- At the end of the file no section is found. -/
theorem nextSection_end {fd : Stream} (none_ : fd.rest = []) : nextSection fd = none := by
  have ends : fd.fscanf sectionFormat = ([], { fd with position := fd.position }) := by
    rw [Stream.fscanf, none_]
    rfl
  rw [nextSection, ends]

/-- `snes9x_152_savestate_get_ram_wram`. Without the file it ends the program, which is `none`. -/
def snes9x152SavestateGetRamWram (savestate : Option Bytes) (memories : Memories)
    : Option (List SectionVisit × Memories) :=
  savestate.map (fun contents =>
    loadSections (Stream.fseekSet 14 ⟨contents, 0⟩) memories)

/-- `prep_memory`. -/
def prepMemory (romfile savestate : Option Bytes) (memories : Memories)
    : Option (List SectionVisit × Memories) := do
  let contents ← romfile
  let (rom, _) := loadMemory contents.length ⟨contents, 0⟩
  snes9x152SavestateGetRamWram savestate { memories with rom := some rom }

/-- A memory whose bytes are all determined. -/
def LoadedMemory.allocation (memory : LoadedMemory) : Option Allocation :=
  if determined : memory.bytes.length = memory.size ∧ memory.size < 2 ^ 63 then
    some ⟨memory.bytes, determined.1 ▸ determined.2⟩
  else
    none

/-- The memories of a dummy by their names. -/
def allocations (wram sram rom : Allocation) : MemoryName → Allocation
  | .wram => wram
  | .sram => sram
  | .cartrom => rom

/-- The program that serves these memories, if it has loaded all of them. -/
def Memories.start (memories : Memories) (romPath : Bytes) : Option Dummy := do
  let wram ← memories.wram.bind LoadedMemory.allocation
  let sram ← memories.sram.bind LoadedMemory.allocation
  let rom ← memories.rom.bind LoadedMemory.allocation
  pure (Dummy.start romPath (allocations wram sram rom))

/-- `main` up to the start of the server, with the arguments of the process and the files that it
can read: the path of the ROM, the sections that it meets and the memories, or `none` where it
exits.
-/
def dummyMain (files : Bytes → Option Bytes) (argv : List Bytes)
    : Option (Bytes × List SectionVisit × Memories) :=
  match argv with
  | [_, romPath, statePath] =>
      (prepMemory (files romPath) (files statePath) ⟨none, none, none⟩).map (romPath, ·)
  | _ => none

end NetworkAccess
