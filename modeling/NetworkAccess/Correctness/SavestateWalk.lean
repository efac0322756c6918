import NetworkAccess.Dummy.Savestate

/-! The walk over a savestate: each section is met where it begins, whatever is in the payloads.
-/

namespace NetworkAccess

open Numerals Stdio

/-- A section `NNN:dddddd:payload`, whose digits are those of the length of the payload. -/
structure SavestateSection where
  name : Vector UInt8 3
  digits : Vector UInt8 6
  payload : Bytes
  counted : Writes 10 digits.toList payload.length

/-- The section as it stands in the file: name, colon, digits, colon, payload. -/
def SavestateSection.bytes (part : SavestateSection) : Bytes :=
  part.name.toList ++ colon :: (part.digits.toList ++ colon :: part.payload)

/-- A file of sections behind 14 bytes. -/
def savestateFile (start : Vector UInt8 14) (sections : List SavestateSection) : Bytes :=
  start.toList ++ sections.flatMap SavestateSection.bytes

/-- The turns of the loop for sections that begin at a position. -/
def visitsFrom : Nat → List SavestateSection → List SectionVisit
  | _, [] => []
  | position, part :: rest =>
      ⟨part.name.toList, part.payload.length, position + 11⟩
        :: visitsFrom (position + part.bytes.length) rest

/-- The payload of the last section of a name. -/
def lastPayload (name : Bytes) (sections : List SavestateSection) : Option Bytes :=
  (sections.filter (fun part => part.name.toList = name)).getLast?.map SavestateSection.payload

/-- A memory with all of its bytes. -/
def LoadedMemory.whole (bytes : Bytes) : LoadedMemory := ⟨bytes.length, bytes, Nat.le_refl _⟩

/-- The memories behind the sections. -/
def Memories.behind (memories : Memories) (sections : List SavestateSection) : Memories := {
  memories with
  wram := ((lastPayload (ascii "RAM") sections).map LoadedMemory.whole).or memories.wram
  sram := ((lastPayload (ascii "SRA") sections).map LoadedMemory.whole).or memories.sram
}

-----------------------------------------------------------------------------------------
-- The last sections
-----------------------------------------------------------------------------------------

/-- The last payload of a name is looked for in the later sections first. -/
theorem lastPayload_append (name : Bytes) (sections more : List SavestateSection)
    : lastPayload name (sections ++ more)
      = (lastPayload name more).or (lastPayload name sections) := by
  rw [lastPayload, List.filter_append, List.getLast?_append, Option.map_or]
  rfl

/-- The memories behind two parts of a file are those behind the second, from those behind the
first.
-/
theorem Memories.behind_append (memories : Memories) (sections more : List SavestateSection)
    : memories.behind (sections ++ more) = (memories.behind sections).behind more := by
  simp only [Memories.behind, lastPayload_append, Option.map_or, Option.or_assoc]

/-- A single section has a last payload for its own name only. -/
theorem lastPayload_single (name : Bytes) (part : SavestateSection)
    : lastPayload name [part] = if part.name.toList = name then some part.payload else none := by
  rw [lastPayload, List.filter_singleton]
  by_cases named : part.name.toList = name
  · rw [if_pos named, decide_eq_true named]
    rfl
  · rw [if_neg named, decide_eq_false named]
    rfl

-----------------------------------------------------------------------------------------
-- One section
-----------------------------------------------------------------------------------------

/-- A section takes eleven bytes more than its payload. -/
theorem SavestateSection.bytes_length (part : SavestateSection)
    : part.bytes.length = 11 + part.payload.length := by
  simp only [bytes, List.length_append, List.length_cons, Vector.length_toList]
  omega

/-- Six digits write a number that an `unsigned int` has. -/
theorem SavestateSection.small (part : SavestateSection) : part.payload.length < 2 ^ 32 := by
  have bound := part.counted.lt_pow (by decide)
  rw [Vector.length_toList] at bound
  omega

/-- The header of a section is converted as a whole, and nothing else is. -/
theorem scanf_section (part : SavestateSection) (behind : Bytes)
    : scanf sectionFormat (part.bytes ++ behind)
      = ([.chars part.name.toList, .decimal part.payload.length], part.payload ++ behind) := by
  have name := scan_chars part.name.toList
    (colon :: (part.digits.toList ++ colon :: (part.payload ++ behind)))
  have digits := scan_decimal part.counted (colon :: (part.payload ++ behind))
  rw [Vector.length_toList] at name digits
  simp only [SavestateSection.bytes, List.append_assoc, List.cons_append, sectionFormat, scanf,
    name, digits, scan_literal, List.append_nil, List.nil_append]

/-- The condition of the loop on a section, and what is left of the stream behind the header. -/
theorem nextSection_section {fd : Stdio.Stream} {part : SavestateSection} {behind : Bytes}
    (here : fd.rest = part.bytes ++ behind)
    : let payload := { fd with position := fd.position + 11 }
      nextSection fd = some (part.name.toList, part.payload.length, payload)
      ∧ payload.rest = part.payload ++ behind := by
  have scanned := scanf_section part behind
  rw [← here] at scanned
  have taken : fd.rest.length - (part.payload ++ behind).length = 11 := by
    rw [here, List.length_append, List.length_append, part.bytes_length]
    omega
  have moved : fd.fscanf sectionFormat
      = (
        [.chars part.name.toList, .decimal part.payload.length],
        { fd with position := fd.position + 11 }
      ) := by
    rw [Stream.fscanf, scanned]
    simp only [taken]
  have left := Stream.fscanf_rest sectionFormat fd
  rw [moved, scanned] at left
  have small := part.small
  refine ⟨?_, left⟩
  rw [nextSection, moved]
  simp only [Option.some.injEq, Prod.mk.injEq, true_and, and_true]
  omega

/-- `strcmp` with a name of three letters looks at all of them. -/
theorem cString_name (part : SavestateSection) {name : Bytes} (three : name.length = 3)
    (clean : (0 : UInt8) ∉ name)
    : cString part.name.toList = name ↔ part.name.toList = name := by
  constructor
  · intro same
    have begins : name <+: part.name.toList := same ▸ List.takeWhile_prefix _
    exact (begins.eq_of_length (three.trans part.name.length_toList.symm)).symm
  · intro same
    rw [same, cString_clean clean]

/-- Loading a payload that is there yields it whole and moves behind it. -/
theorem loadMemory_moved {fd : Stdio.Stream} {payload behind : Bytes}
    (here : fd.rest = payload ++ behind)
    : loadMemory payload.length fd
      = (.whole payload, { fd with position := fd.position + payload.length }) := by
  simp only [loadMemory, Stream.fread, here, List.take_left, LoadedMemory.whole]

/-- The body of the loop on a section: its payload is taken, in each of the three branches. -/
theorem loadSection_section {fd : Stdio.Stream} {part : SavestateSection} {behind : Bytes}
    (here : fd.rest = part.payload ++ behind) (memories : Memories)
    : loadSection part.name.toList part.payload.length fd memories
      = (
        { fd with position := fd.position + part.payload.length },
        memories.behind [part]
      ) := by
  have ram : cString part.name.toList = ascii "RAM" ↔ part.name.toList = ascii "RAM" :=
    cString_name part rfl (by decide)
  have sra : cString part.name.toList = ascii "SRA" ↔ part.name.toList = ascii "SRA" :=
    cString_name part rfl (by decide)
  rw [loadSection, loadMemory_moved here]
  simp only [ram, sra, Memories.behind, lastPayload_single]
  by_cases isRam : part.name.toList = ascii "RAM"
  · have noSra : ¬ part.name.toList = ascii "SRA" := by
      rw [isRam]
      decide
    rw [if_pos isRam, if_pos isRam, if_neg noSra]
    rfl
  · rw [if_neg isRam, if_neg isRam]
    by_cases isSra : part.name.toList = ascii "SRA"
    · rw [if_pos isSra, if_pos isSra]
      rfl
    · rw [if_neg isSra, if_neg isSra]
      rfl

-----------------------------------------------------------------------------------------
-- All sections
-----------------------------------------------------------------------------------------

/-- The loop from a section on, by induction on the sections: its position is exact behind each of
them.
-/
theorem loadSections_sections {fd : Stdio.Stream} {sections : List SavestateSection}
    (here : fd.rest = sections.flatMap SavestateSection.bytes) (memories : Memories)
    : loadSections fd memories = (visitsFrom fd.position sections, memories.behind sections) := by
  induction sections generalizing fd memories with
  | nil =>
      rw [loadSections_end (nextSection_end here)]
      rfl
  | cons part rest ih =>
      rw [List.flatMap_cons] at here
      obtain ⟨next, payload⟩ := nextSection_section here
      have behind := ih (Stream.rest_moved payload) (memories.behind [part])
      rw [loadSections_next next (loadSection_section payload memories), behind, visitsFrom,
        part.bytes_length, ← Memories.behind_append, List.singleton_append]
      simp only [Nat.add_assoc]

/-- Behind the fourteen bytes of its start the file holds its sections. -/
theorem savestateFile_rest (start : Vector UInt8 14) (sections : List SavestateSection)
    : (Stream.fseekSet 14 ⟨savestateFile start sections, 0⟩).rest
      = sections.flatMap SavestateSection.bytes :=
  List.drop_left' start.length_toList

/-- Whatever is in the file in front of the sections and in their payloads: each section is met
once, in the order of the file, and the memories are those of the last sections of their names.
-/
theorem savestate_walk (start : Vector UInt8 14) (sections : List SavestateSection)
    (memories : Memories)
    : snes9x152SavestateGetRamWram (some (savestateFile start sections)) memories
      = some (visitsFrom 14 sections, memories.behind sections) := by
  rw [snes9x152SavestateGetRamWram, Option.map_some,
    loadSections_sections (savestateFile_rest start sections)]
  rfl

end NetworkAccess
