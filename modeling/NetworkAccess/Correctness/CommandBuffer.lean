import NetworkAccess.Parser.GivenLines

/-! No check bounds the index into `command_data`, so a run stays inside the buffer exactly
if every line that it is given is short enough.
-/

namespace NetworkAccess

variable {Emulator : Type}

/-- A run never stores behind `command_data` exactly if every command line that the reader is given
fits, where a run gives the reader the bytes of its reads up to the first surplus.
-/
theorem commandBuffer_bounded_iff (host : Host Emulator) (slot : Client) (fd : SOCKET)
    (emulator : Emulator) (reads : List ClientRead)
    : (∀ final,
        (feedReads host (slot.add fd, emulator) reads).result
          ≠ .error ⟨.undefined .commandOverflow, final⟩)
      ↔ ∀ taken line,
          taken <+: reads
          → Reaction.CalmAlong (feedRead host) Calm (slot.add fd, emulator) taken
          → Parser.GivenLine host (readerOf (slot.add fd, emulator))
              (taken.flatMap ClientRead.bytes) line
          → line.length ≤ 2048 := by
  have wellFormed := slot.wellFormed_add fd
  have idle : (readerOf (slot.add fd, emulator)).1.phase = .idle := rfl
  constructor
  · rintro bounded taken line ⟨rest, rfl⟩ calm given
    by_contra long
    have reads := (Parser.readBytes_commandOverflow_iff host idle).mpr
      ⟨line, given, Nat.not_le.mp long⟩
    obtain ⟨final, stops⟩ := (feedReads_stops_iff wellFormed calm _).mpr reads
    refine bounded final ?_
    rw [feedReads_append, Reaction.andThen, stops]
  · intro fits final stops
    have surplus := @calmAlong_or_overflows _ host (slot.add fd, emulator) reads wellFormed
    rcases surplus with calm | ⟨other, overflows⟩
    · have reads := (feedReads_stops_iff wellFormed calm _).mp ⟨final, stops⟩
      obtain ⟨line, given, long⟩ := (Parser.readBytes_commandOverflow_iff host idle).mp reads
      exact absurd (fits _ line List.prefix_rfl calm given) (Nat.not_le.mpr long)
    · cases stops.symm.trans overflows

/-- A read that consists of letters only. -/
def letters (count : Nat) (some_ : 0 < count) (fits : count ≤ 2048) : ClientRead := {
  bytes := List.replicate count 97
  nonempty := List.ne_nil_of_length_pos (by rwa [List.length_replicate])
  fits := by rwa [List.length_replicate]
}

/-- More letters than the command buffer holds lead to a store behind it. -/
theorem readBytes_letters (host : Host Emulator) (parser : Parser) (emulator : Emulator)
    (idle : parser.phase = .idle) {count : Nat} (long : 2048 < count)
    : Parser.readBytes host (parser, emulator) (List.replicate count 97)
      = .stop [] (.undefined .commandOverflow, emulator) := by
  have open_ : newline ∉ (List.replicate count (97 : UInt8)).dropLast := by
    rw [List.dropLast_replicate, List.mem_replicate]
    exact fun letter => absurd letter.2 (by decide)
  have overflow := Parser.readLine_overflow host parser emulator [] _ [] open_
    (Nat.zero_le _) (by rw [List.length_replicate, List.length_nil]; omega)
  rw [List.append_nil] at overflow
  obtain ⟨more, rfl⟩ := Nat.exists_eq_succ_of_ne_zero (by omega : count ≠ 0)
  rw [List.replicate_succ] at overflow ⊢
  rw [Parser.readBytes_idle _ _ _ idle _ _ rfl, overflow]

/-- A line of 2049 bytes in two reads leads to a store behind `command_data`. -/
theorem commandBuffer_overflows
    : ∃ final,
        (feedReads (Host.fixed []) (Client.zero.add 4, ())
          [letters 2048 (by omega) (by omega), letters 1 (by omega) (by omega)]).result
          = .error ⟨.undefined .commandOverflow, final⟩ := by
  let reads := [letters 2048 (by omega) (by omega), letters 1 (by omega) (by omega)]
  have stream : reads.flatMap ClientRead.bytes = List.replicate 2049 97 := by
    simp only [reads, letters, List.flatMap_cons, List.flatMap_nil, List.append_nil]
    exact List.replicate_append_replicate
  have wellFormed := Client.zero.wellFormed_add 4
  have overflow := readBytes_letters (Host.fixed []) (.fresh 4 false) () rfl
    (by omega : 2048 < 2049)
  have calm : Reaction.CalmAlong (feedRead (Host.fixed [])) Calm (Client.zero.add 4, ()) reads := by
    refine calmAlong_of_no_release wellFormed ?_
    rw [stream]
    exact overflow ▸ List.not_mem_nil
  refine (feedReads_stops_iff wellFormed calm _).mpr ⟨(), ?_⟩
  rw [stream]
  exact congrArg Reaction.result overflow

end NetworkAccess
