import NetworkAccess.Parser.GivenLines

/-! The outer loop of `preprocess_data` returns unless a read leaves the defined part of the program
or meets an empty block that nothing can finish; `Config.work` is the measure of its iterations.
-/

namespace NetworkAccess

variable {Emulator : Type}

/-- The loop entered with `config` ends after finitely many iterations, each of which decreases the
measure, and then `preprocess_data` returns, `true` or `false`.
-/
structure Config.Terminates (host : Host Emulator) (config : Config Emulator) : Prop where
  returns
    : ∃ turn,
        config.Ends host turn
        ∧ ∀ stopped, turn.result = .error stopped → stopped.ending = .rejected
  decreases
    : ∀ before after,
        config.Reaches host before
        → Reaction.Iterates (iteration host) Config.running before after
        → after.work < before.work

/-- The loop terminates exactly if what `preprocess_data` computes is a return. Witness: without a
stuck empty block every iteration decreases the measure.
-/
theorem Config.terminates_iff (host : Host Emulator) {config : Config Emulator}
    (wellFormed : config.client.WellFormed)
    : config.Terminates host
      ↔ ∀ stopped,
          (preprocessData host config).result = .error stopped → stopped.ending = .rejected := by
  constructor
  · rintro ⟨⟨turn, ends, returns⟩, -⟩
    rw [preprocessData_of_ends wellFormed ends]
    exact returns
  · intro returns
    rcases preprocessData_decides host wellFormed with ends | ⟨stuck, -, -, spins⟩
    · refine ⟨⟨_, ends, returns⟩, fun before after reaches iterates => ?_⟩
      obtain ⟨more, goes⟩ := iterates
      rcases (iteration host before).cases_eq with ⟨events, next, run⟩ | ⟨events, reason, run⟩
      · rw [run] at goes
        cases goes
        rcases (iteration_kept host (reaches.kept wellFormed).1 more run).progress with
          less | ⟨-, -, spins⟩
        · exact less
        · exact absurd spins (ends.not_spins wellFormed reaches)
      · rw [run] at goes
        cases goes
    · cases returns _ spins

/-- For each of the reads that a run comes to, `preprocess_data` terminates exactly if the run is
not ended but by a refusal.
-/
theorem terminates_each_iff {host : Host Emulator} {start : Client × Emulator}
    {reads : List ClientRead} (wellFormed : start.1.WellFormed)
    : (∀ state read,
        Arrives host start reads state read
        → (Config.enter state.1 state.2 read).Terminates host)
      ↔ ∀ stopped,
          (feedReads host start reads).result = .error stopped → stopped.ending = .rejected := by
  constructor
  · intro each stopped stops
    obtain ⟨state, read, arrives, ended⟩ := arrives_of_stops stops
    have formed := Config.wellFormed_enter (arrives.kept wellFormed) state.2 read
    exact (Config.terminates_iff host formed).mp (each state read arrives) stopped
      (feedRead_error.mp ended)
  · intro returns state read arrives
    have formed := Config.wellFormed_enter (arrives.kept wellFormed) state.2 read
    refine (Config.terminates_iff host formed).mpr (fun stopped stops => ?_)
    exact returns stopped (arrives.stops (feedRead_error.mpr stops))

/-- In every run of a connection, `preprocess_data` ends and returns for each of the reads that the
run comes to if and only if no read is at a surplus, every command line that the reader is given
fits the command buffer and the argument vector, and no byte follows a block that nothing can
finish.
-/
theorem preprocessData_terminates_iff (host : Host Emulator) (slot : Client) (fd : SOCKET)
    (emulator : Emulator) (reads : List ClientRead)
    : (∀ state read,
        Arrives host (slot.add fd, emulator) reads state read
        → (Config.enter state.1 state.2 read).Terminates host)
      ↔ Reaction.CalmAlong (feedRead host) Calm (slot.add fd, emulator) reads
        ∧ Parser.Orderly host (readerOf (slot.add fd, emulator))
            (reads.flatMap ClientRead.bytes) := by
  have wellFormed := slot.wellFormed_add fd
  have idle : (readerOf (slot.add fd, emulator)).1.phase = .idle := rfl
  rw [terminates_each_iff wellFormed, ← Parser.readBytes_orderly_iff host idle]
  constructor
  · intro returns
    have surplus := @calmAlong_or_overflows _ host (slot.add fd, emulator) reads wellFormed
    rcases surplus with calm | ⟨final, overflows⟩
    · refine ⟨calm, fun reason stops => ?_⟩
      obtain ⟨final, stopped⟩ :=
        (feedReads_stops_iff wellFormed calm reason.1).mpr ⟨reason.2, stops⟩
      exact returns _ stopped
    · cases returns _ overflows
  · rintro ⟨calm, returns⟩ stopped stops
    obtain ⟨last, reads⟩ :=
      (feedReads_stops_iff wellFormed calm stopped.ending).mp ⟨stopped.config, stops⟩
    exact returns _ reads

/-- An unknown binary command, the header of an empty block and one more byte. -/
def stallingRead : ClientRead := ⟨ascii "bX\n" ++ [0, 0, 0, 0, 0, 97], by decide, by decide⟩

/-- This read keeps the loop from ever ending. -/
theorem preprocessData_never_ends
    : ¬ (Config.enter (Client.zero.add 4) () stallingRead).Terminates (Host.fixed []) := by
  have formed := Config.wellFormed_enter (Client.zero.wellFormed_add 4) () stallingRead
  rw [Config.terminates_iff _ formed]
  intro returns
  obtain ⟨final, spins⟩ := stopped_of_observed
    (by decide
      : (observed (preprocessData (Host.fixed []) (Config.enter (Client.zero.add 4) ()
            stallingRead))).2
          = some .spinning)
  cases returns _ spins

end NetworkAccess
