import NetworkAccess.Parser.Lockstep
import NetworkAccess.Validator.Reading

/-! What a slot keeps of earlier connections: only `current_command` can show, and only
through the block of an unknown command.
-/

namespace NetworkAccess

variable {Emulator : Type}

/-- The last command that a slot served was `bCORE_WRITE`. -/
def Client.keepsWrite (slot : Client) : Prop :=
  slot.currentCommand = EmulatorCommand.bCoreWrite.value

instance (slot : Client) : Decidable slot.keepsWrite := inferInstanceAs (Decidable (_ = _))

/-- The shortest unknown binary command, and a block of one byte behind it. -/
def inheritedBlock : ClientRead := {
  bytes := ascii "b\n" ++ sendData [7]
  nonempty := by decide
  fits := by decide
}

/-- A new connection that sends this block has it written exactly if the slot was last used
for `bCORE_WRITE`.
-/
theorem inheritedBlock_written_iff {host : Host Emulator} (misses : ¬ host.CatchesBinary)
    (slot : Client) (fd : SOCKET) (emulator : Emulator)
    : .blockWritten fd [7]
        ∈ (observed (feedReads host (slot.add fd, emulator) [inheritedBlock])).1
      ↔ slot.keepsWrite := by
  have unknown : resolve host (ascii "b") = .unknown := by
    refine (resolve_unknown_iff host _).mpr ⟨lookupCustom_none.mpr ?_, by decide⟩
    exact fun entry member isPrefix => misses ⟨entry, member, isPrefix⟩
  have tokens : tokenize (ascii "b\n") = .ok (ascii "b", []) := by decide
  have calm
      : Reaction.CalmAlong (feedRead host) Calm (slot.add fd, emulator) [inheritedBlock] :=
    ⟨calm_of_phase _ (by nofun), fun _ _ => trivial⟩
  have announces : BinaryLine (ascii "b\n") := ⟨rfl, ascii "b", rfl, by decide⟩
  have bytes : inheritedBlock.bytes = ascii "b\n" ++ sendData [7] := rfl
  rw [observed_of_calm (slot.wellFormed_add fd) calm, List.flatMap_singleton, bytes, readerOf,
    Parser.readBytes_binaryLine host (slot.add fd).parser emulator rfl announces (by decide)
      tokens, unknown,
    Parser.readBytes_sendData host _ _ rfl (by decide) (by decide) (Or.inr rfl)]
  have stays : (Resolution.unknown : Resolution Emulator).writes (slot.add fd).parser.writes
      = decide slot.keepsWrite := rfl
  have keep : decide ((Resolution.serve host (slot.add fd).parser.socket [] emulator .unknown).size
      < 0) = false := rfl
  rw [keep, stays, Parser.finish, if_neg Bool.false_ne_true]
  by_cases keeps : slot.keepsWrite
  · rw [decide_eq_true keeps, if_pos rfl]
    exact iff_of_true (by simp [Parser.observed, Event.observable, Client.parser, Client.add]) keeps
  · rw [decide_eq_false keeps, if_neg Bool.false_ne_true]
    exact iff_of_false (by simp [Parser.observed, Resolution.serve]) keeps

/-- What a connection shows depends on what its slot holds of earlier connections, unless
both slots or neither were last used for `bCORE_WRITE`, or the host catches all binary
commands.
-/
theorem slotReuse_clean_iff (host : Host Emulator) (left right : Client) (fd : SOCKET)
    (emulator : Emulator)
    : (∀ reads,
        observed (feedReads host (left.add fd, emulator) reads)
        = observed (feedReads host (right.add fd, emulator) reads))
      ↔ (left.keepsWrite ↔ right.keepsWrite) ∨ host.CatchesBinary := by
  constructor
  · intro same
    by_cases catches : host.CatchesBinary
    · exact Or.inr catches
    · rw [← inheritedBlock_written_iff catches left fd emulator, same,
        inheritedBlock_written_iff catches right fd emulator]
      exact Or.inl Iff.rfl
  · rintro (agree | catches) reads
    · have alike : SlotsAlike False Eq (left.add fd, emulator) (right.add fd, emulator) := {
        formed := left.wellFormed_add fd
        otherFormed := right.wellFormed_add fd
        inStep := ⟨⟨rfl, rfl, Or.inl (decide_eq_decide.mpr agree)⟩, rfl⟩
      }
      exact feedReads_observed host.respects_eq False.elim alike reads
    · have alike : SlotsAlike True Eq (left.add fd, emulator) (right.add fd, emulator) := {
        formed := left.wellFormed_add fd
        otherFormed := right.wellFormed_add fd
        inStep := ⟨⟨rfl, rfl, Or.inr ⟨trivial, Or.inl rfl⟩⟩, rfl⟩
      }
      exact feedReads_observed host.respects_eq (fun _ => catches) alike reads

/-- The slot after a connection that ended behind a `bCORE_WRITE` and its block. -/
def usedSlot : Client :=
  match (feedReads (Host.fixed [(.bCoreWrite, 1)]) (Client.zero.add 4, ())
      [⟨ascii "bCORE_WRITE RAM\n" ++ sendData [7], by decide, by decide⟩]).result with
  | .ok state => state.1.remove
  | .error stopped => stopped.config.client.remove

/-- The block of an unknown command is written if the slot was used before. -/
theorem usedSlot_shows
    : observed (feedReads (Host.fixed [(.bCoreWrite, 1)]) (usedSlot.add 5, ())
          [inheritedBlock])
      ≠ observed (feedReads (Host.fixed [(.bCoreWrite, 1)]) (Client.zero.add 5, ())
          [inheritedBlock]) := by
  decide

end NetworkAccess
