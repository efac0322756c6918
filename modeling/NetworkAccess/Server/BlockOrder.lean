import NetworkAccess.Server.Client

/-! What the events before each written block are like.
-/

namespace NetworkAccess

/-- The client whose block is written. -/
def Event.written : Event → Option SOCKET
  | .blockWritten socket _ => some socket
  | _ => none

/-- A block is written where `allowed` says so of its client and the events before it. -/
def BlocksFollow (allowed : SOCKET → List Event → Prop) (trace : List Event) : Prop :=
  ∀ before socket data after,
    trace = before ++ .blockWritten socket data :: after → allowed socket before

namespace BlocksFollow

variable {allowed : SOCKET → List Event → Prop} {trace : List Event}

/-- Before any event nothing was written too early. -/
theorem nil : BlocksFollow allowed [] := by
  intro before socket data after split
  cases before <;> cases split

/-- One more event follows what allows it if it is no write, or an allowed one. -/
theorem concat_iff {event : Event}
    : BlocksFollow allowed (trace ++ [event])
      ↔ BlocksFollow allowed trace
        ∧ ∀ socket data, event = .blockWritten socket data → allowed socket trace := by
  constructor
  · intro follow
    refine ⟨fun before socket data after split => ?_, fun socket data same => ?_⟩
    · exact follow before socket data (after ++ [event]) (by rw [split]; simp)
    · exact follow trace socket data [] (by rw [same])
  · rintro ⟨earlier, last⟩ before socket data after split
    rcases List.eq_nil_or_concat after with rfl | ⟨front, final, rfl⟩
    · obtain ⟨rfl, same⟩ := List.append_inj' split rfl
      cases same
      exact last socket data rfl
    · rw [List.concat_eq_append, ← List.cons_append, ← List.append_assoc] at split
      exact earlier before socket data front (List.append_inj' split rfl).1

/-- Events without a block need nothing. -/
theorem append {events : List Event} (follow : BlocksFollow allowed trace)
    (quiet : ∀ event ∈ events, event.isWrite = false)
    : BlocksFollow allowed (trace ++ events) := by
  induction events generalizing trace with
  | nil => rwa [List.append_nil]
  | cons event rest ih =>
      obtain ⟨here, later⟩ := List.forall_mem_cons.mp quiet
      rw [← List.singleton_append, ← List.append_assoc]
      refine ih (concat_iff.mpr ⟨follow, ?_⟩) later
      rintro socket data rfl
      cases here

/-- What holds of a trace holds of its beginnings. -/
theorem of_append {more : List Event} (follow : BlocksFollow allowed (trace ++ more))
    : BlocksFollow allowed trace := by
  intro before socket data after split
  exact follow before socket data (after ++ more) (by rw [split]; simp)

/-- The blocks of `rest` behind the events `done`, checked one event after the other. -/
def check (allowed : SOCKET → List Event → Prop) [∀ socket, DecidablePred (allowed socket)]
    : List Event → List Event → Bool
  | _, [] => true
  | done, event :: rest =>
      decide (∀ socket ∈ event.written, allowed socket done)
      && check allowed (done ++ [event]) rest

/-- The check decides it for the events behind a trace, by induction on them. -/
theorem check_sound [∀ socket, DecidablePred (allowed socket)] {done rest : List Event}
    (checked : check allowed done rest) (follow : BlocksFollow allowed done)
    : BlocksFollow allowed (done ++ rest) := by
  induction rest generalizing done with
  | nil => rwa [List.append_nil]
  | cons event rest ih =>
      rw [check, Bool.and_eq_true] at checked
      rw [← List.singleton_append, ← List.append_assoc]
      refine ih checked.2 (concat_iff.mpr ⟨follow, ?_⟩)
      rintro socket data rfl
      exact of_decide_eq_true checked.1 socket rfl

end BlocksFollow

end NetworkAccess
