import NetworkAccess.Connections.LoopInvariant

/-! What the events of a run do to the emulator: the calls that they record, made again in their
order, lead to the emulator that the run leaves.
-/

namespace NetworkAccess

variable {Emulator : Type}

/-- The call that an event records. -/
def Host.call (host : Host Emulator) (emulator : Emulator) : Event → Emulator
  | .handled socket (.generic command) args _ =>
      match host.genericMap.find? (fun entry => entry.command = command) with
      | some entry => (entry.function socket args emulator).2
      | none => emulator
  | .handled socket (.custom index) args _ =>
      match host.customMap[index]? with
      | some entry => (entry.function socket args emulator).2
      | none => emulator
  | .errorReply socket errorType reason =>
      host.write socket (errorReplyText errorType reason) emulator
  | .blockWritten socket data => (host.writeFunction socket data emulator).2
  | _ => emulator

/-- The emulator behind the calls that a trace records. -/
def Host.replay (host : Host Emulator) (emulator : Emulator) (trace : List Event) : Emulator :=
  trace.foldl host.call emulator

/-- A trace is replayed part by part. -/
theorem Host.replay_append (host : Host Emulator) (emulator : Emulator) (trace more : List Event)
    : host.replay emulator (trace ++ more) = host.replay (host.replay emulator trace) more :=
  List.foldl_append

/-- One more event is one more call. -/
theorem Host.replay_concat (host : Host Emulator) (emulator : Emulator) (trace : List Event)
    (event : Event)
    : host.replay emulator (trace ++ [event]) = host.call (host.replay emulator trace) event :=
  host.replay_append emulator trace [event]

/-- The call of a builtin command is that of its entry, or nothing if it has none. -/
theorem Host.call_generic (host : Host Emulator) (emulator : Emulator) (socket : SOCKET)
    (command : EmulatorCommand) (args : List Bytes) (result : Int)
    : let after := host.call emulator (.handled socket (.generic command) args result)
      (∀ entry ∈ host.genericMap, entry.command ≠ command) ∧ after = emulator
      ∨ ∃ entry ∈ host.genericMap,
          entry.command = command ∧ after = (entry.function socket args emulator).2 := by
  intro after
  cases found : host.genericMap.find? (fun entry => entry.command = command) with
  | none =>
      refine Or.inl ⟨by simpa using List.find?_eq_none.mp found, ?_⟩
      simp only [after, call, found]
  | some entry =>
      have same : entry.command = command := by simpa using List.find?_some found
      refine Or.inr ⟨entry, List.mem_of_find?_eq_some found, same, ?_⟩
      simp only [after, call, found]

/-- The events of a command replay what it did. -/
theorem resolve_replay (host : Host Emulator) (cmd : Bytes) (socket : SOCKET) (args : List Bytes)
    (emulator : Emulator)
    : let served := (resolve host cmd).serve host socket args emulator
      host.replay emulator served.events = served.emulator := by
  simp only [resolve]
  cases custom : lookupCustom host.customMap 0 cmd with
  | some found =>
      obtain ⟨front, rest, split, index, -⟩ := lookupCustom_split custom
      have here : host.customMap[found.1]? = some found.2 := by
        rw [split, index, Nat.zero_add, List.getElem?_append_right (Nat.le_refl _), Nat.sub_self,
          List.getElem?_cons_zero]
      simp only [Resolution.serve, Host.replay, List.foldl_cons, List.foldl_nil, Host.call, here]
  | none =>
      cases lookupCommand cmd with
      | none => rfl
      | some command =>
          dsimp only
          cases entry : host.genericMap.find? (fun entry => entry.command = command) with
          | none => rfl
          | some found =>
              simp only [Resolution.serve, Host.replay, List.foldl_cons, List.foldl_nil,
                Host.call, entry]

/-- Events that call nothing. -/
theorem Host.replay_silent (host : Host Emulator) (emulator : Emulator) {events : List Event}
    (silent : ∀ event ∈ events, ∀ emulator, host.call emulator event = emulator)
    : host.replay emulator events = emulator := by
  induction events with
  | nil => rfl
  | cons event rest ih =>
      obtain ⟨here, later⟩ := List.forall_mem_cons.mp silent
      rw [Host.replay, List.foldl_cons, here]
      exact ih later

/-- An iteration replays, by the cases of an iteration. -/
theorem iteration_replay (host : Host Emulator) {config : Config Emulator}
    (wellFormed : config.client.WellFormed) (more : config.unread ≠ [])
    : (iteration host config).Ensures
        (fun trace next => next.emulator = host.replay config.emulator trace)
        (fun trace stopped => stopped.config.emulator = host.replay config.emulator trace) [] := by
  have cases := iteration_cases host wellFormed more
  generalize iteration host config = turn at cases
  have filled {client : Client} {data : Bytes} {events : List Event}
      (filling : config.Filling client data events)
      : host.replay config.emulator events = config.emulator := by
    cases filling <;> rfl
  cases cases with
  | refuseCommand | refuseBlock | refuseSize => rfl
  | openLine | openHeader => rfl
  | longLine _ _ _ _ emulator | faultyLine _ _ _ _ _ emulator => exact emulator
  | @servedLine line rest data cmd args served atLine split open_ fits stored tokens serves =>
      subst serves
      exact (resolve_replay host cmd config.client.socketFd args config.emulator).symm
  | noData filling | partBlock filling | stuckBlock filling | overflow filling =>
      exact (filled filling).symm
  | swallowBlock filling | writeBlock filling =>
      rw [Reaction.Ensures.emit_iff, List.nil_append, Host.replay_append, filled filling]
      rfl

/-- The emulator is what the events so far make of the first one. -/
def replayInvariant (host : Host Emulator) (start : Emulator) : LoopInvariant host where
  shared := fun trace emulator => emulator = host.replay start trace
  own := fun _ _ => True
  step := by
    intro trace config formed more shared _
    have replays := iteration_replay host formed more
    rcases (iteration host config).cases_eq with ⟨events, next, run⟩ | ⟨events, stopped, run⟩
    · rw [run] at replays ⊢
      refine ⟨?_, trivial⟩
      rw [Host.replay_append, ← shared]
      exact replays
    · rw [run] at replays ⊢
      rw [Reaction.Ensures.stop_iff, Host.replay_append, ← shared]
      exact replays
  comeAndGo := by
    intro trace emulator events shared silent
    rw [Host.replay_append, ← shared]
    refine (host.replay_silent emulator (fun event member emulator => ?_)).symm
    have quiet := silent event member
    cases event with
    | blockReleased | accepted | closed => rfl
    | _ => cases quiet
  read := fun _ _ => trivial
  apart := fun _ _ => trivial
  added := fun _ _ _ => trivial

/-- A run leaves the emulator that its events make of the first one. -/
theorem genericPollServerStart_replay (host : Host Emulator) (serverSocket : SOCKET)
    (clients : Clients) (emulator : Emulator) (rounds : List Round)
    (fresh
      : Reaction.CalmAlong (pollRound host .absent) Round.Fresh
          (.listening serverSocket clients emulator) rounds)
    : let run := genericPollServerStart host .absent serverSocket clients emulator rounds
      ServerTurn.emulator run = host.replay emulator run.emitted :=
  (replayInvariant host emulator).shared_run rfl fresh

end NetworkAccess
