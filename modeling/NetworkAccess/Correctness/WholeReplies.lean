import NetworkAccess.Correctness.SharedDestination
import NetworkAccess.Dummy.Answers

/-! The stream that a client of the dummy reads. Whatever other clients do, it is one whole reply
after another, and each of them was sent for an event of this client.
-/

namespace NetworkAccess

/-- The bytes of a socket fall into the answers to its events, and into replies in no other way. -/
structure RepliedWhole (socket : SOCKET) (start : Dummy) (trace : List Event) : Prop where
  sent
    : (Dummy.host.replay start trace).textTo socket
      = (answered socket start trace).flatMap Prod.snd
  whole : ∀ pair ∈ answered socket start trace, pair.1.AnsweredWith pair.2
  only
    : ∀ replies : List Bytes,
        (∀ reply ∈ replies, CompleteReply reply)
        → replies.flatten = (Dummy.host.replay start trace).textTo socket
        → replies = ((answered socket start trace).map Prod.snd).filter (· ≠ [])

/-- An answer is one reply or nothing. -/
theorem Event.AnsweredWith.complete {event : Event} {text : Bytes}
    (answered : event.AnsweredWith text) (some_ : text ≠ [])
    : CompleteReply text := by
  unfold Event.AnsweredWith at answered
  split at answered
  case h_1 =>
    split at answered
    case isTrue => exact answered
    case isFalse => exact absurd answered some_
  case h_2 => exact answered
  case h_3 => exact answered.resolve_left some_
  case h_4 => exact absurd answered some_

/-- By the answers to the single events, as complete replies have one reading only. -/
theorem RepliedWhole.of_answered {socket : SOCKET} {start : Dummy} {trace : List Event}
    (sent
      : (Dummy.host.replay start trace).textTo socket
        = (answered socket start trace).flatMap Prod.snd)
    (whole : ∀ pair ∈ answered socket start trace, pair.1.AnsweredWith pair.2)
    : RepliedWhole socket start trace where
  sent
  whole
  only := by
    intro replies complete same
    refine completeReply_prefixFree.flatten_inj complete (fun reply member => ?_) ?_
    · obtain ⟨inside, some_⟩ := List.mem_filter.mp member
      obtain ⟨pair, here, rfl⟩ := List.mem_map.mp inside
      exact (whole pair here).complete (by simpa using some_)
    · rw [same, sent, List.flatMap_def, List.flatten_filter_ne_nil]

-----------------------------------------------------------------------------------------
-- Reasons
-----------------------------------------------------------------------------------------

section Reasons

variable {Emulator : Type}

/-- The error replies that dispatching a command causes have plain reasons. -/
theorem resolve_plainReasons (host : Host Emulator) (cmd : Bytes) (socket : SOCKET)
    (args : List Bytes) (emulator : Emulator)
    : ∀ event ∈ ((resolve host cmd).serve host socket args emulator).events,
        event.PlainReason := by
  cases resolve host cmd with
  | unknown =>
      have plain : newline ∉ ascii "Invalid command" := by decide
      exact List.forall_mem_singleton.mpr plain
  | unimplemented =>
      have plain : newline ∉ ascii "Invalid command or not implemented" := by decide
      exact List.forall_mem_singleton.mpr plain
  | generic | custom => exact List.forall_mem_singleton.mpr trivial

/-- The server gives no reason with a newline. -/
def plainReasons (host : Host Emulator) : LoopInvariant host where
  shared := fun trace _ => ∀ event ∈ trace, event.PlainReason
  own := fun _ _ => True
  step := by
    intro trace config formed more plain _
    have cases := iteration_cases host formed more
    generalize iteration host config = turn at cases
    have filled {client : Client} {data : Bytes} {events : List Event}
        (filling : config.Filling client data events)
        : ∀ event ∈ events, event.PlainReason :=
      filling.forall_events (fun _ _ => trivial)
    have add {events : List Event} (here : ∀ event ∈ events, event.PlainReason)
        : ∀ event ∈ trace ++ events, event.PlainReason :=
      List.forall_mem_append.mpr ⟨plain, here⟩
    have refused (config : Config Emulator) {reason : Bytes} (open_ : newline ∉ reason)
        : ∀ event ∈ (refuse host config reason).emitted, event.PlainReason :=
      List.forall_mem_singleton.mpr open_
    cases cases with
    | refuseCommand => exact add (refused _ (by decide))
    | refuseBlock => exact add (refused _ (by decide))
    | refuseSize =>
        exact add (List.forall_mem_cons.mpr ⟨trivial, refused _ (by decide)⟩)
    | longLine | faultyLine => exact add (List.forall_mem_nil _)
    | openLine | openHeader => exact ⟨add (List.forall_mem_nil _), trivial⟩
    | @servedLine _ _ _ cmd args _ _ _ _ _ _ _ serves =>
        subst serves
        have served := resolve_plainReasons host cmd config.client.socketFd args config.emulator
        exact ⟨add (List.forall_mem_cons.mpr ⟨trivial, served⟩), trivial⟩
    | noData filling | partBlock filling | stuckBlock filling =>
        exact ⟨add (filled filling), trivial⟩
    | overflow filling => exact add (filled filling)
    | swallowBlock filling =>
        exact ⟨add (List.forall_mem_append.mpr ⟨filled filling, by simp [Event.PlainReason]⟩),
          trivial⟩
    | writeBlock filling =>
        exact ⟨add (List.forall_mem_append.mpr ⟨filled filling, by simp [Event.PlainReason]⟩),
          trivial⟩
  comeAndGo := by
    intro trace _ events plain come
    refine List.forall_mem_append.mpr ⟨plain, fun event member => ?_⟩
    have quiet := come event member
    cases event with
    | errorReply => cases quiet
    | _ => trivial
  read := fun _ _ => trivial
  apart := fun _ _ => trivial
  added := fun _ _ _ => trivial

end Reasons

-----------------------------------------------------------------------------------------
-- Whole runs
-----------------------------------------------------------------------------------------

/-- The path of the ROM has no newline. In every run of the dummy, after every event before which it
has not left its defined behaviour, the bytes that were sent on a socket are whole replies, one for
each event of this socket that has an answer, in the order of these events. They are not replies in
any other way.
-/
theorem replies_whole (serverSocket : SOCKET) (clients : Clients) (romPath : Bytes)
    (memory : MemoryName → Allocation) (open_ : newline ∉ romPath) (rounds : List Round)
    (fresh
      : Reaction.CalmAlong (pollRound Dummy.host .absent) Round.Fresh
          (.listening serverSocket clients (Dummy.start romPath memory)) rounds)
    : let start := Dummy.start romPath memory
      let run := genericPollServerStart Dummy.host .absent serverSocket clients start rounds
      ServerTurn.emulator run = Dummy.host.replay start run.emitted
      ∧ ∀ before,
          before <+: run.emitted
          → (Dummy.host.replay start before).undefined = false
          → ∀ socket, RepliedWhole socket start before := by
  intro start run
  refine ⟨genericPollServerStart_replay Dummy.host serverSocket clients start rounds fresh, ?_⟩
  have plain : ∀ event ∈ run.emitted, event.PlainReason :=
    (plainReasons Dummy.host).shared_run (List.forall_mem_nil _) fresh
  intro before front defined socket
  have plainBefore : ∀ event ∈ before, event.PlainReason := fun event member =>
    plain event (front.subset member)
  obtain ⟨sent, whole⟩ := start.replay_answered socket open_ plainBefore defined
  exact .of_answered sent whole

/-- While one client stops the emulation, the other one reads a memory and asks for the state. -/
def askingInTurn : List Round :=
  twoClients [
    (none, some ⟨ascii "CORE_READ WRAM;0;2\nEMULATION_", by decide, by decide⟩),
    (some ⟨ascii "EMULATION_STOP\n", by decide, by decide⟩, none),
    (none, some ⟨ascii "STATUS\n", by decide, by decide⟩)
  ]

/-- Witness: the second client is sent two replies. -/
theorem replies_whole_inTurn
    : let run :=
        genericPollServerStart Dummy.host .absent 3 (Vector.replicate 5 Client.zero) smallDummy
          askingInTurn
      RepliedWhole 5 smallDummy run.emitted
      ∧ ((answered 5 smallDummy run.emitted).map Prod.snd).filter (· ≠ [])
        = [[0, 0, 0, 0, 2, 0, 0], ascii "\nstate:stopped\ngame:Dummy game\n\n"] := by
  intro run
  have whole := replies_whole 3 (Vector.replicate 5 Client.zero) (ascii "game.sfc")
    (fun _ => ⟨List.replicate 8 0, by decide⟩) (by decide) askingInTurn (by decide +kernel)
  exact ⟨whole.2 run.emitted List.prefix_rfl (by decide +kernel) 5, by decide +kernel⟩

end NetworkAccess
