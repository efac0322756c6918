import NetworkAccess.Connections.PollSet

/-! The client table and the poll set agree at the top of every iteration of the poll loop,
and every descriptor that is served has its slot.
-/

namespace NetworkAccess

variable {Emulator : Type}

/-- `get_client` finds the slot of `fd`, which is the only one. -/
def Clients.Finds (clients : Clients) (fd : SOCKET) : Prop :=
  ∃ index : Fin 5,
    getClient clients fd = some index
    ∧ ∀ other : Fin 5, clients[other].socketFd = fd ↔ other = index

/-- When the table and the poll set agree, every descriptor of the poll set has a slot. -/
theorem Server.Agrees.finds {server : Server Emulator} (agrees : server.Agrees)
    {entry : PollFd} (member : entry ∈ server.pollFds)
    : server.clients.Finds entry.fd := by
  obtain ⟨nonzero, index, slot⟩ := agrees.slot member
  have taken : server.clients[index].socketFd ≠ 0 := slot ▸ nonzero
  refine ⟨index, slot ▸ agrees.getClient taken, fun other => ⟨fun same => ?_, ?_⟩⟩
  · exact (server.clients.unique agrees.distinct (slot.trans same.symm) taken).symm
  · rintro rfl
    exact slot

/-- In every run of the poll loop in which `accept` returns descriptors that are not in use,
at the top of every iteration the poll set holds the taken slots' descriptors, each once,
`poll_fds_count` is between 1 and 6, and registered callbacks alternate for each descriptor
and leave those open that are tracked. Every descriptor that is served has its only slot
found by `get_client`, and no run ends with a missing slot or an entry behind `poll_fds`.
-/
theorem pollLoop_agrees (host : Host Emulator) (callbacks : Callbacks Emulator)
    (serverSocket : SOCKET) (clients : Clients) (emulator : Emulator) (rounds : List Round)
    (fresh
      : Reaction.CalmAlong (pollRound host callbacks) Round.Fresh
          (.listening serverSocket clients emulator) rounds)
    : let run := genericPollServerStart host callbacks serverSocket clients emulator
      (∀ done server,
        done <+: rounds
        → (run done).result = .ok server
        → server.Agrees
          ∧ 1 ≤ server.pollFdsCount
          ∧ server.pollFdsCount ≤ 6
          ∧ (callbacks.addClient.isSome
            → callbacks.removeClient.isSome
            → Reported (run done).emitted server.clients.tracked))
      ∧ (∀ done round server begun cursor entry,
          done ++ [round] <+: rounds
          → (run done).result = .ok server
          → (beginRound callbacks round server).result = .ok begun
          → Reaction.Visits (serveClient host callbacks round) Cursor.running ⟨begun, 0⟩ cursor
          → cursor.server.pollFds[cursor.i]? = some entry
          → cursor.server.clients.Finds entry.fd)
      ∧ ∀ halted,
          (run rounds).result = .error halted
          → halted.shutdown ≠ .undefined .nullClient
            ∧ halted.shutdown ≠ .undefined .pollOverflow := by
  intro run
  have tracks {done : List Round} (front : done <+: rounds)
      : ServerTurn.Tracks callbacks [] (run done) := by
    obtain ⟨rest, rfl⟩ := front
    exact pollRounds_tracks host fresh.of_append
  refine ⟨fun done server front goes => ?_, ?_, fun halted stops => ?_⟩
  · have kept := (tracks front).ok goes
    exact ⟨kept.sound.toAgrees, Nat.succ_pos _, kept.sound.count, kept.reported⟩
  · rintro done round server begun cursor entry ⟨rest, rfl⟩ goes begins visits here
    have before := (tracks ((List.prefix_append done [round]).trans (List.prefix_append _ _))).ok
      goes
    have accepts : round.Fresh server := (fresh.of_append.of_result goes).1
    have begun := (beginRound_tracks before accepts).ok begins
    have sound := begun.sound.visits host callbacks round visits
    exact sound.toAgrees.finds (List.mem_of_getElem? here)
  · have blame := (tracks List.prefix_rfl).error stops
    constructor
    · intro missing
      rw [Halted.Blameless, missing] at blame
      exact (blame.resolve_left nofun).1 rfl
    · intro full
      rw [Halted.Blameless, full] at blame
      exact (blame.resolve_left nofun).2 rfl

/-- Two connections are accepted, and the first one sends a line and hangs up. -/
def agreementRounds : List Round :=
  let calm : SOCKET → Revents := fun _ => .none
  let readable (fd : SOCKET) : SOCKET → Revents := fun socket => ⟨socket = fd, false, false⟩
  let gone (fd : SOCKET) : SOCKET → Revents := fun socket => ⟨false, false, socket = fd⟩
  let line : ClientRead := ⟨ascii "A\n", by decide, by decide⟩
  [
    ⟨false, .ready true calm, some 4, fun _ => none⟩,
    ⟨false, .ready true (readable 4), some 5, fun _ => some line⟩,
    ⟨false, .ready false (gone 4), none, fun _ => none⟩
  ]

/-- Both descriptors are fresh when they are accepted, and only the second one stays. -/
theorem pollLoop_agrees_rounds
    : let callbacks : Callbacks Unit := ⟨some (fun _ _ => ()), some (fun _ _ => ()), none⟩
      let run :=
        genericPollServerStart (Host.fixed []) callbacks 3 (Vector.replicate 5 Client.zero) ()
          agreementRounds
      ∃ server,
        run.result = .ok server
        ∧ server.pollFds.map PollFd.fd = [5]
        ∧ server.Agrees
        ∧ Reported run.emitted server.clients.tracked := by
  intro callbacks run
  have fds : run.result.toOption.map (fun server => server.pollFds.map PollFd.fd) = some [5] := by
    decide +kernel
  cases goes : run.result with
  | error halted =>
      rw [goes] at fds
      cases fds
  | ok server =>
      have agrees := pollLoop_agrees (Host.fixed []) callbacks 3 (Vector.replicate 5 Client.zero)
        () agreementRounds (by decide +kernel)
      have here := agrees.1 agreementRounds server List.prefix_rfl goes
      rw [goes] at fds
      exact ⟨server, rfl, Option.some.inj fds, here.1, here.2.2.2 rfl rfl⟩

end NetworkAccess
