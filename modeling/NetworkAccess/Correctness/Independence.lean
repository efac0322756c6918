import NetworkAccess.Connections.Isolation

/-! Concurrent connections do not influence each other: what the poll loop does for one of them
is what it does for that connection alone.
-/

namespace NetworkAccess

variable {Emulator : Type}

/-- A server with a single connection, whose client is in the first slot. -/
def Server.alone (serverSocket : SOCKET) (entry : PollFd) (client : Client) (emulator : Emulator)
    : Server Emulator := {
  serverSocket
  clients := Clients.set (Vector.replicate 5 Client.zero) 0 client
  pollFds := [entry]
  emulator
}

/-- A server with the one connection of a well-formed slot is sound. -/
theorem Server.sound_alone (serverSocket : SOCKET) {entry : PollFd} {client : Client}
    (named : client.socketFd = entry.fd) (nonzero : entry.fd ≠ 0) (formed : client.WellFormed)
    (emulator : Emulator)
    : (Server.alone serverSocket entry client emulator).Sound := by
  have empty : Clients.tracked (Vector.replicate 5 Client.zero) = [] := by decide +kernel
  have single
      : Clients.tracked (Clients.set (Vector.replicate 5 Client.zero) 0 client) = [entry.fd] := by
    have taken := Clients.tracked_set_taken
      (show (Vector.replicate 5 Client.zero)[(0 : Fin 5)].socketFd = 0 from rfl)
      (named ▸ nonzero : client.socketFd ≠ 0)
    rw [empty, named] at taken
    exact List.perm_singleton.mp taken
  refine ⟨⟨?_, ?_⟩, ?_⟩
  case refine_1 => exact single ▸ .rfl
  case refine_2 => exact single ▸ List.nodup_singleton _
  case refine_3 =>
    intro index taken
    by_cases first : index = 0
    · subst first
      exact formed
    · have free := Clients.free_of_untracked empty index
      rw [← Clients.set_other _ (Ne.symm first) client] at free
      exact absurd free taken

/-- With handlers that answer by their arguments only, each connection of a run, from any time
on, shows what it shows when it is the only client: the same rounds go over a server with its
slot and its entry alone, to which nobody connects. The run returns or goes on, so no
connection of it leaves the defined behaviour, and the descriptor is not used again.
-/
theorem connections_independent (host : Host Emulator) (callbacks : Callbacks Emulator)
    (serverSocket : SOCKET) (clients : Clients) (emulator : Emulator) (before after : List Round)
    (server : Server Emulator) (entry : PollFd) (index : Fin 5) (other : Emulator)
    (steady : host.Steady)
    (fresh
      : Reaction.CalmAlong (pollRound host callbacks) Round.Fresh
          (.listening serverSocket clients emulator) (before ++ after))
    (reached
      : (genericPollServerStart host callbacks serverSocket clients emulator before).result
        = .ok server)
    (polled : entry ∈ server.pollFds) (slot : server.clients[index].socketFd = entry.fd)
    (unused : ∀ round ∈ after, round.accepted ≠ some entry.fd)
    (defined
      : ∀ halted,
          (pollRounds host callbacks server after).result = .error halted
          → ∃ value, halted.shutdown = .returned value)
    : (pollRounds host callbacks server after).emitted.filter (Event.shows entry.fd)
      = (pollRounds host callbacks
          (.alone server.serverSocket entry server.clients[index] other)
          (after.map Round.alone)).emitted.filter (Event.shows entry.fd) := by
  have sound := ((pollRounds_tracks host fresh.of_append).ok reached).sound
  have nonzero := (sound.slot polled).1
  have formed := sound.formed index (slot ▸ nonzero)
  have mirrors
      : Mirrors entry.fd server
          (.alone server.serverSocket entry server.clients[index] other) := {
    sound
    otherSound := Server.sound_alone _ slot nonzero formed other
    socket := rfl
    facing :=
      .here entry rfl polled rfl index 0 slot slot
        ⟨formed, formed, ⟨rfl, rfl, Or.inl rfl⟩, trivial⟩
  }
  have shows_
      : ServerTurn.Shows entry.fd (pollRounds host callbacks server after)
          (pollRounds host callbacks
            (.alone server.serverSocket entry server.clients[index] other)
            (after.map Round.alone)) := by
    refine .foldlM (fun server other round mirrors calm => ?_) mirrors
      ((fresh.of_result reached).and unused)
    exact pollRound_shows steady callbacks mirrors calm.1 calm.2
  refine shows_.same (fun last stops blame => ?_)
  obtain ⟨value, returned⟩ := defined last stops
  rw [returned] at blame
  exact blame

/-- A host of fixed answers is steady. -/
theorem Host.steady_fixed (results : List (EmulatorCommand × Int))
    : (Host.fixed results).Steady where
  generic := by
    intro entry member socket args left right _
    exact ⟨rfl, trivial⟩
  custom := nofun
  writeFunction := fun _ _ _ _ _ => trivial
  write := fun _ _ _ _ _ => trivial

/-- Two connections are accepted. -/
def openingRounds : List Round :=
  let calm : SOCKET → Revents := fun _ => .none
  [
    ⟨false, .ready true calm, some 4, fun _ => none⟩,
    ⟨false, .ready true calm, some 5, fun _ => none⟩
  ]

/-- The first one sends a `bCORE_WRITE` and its block in pieces; between them, the second one
breaks the protocol and another client connects.
-/
def interleavedRounds : List Round :=
  let readable : SOCKET → Revents := fun _ => ⟨true, false, false⟩
  let line : ClientRead := ⟨ascii "bCORE_WRITE RAM\n" ++ [0, 0, 0], by decide, by decide⟩
  let rest : ClientRead := ⟨[0, 2, 7, 8], by decide, by decide⟩
  let wrong : ClientRead := ⟨ascii "?", by decide, by decide⟩
  [
    ⟨false, .ready false readable, none, fun fd => if fd = 4 then some line else some wrong⟩,
    ⟨false, .ready true readable, some 6, fun _ => some rest⟩
  ]

/-- The server after the two connections were accepted. -/
def openedServer : Server Unit :=
  match
    (genericPollServerStart (Host.fixed [(.bCoreWrite, 2)]) ⟨none, none, none⟩ 3
      (Vector.replicate 5 Client.zero) () openingRounds).result
  with
  | .ok server => server
  | .error halted => halted.server

/-- The first connection shows the command and the block, as it does alone. -/
theorem connections_independent_interleaved
    : (pollRounds (Host.fixed [(.bCoreWrite, 2)]) ⟨none, none, none⟩ openedServer
        interleavedRounds).emitted.filter (Event.shows 4)
      = [
        .command 4 (ascii "bCORE_WRITE") [ascii "RAM"],
        .handled 4 (.generic .bCoreWrite) [ascii "RAM"] 2,
        .blockWritten 4 [7, 8]
      ] := by
  refine (connections_independent (Host.fixed [(.bCoreWrite, 2)]) ⟨none, none, none⟩ 3
    (Vector.replicate 5 Client.zero) () openingRounds interleavedRounds openedServer
    ⟨4, .none⟩ 0 () (Host.steady_fixed _) ?fresh ?reached ?polled ?slot ?unused ?defined).trans ?_
  case fresh => decide +kernel
  case reached =>
    have goesOn
        : (genericPollServerStart (Host.fixed [(.bCoreWrite, 2)]) ⟨none, none, none⟩ 3
            (Vector.replicate 5 Client.zero) () openingRounds).result.isOk := by
      decide +kernel
    rw [openedServer]
    split
    case h_1 goes => exact goes
    case h_2 stops =>
      rw [stops] at goesOn
      cases goesOn
  case polled => decide +kernel
  case slot => decide +kernel
  case unused => decide +kernel
  case defined =>
    have goesOn
        : (pollRounds (Host.fixed [(.bCoreWrite, 2)]) ⟨none, none, none⟩ openedServer
            interleavedRounds).result.isOk := by
      decide +kernel
    intro halted stops
    rw [stops] at goesOn
    cases goesOn
  decide +kernel

end NetworkAccess
