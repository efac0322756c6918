import NetworkAccess.Connections.PollSet

/-! Invariants of the poll loop from what one iteration of `preprocess_data` keeps: a condition on
the emulator, which all connections share, and one on the slot of each of them, both given the
events so far. The program registers no callbacks.
-/

namespace NetworkAccess

variable {Emulator : Type}

/-- No callback is registered. -/
def Callbacks.absent : Callbacks Emulator := ⟨none, none, none⟩

/-- The events with which connections come and go. -/
def Event.ofConnections : Event → Bool
  | .blockReleased _ | .accepted _ | .closed _ => true
  | _ => false

/-- What is kept of the emulator and of each connection. The events of other connections do not
matter to `own`.
-/
structure LoopInvariant (host : Host Emulator) where
  shared : List Event → Emulator → Prop
  own : List Event → Client → Prop
  step
    : ∀ {trace} {config : Config Emulator},
        config.client.WellFormed
        → config.unread ≠ []
        → shared trace config.emulator
        → own trace config.client
        → (iteration host config).Ensures
            (fun trace next => shared trace next.emulator ∧ own trace next.client)
            (fun trace stopped => shared trace stopped.config.emulator) trace
  comeAndGo
    : ∀ {trace emulator events},
        shared trace emulator
        → (∀ event ∈ events, event.ofConnections)
        → shared (trace ++ events) emulator
  read
    : ∀ {trace client} (bytes : Bytes),
        own trace client → own trace { client with readedData := bytes }
  apart
    : ∀ {trace client events},
        own trace client
        → (∀ event ∈ events, event.socket ≠ client.socketFd)
        → own (trace ++ events) client
  added : ∀ trace (slot : Client) fd, own trace (slot.add fd)

namespace LoopInvariant

variable {host : Host Emulator} (invariant : LoopInvariant host)

/-- The invariant of a server, with the agreement of its table and its poll set. -/
structure Holds (trace : List Event) (server : Server Emulator) : Prop where
  sound : server.Sound
  shared : invariant.shared trace server.emulator
  own
    : ∀ index : Fin 5,
        server.clients[index].socketFd ≠ 0 → invariant.own trace server.clients[index]

section Reads

variable {invariant} {trace : List Event} {state : Client × Emulator}
  (formed : state.1.WellFormed) (shared : invariant.shared trace state.2)
  (own : invariant.own trace state.1)
include formed shared own

/-- A read keeps it, by the iterations of its loop. -/
theorem feedRead (read : ClientRead)
    : (NetworkAccess.feedRead host state read).Ensures
        (fun trace next => invariant.shared trace next.2 ∧ invariant.own trace next.1)
        (fun trace stopped => invariant.shared trace stopped.config.emulator) trace := by
  have loop
      : (preprocessData host (Config.enter state.1 state.2 read)).Ensures
          (fun trace config =>
            (config.client.WellFormed
              ∧ invariant.shared trace config.emulator
              ∧ invariant.own trace config.client)
            ∧ ¬ config.running)
          (fun trace stopped => invariant.shared trace stopped.config.emulator) trace := by
    refine .runWhile ?stuck ?each ?start
    case stuck => exact fun _ _ kept _ => kept.2.1
    case start => exact ⟨Config.wellFormed_enter formed _ _, shared, invariant.read _ own⟩
    case each =>
      intro trace config _ kept more
      obtain ⟨formed, shared, own⟩ := kept
      have kept := invariant.step formed more shared own
      rcases turn : iteration host config with ⟨events, stopped | next⟩
      · rw [turn] at kept
        exact kept
      · rw [turn] at kept
        exact ⟨(iteration_kept host formed more turn).wellFormed, kept⟩
  exact loop.andThen (fun trace config kept => by simpa using kept.1.2)

/-- Serving a connection keeps it. -/
theorem attend (revents : Revents) (answer : Option ClientRead)
    : (NetworkAccess.attend host revents answer state).Ensures
        (fun trace attended =>
          invariant.shared trace attended.emulator
          ∧ (attended.stays → invariant.own trace attended.client))
        (fun _ _ => True) trace := by
  rcases attend_cases host answer state revents with ⟨stays, turn⟩ | ⟨read, turn⟩
  · rw [turn, Reaction.Ensures.emit_iff, List.append_nil]
    exact ⟨shared, fun _ => own⟩
  · have fed := feedRead formed shared own read
    rw [turn, settle]
    generalize NetworkAccess.feedRead host state read = outcome at fed
    obtain ⟨events, ⟨ending, last⟩ | ⟨client, emulator⟩⟩ := outcome
    · cases ending with
      | rejected =>
          have closed := invariant.comeAndGo fed
            (List.forall_mem_singleton.mpr (rfl : (Event.closed state.1.socketFd).ofConnections))
          rw [List.append_assoc] at closed
          exact ⟨closed, Bool.false_ne_true.elim⟩
      | undefined | spinning => trivial
    · exact ⟨fed.1, fun _ => fed.2⟩

end Reads

section Serving

variable {invariant} {round : Round} {trace : List Event} {cursor : Cursor Emulator}
  (holds : invariant.Holds trace cursor.server) {entry : PollFd} {index : Fin 5}
  (taken : cursor.server.clients[index].socketFd ≠ 0)
include holds taken

/-- The work for one connection leaves the others alone. -/
theorem Holds.others {events : List Event}
    (serves : ∀ event ∈ events, event.socket = cursor.server.clients[index].socketFd)
    {other : Fin 5} (apart : index ≠ other)
    (otherTaken : cursor.server.clients[other].socketFd ≠ 0)
    : invariant.own (trace ++ events) cursor.server.clients[other] := by
  refine invariant.apart (holds.own other otherTaken) (fun event member foreign => apart ?_)
  exact cursor.server.clients.unique holds.sound.distinct
    ((serves event member).symm.trans foreign) taken

/-- A connection that stays. -/
theorem Holds.keep {events : List Event} {client : Client} {emulator : Emulator}
    (attended
      : NetworkAccess.attend host entry.revents (round.read entry.fd) (cursor.server.slot index)
        = .emit events ⟨true, client, emulator⟩)
    : invariant.Holds (trace ++ events) (cursor.keep index client emulator).server := by
  have formed : (cursor.server.slot index).1.WellFormed := holds.sound.formed index taken
  have kept := attend_kept host formed (congrArg Reaction.result attended)
  have serves := attend_serves host entry.revents (round.read entry.fd) formed
  have ensures := attend formed holds.shared (holds.own index taken) entry.revents
    (round.read entry.fd)
  rw [attended] at serves ensures
  have spared (other : Fin 5) (apart : index ≠ other) :=
    holds.others taken (fun event member => (serves event member).1) apart
  exact {
    sound := Cursor.keep_sound holds.sound kept.1 (kept.2 rfl) emulator
    shared := ensures.1
    own := Clients.forall_set (fun _ => ensures.2 rfl) spared
  }

/-- A connection that leaves. -/
theorem Holds.drop (here : cursor.server.pollFds[cursor.i]? = some entry)
    (slot : cursor.server.clients[index].socketFd = entry.fd) {events : List Event}
    {client : Client} {emulator : Emulator}
    (attended
      : NetworkAccess.attend host entry.revents (round.read entry.fd) (cursor.server.slot index)
        = .emit events ⟨false, client, emulator⟩)
    : invariant.Holds (trace ++ (events ++ removal .absent client entry.fd emulator))
        (cursor.drop .absent index client entry.fd emulator).server := by
  have formed : (cursor.server.slot index).1.WellFormed := holds.sound.formed index taken
  have serves := attend_serves host entry.revents (round.read entry.fd) formed
  have ensures := attend formed holds.shared (holds.own index taken) entry.revents
    (round.read entry.fd)
  have released : ∀ event ∈ removal .absent client entry.fd emulator, event.ofConnections := by
    rw [removal, Client.freed]
    split <;> simp [notify, Callbacks.absent, Event.ofConnections]
  rw [attended] at serves ensures
  have own : ∀ event ∈ events ++ removal .absent client entry.fd emulator,
      event.socket = cursor.server.clients[index].socketFd :=
    List.forall_mem_append.mpr ⟨
      fun event member => (serves event member).1,
      fun event member => (removal_socket member).trans slot.symm
    ⟩
  refine {
    sound := Cursor.drop_sound holds.sound here slot taken .absent client emulator
    shared := ?_
    own :=
      Clients.forall_set (fun stillTaken => absurd rfl stillTaken)
        (fun other apart => holds.others taken own apart)
  }
  rw [← List.append_assoc]
  exact invariant.comeAndGo ensures.1 released

end Serving

/-- Removing a client never ends the loop. -/
theorem dropClient_goes (callbacks : Callbacks Emulator) (fd : SOCKET) (cursor : Cursor Emulator)
    : ∃ events next, dropClient callbacks fd cursor = .emit events next := by
  rw [dropClient, removeClient]
  split
  case h_1 => exact ⟨_, _, rfl⟩
  case h_2 => exact ⟨_, _, rfl⟩

/-- Where serving a connection ends the loop, its read does so, and the emulator is the one that the
read leaves.
-/
theorem serveClient_halts (callbacks : Callbacks Emulator) (round : Round)
    {cursor : Cursor Emulator} (sound : cursor.server.Sound) {entry : PollFd}
    (here : cursor.server.pollFds[cursor.i]? = some entry) {events : List Event}
    {halted : Halted Emulator}
    (stops : NetworkAccess.serveClient host callbacks round cursor = .stop events halted)
    : ∃ (index : Fin 5) (read : ClientRead) (stopped : Stopped Emulator),
        cursor.server.clients[index].socketFd ≠ 0
        ∧ NetworkAccess.feedRead host (cursor.server.slot index) read = .stop events stopped
        ∧ halted.server.emulator = stopped.config.emulator := by
  have drops (cursor : Cursor Emulator)
      : dropClient callbacks entry.fd cursor ≠ .stop events halted := by
    intro stops
    obtain ⟨_, _, goes⟩ := dropClient_goes callbacks entry.fd cursor
    rw [goes] at stops
    cases stops
  obtain ⟨nonzero, index, slot⟩ := sound.slot (List.mem_of_getElem? here)
  have taken : cursor.server.clients[index].socketFd ≠ 0 := slot ▸ nonzero
  have found := sound.toAgrees.getClient taken
  rw [slot] at found
  rw [NetworkAccess.serveClient, here] at stops
  dsimp only at stops
  split at stops
  case isTrue => exact absurd stops (drops _)
  split at stops
  case isFalse => cases stops
  cases answer : round.read entry.fd with
  | none =>
      rw [answer] at stops
      exact absurd stops (by simpa [readClientData] using drops _)
  | some read =>
      rw [answer, readClientData] at stops
      simp only [found] at stops
      refine ⟨index, read, ?_⟩
      rw [Server.slot]
      generalize NetworkAccess.feedRead host (cursor.server.clients[index], cursor.server.emulator)
        read = turn at stops ⊢
      obtain ⟨served, ⟨ending, last⟩ | next⟩ := turn
      · cases ending with
        | rejected =>
            obtain ⟨_, _, goes⟩ := dropClient_goes callbacks entry.fd
              {
                cursor with
                server := {
                  cursor.server with
                  clients := cursor.server.clients.set index last.client
                  emulator := last.emulator
                }
              }
            simp only [Reaction.bind_eq, Reaction.emit_andThen, Bool.false_eq_true, if_false, goes,
              Reaction.prepend_emit] at stops
            cases stops
        | undefined | spinning =>
            cases stops
            exact ⟨_, taken, rfl, rfl⟩
      · cases stops

section Rounds

variable {invariant} {round : Round} {trace : List Event}

/-- An iteration of the client loop. -/
theorem serveClient {cursor : Cursor Emulator} (holds : invariant.Holds trace cursor.server)
    (runs : cursor.running)
    : (NetworkAccess.serveClient host .absent round cursor).Ensures
        (fun trace next => invariant.Holds trace next.server)
        (fun trace halted => invariant.shared trace halted.server.emulator) trace := by
  have here := List.getElem?_eq_getElem runs
  obtain ⟨index, slot, taken, cases⟩ := serveClient_cases host .absent round holds.sound here
  generalize turn : NetworkAccess.serveClient host .absent round cursor = reaction at cases
  cases cases with
  | stays attended => exact holds.keep taken attended
  | leaves attended => exact holds.drop taken here slot attended
  | fails =>
      obtain ⟨index, read, stopped, taken, fed, same⟩ :=
        serveClient_halts .absent round holds.sound here turn
      have formed : (cursor.server.slot index).1.WellFormed := holds.sound.formed index taken
      have ensures := feedRead formed holds.shared (holds.own index taken) read
      rw [fed] at ensures
      rw [Reaction.Ensures.stop_iff, same]
      exact ensures

/-- The client loop. -/
theorem clientLoop {server : Server Emulator} (holds : invariant.Holds trace server)
    : (NetworkAccess.clientLoop host .absent round server).Ensures invariant.Holds
        (fun trace halted => invariant.shared trace halted.server.emulator) trace := by
  have loop
      : (serveClients host .absent round server).Ensures
          (fun trace cursor => invariant.Holds trace cursor.server ∧ ¬ cursor.running)
          (fun trace halted => invariant.shared trace halted.server.emulator) trace := by
    refine .runWhile ?stuck ?each holds
    case stuck => exact fun _ _ kept _ => kept.shared
    case each => exact fun _ _ _ kept runs => serveClient kept runs
  exact loop.andThen (fun trace cursor kept => by simpa using kept.1)

/-- A new connection. -/
theorem acceptClient {server : Server Emulator} (holds : invariant.Holds trace server)
    (fresh : round.Fresh server)
    : (NetworkAccess.acceptClient .absent round.accepted server).Ensures invariant.Holds
        (fun trace halted => invariant.shared trace halted.server.emulator) trace := by
  cases accepted : round.accepted with
  | none =>
      rw [NetworkAccess.acceptClient, Reaction.Ensures.stop_iff, List.append_nil]
      exact holds.shared
  | some fd =>
      obtain ⟨nonzero, unused⟩ := fresh fd accepted
      have foreign {index : Fin 5} (taken : server.clients[index].socketFd ≠ 0)
          : fd ≠ server.clients[index].socketFd := by
        rintro rfl
        exact unused (Clients.mem_tracked.mpr ⟨nonzero, index, rfl⟩)
      rw [NetworkAccess.acceptClient]
      rcases addToClients_cases server.clients fd with full | ⟨index, free, added⟩
      · rw [full]
        have come : ∀ event ∈ [Event.accepted fd, .closed fd], event.ofConnections :=
          List.forall_mem_cons.mpr ⟨rfl, List.forall_mem_singleton.mpr rfl⟩
        refine ⟨holds.sound, invariant.comeAndGo holds.shared come, fun index taken => ?_⟩
        exact invariant.apart (holds.own index taken)
          (List.forall_mem_cons.mpr
            ⟨foreign taken, List.forall_mem_singleton.mpr (foreign taken)⟩)
      · rw [added]
        dsimp only
        rw [if_pos (holds.sound.room free)]
        refine ⟨holds.sound.add free nonzero unused _,
          invariant.comeAndGo holds.shared (List.forall_mem_singleton.mpr rfl),
          Clients.forall_set (fun _ => invariant.added _ _ fd) (fun other _ taken => ?_)⟩
        exact invariant.apart (holds.own other taken)
          (List.forall_mem_singleton.mpr (foreign taken))

/-- What precedes the client loop. -/
theorem beginRound {server : Server Emulator} (holds : invariant.Holds trace server)
    (fresh : round.Fresh server)
    : (NetworkAccess.beginRound .absent round server).Ensures invariant.Holds
        (fun trace halted => invariant.shared trace halted.server.emulator) trace := by
  have closed (fds : List SOCKET)
      : ∀ event ∈ fds.map Event.closed ++ [.closed server.serverSocket], event.ofConnections := by
    intro event member
    rcases List.mem_append.mp member with tracked | server
    · obtain ⟨fd, -, rfl⟩ := List.mem_map.mp tracked
      rfl
    · rw [List.mem_singleton.mp server]
      rfl
  simp only [NetworkAccess.beginRound]
  split
  case isTrue => exact invariant.comeAndGo holds.shared (closed _)
  split
  case h_1 =>
    rw [Reaction.Ensures.stop_iff, List.append_nil]
    exact holds.shared
  have polled (revents : SOCKET → Revents)
      : invariant.Holds trace {
          server with
          pollFds := server.pollFds.map (fun entry => ⟨entry.fd, revents entry.fd⟩)
        } :=
    ⟨holds.sound.polled _ _, holds.shared, holds.own⟩
  split
  case isTrue => exact acceptClient (polled _) fresh
  case isFalse =>
    rw [Reaction.pure_eq, Reaction.Ensures.emit_iff, List.append_nil]
    exact polled _

end Rounds

/-- In a run in which `accept` returns descriptors that are not in use, the invariant holds between
all rounds, and the emulator keeps its part to the end.
-/
theorem genericPollServerStart (serverSocket : SOCKET) (clients : Clients) {emulator : Emulator}
    {rounds : List Round} (start : invariant.shared [] emulator)
    (fresh
      : Reaction.CalmAlong (pollRound host .absent) Round.Fresh
          (.listening serverSocket clients emulator) rounds)
    : (NetworkAccess.genericPollServerStart host .absent serverSocket clients emulator
        rounds).Ensures
        invariant.Holds (fun trace halted => invariant.shared trace halted.server.emulator) [] := by
  have tracks : Server.Tracks .absent [] (.listening serverSocket clients emulator) :=
    Server.tracks_listening serverSocket clients emulator
  have begins : invariant.Holds [] (.listening serverSocket clients emulator) := {
    sound := tracks.sound
    shared := start
    own := by
      intro index taken
      exact absurd (Clients.free_of_untracked clients.tracked_emptied index) taken
  }
  refine .foldlM (fun trace server round holds fresh => ?_) fresh begins
  exact (beginRound holds fresh).andThen (fun _ _ kept => clientLoop kept)

end LoopInvariant

/-- The emulator of the server, also where the loop ended. -/
def ServerTurn.emulator (turn : ServerTurn Emulator (Server Emulator)) : Emulator :=
  match turn.result with
  | .ok server => server.emulator
  | .error halted => halted.server.emulator

/-- The part of the emulator at the end of a run, however it ends. -/
theorem LoopInvariant.shared_run {host : Host Emulator} (invariant : LoopInvariant host)
    {serverSocket : SOCKET} {clients : Clients} {emulator : Emulator} {rounds : List Round}
    (start : invariant.shared [] emulator)
    (fresh
      : Reaction.CalmAlong (pollRound host .absent) Round.Fresh
          (.listening serverSocket clients emulator) rounds)
    : let run :=
        NetworkAccess.genericPollServerStart host .absent serverSocket clients emulator rounds
      invariant.shared run.emitted (ServerTurn.emulator run) := by
  intro run
  have kept := invariant.genericPollServerStart serverSocket clients start fresh
  change run.Ensures _ _ _ at kept
  rw [ServerTurn.emulator]
  rcases run.cases_eq with ⟨events, server, turn⟩ | ⟨events, halted, turn⟩
  · rw [turn] at kept ⊢
    exact kept.shared
  · rw [turn] at kept ⊢
    exact kept

end NetworkAccess
