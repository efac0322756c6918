import NetworkAccess.Connections.ServeCases
import NetworkAccess.Library.Ledger

/-! What the poll loop keeps: the poll set agrees with the client table, and the callbacks
tell which descriptors the table tracks.
-/

namespace NetworkAccess

variable {Emulator : Type}

/-- Whether `fd` is open for the embedding program after one more event, or `none` where it
is told to open what is open or to remove what is not.
-/
def notice (fd : SOCKET) (isOpen : Bool) (event : Event) : Option Bool :=
  match event with
  | .clientAdded socket =>
      if socket = fd then
        if isOpen then none else some true
      else
        some isOpen
  | .clientRemoved socket =>
      if socket = fd then
        if isOpen then some false else none
      else
        some isOpen
  | _ => some isOpen

/-- The callbacks for each descriptor alternate, beginning with `add_client`, and those with
an `add_client` left unmatched are the given ones.
-/
def Reported (trace : List Event) (fds : List SOCKET) : Prop :=
  ∀ fd, trace.foldlM (notice fd) false = some (decide (fd ∈ fds))

/-- What a callback means for the embedding program's descriptors. -/
def Event.callbackEntry : Event → Ledger.Entry SOCKET
  | .clientAdded socket => .opens socket
  | .clientRemoved socket => .closes socket
  | _ => .silent

/-- What the callbacks are told is one entry of a ledger. -/
theorem notice_eq (fd : SOCKET) (isOpen : Bool) (event : Event)
    : notice fd isOpen event = Ledger.post Event.callbackEntry fd isOpen event := by
  cases event <;> rfl

/-- The callbacks are a ledger. -/
theorem reported_iff {trace : List Event} {fds : List SOCKET}
    : Reported trace fds
      ↔ ∀ fd, Ledger.Account Event.callbackEntry trace fd (decide (fd ∈ fds)) := by
  have same (fd : SOCKET) : notice fd = Ledger.post Event.callbackEntry fd := by
    funext isOpen event
    exact notice_eq fd isOpen event
  simp only [Reported, Ledger.Account, same]

/-- Before any event nobody was reported. -/
theorem Reported.nil : Reported [] [] := fun _ => rfl

/-- Events other than callbacks tell nothing. -/
theorem Reported.append {trace events : List Event} {fds : List SOCKET}
    (reported : Reported trace fds) (silent : ∀ event ∈ events, event.isCallback = false)
    : Reported (trace ++ events) fds := by
  rw [reported_iff] at reported ⊢
  intro fd
  apply (reported fd).append
  intro event member concerns
  have isSilent := silent event member
  cases event with
  | clientAdded | clientRemoved => cases isSilent
  | _ => simp [Ledger.Concerns, Event.callbackEntry] at concerns

/-- A new descriptor is opened. -/
theorem Reported.add {trace : List Event} {fds after : List SOCKET} {fd : SOCKET}
    (reported : Reported trace fds) (fresh : fd ∉ fds) (opened : after.Perm (fd :: fds))
    : Reported (trace ++ [.clientAdded fd]) after := by
  rw [reported_iff] at reported ⊢
  intro other
  exact (reported other).opens_perm rfl fresh opened

/-- A descriptor that was open is removed. -/
theorem Reported.remove {trace : List Event} {fds after : List SOCKET} {fd : SOCKET}
    (reported : Reported trace fds) (distinct : fds.Nodup) (removed : (fd :: after).Perm fds)
    : Reported (trace ++ [.clientRemoved fd]) after := by
  rw [reported_iff] at reported ⊢
  intro other
  exact (reported other).closes_perm rfl distinct removed

/-- A slot that was written without changing its descriptor changes nothing. -/
theorem Cursor.keep_sound {cursor : Cursor Emulator} (sound : cursor.server.Sound)
    {index : Fin 5} {client : Client}
    (same : client.socketFd = cursor.server.clients[index].socketFd)
    (formed : client.WellFormed) (emulator : Emulator)
    : (cursor.keep index client emulator).server.Sound where
  tracked := Clients.tracked_set_same same ▸ sound.tracked
  distinct := Clients.tracked_set_same same ▸ sound.distinct
  formed := Clients.forall_set (fun _ => formed) (fun other _ => sound.formed other)

/-- A removal takes the entry and the slot away. -/
theorem Cursor.drop_sound {cursor : Cursor Emulator} (sound : cursor.server.Sound)
    {entry : PollFd} (here : cursor.server.pollFds[cursor.i]? = some entry) {index : Fin 5}
    (slot : cursor.server.clients[index].socketFd = entry.fd)
    (taken : cursor.server.clients[index].socketFd ≠ 0) (callbacks : Callbacks Emulator)
    (client : Client) (emulator : Emulator)
    : (cursor.drop callbacks index client entry.fd emulator).server.Sound := by
  have freed := Clients.tracked_set_freed taken (rfl : client.remove.socketFd = 0)
  refine ⟨⟨?_, ?_⟩, ?_⟩
  case refine_1 =>
    have fds := ((swapRemove_perm here).map PollFd.fd).trans (sound.tracked.trans freed.symm)
    rw [List.map_cons, slot] at fds
    exact fds.cons_inv
  case refine_2 => exact (List.nodup_cons.mp (freed.nodup_iff.mpr sound.distinct)).2
  case refine_3 =>
    exact Clients.forall_set (fun stillTaken => absurd rfl stillTaken)
      (fun other _ => sound.formed other)

/-- One iteration of the client loop keeps the table and the poll set sound and takes one
entry off the rest.
-/
theorem serveClient_sound (host : Host Emulator) (callbacks : Callbacks Emulator)
    (round : Round) {cursor next : Cursor Emulator} (sound : cursor.server.Sound)
    (runs : cursor.running)
    (goes : (serveClient host callbacks round cursor).result = .ok next)
    : next.server.Sound
      ∧ next.server.pollFds.length - next.i < cursor.server.pollFds.length - cursor.i := by
  have bound : cursor.i < cursor.server.pollFds.length := runs
  have here := List.getElem?_eq_getElem bound
  obtain ⟨index, slot, taken, cases⟩ := serveClient_cases host callbacks round sound here
  have formed : (cursor.server.slot index).1.WellFormed := sound.formed index taken
  generalize serveClient host callbacks round cursor = turn at cases goes
  cases cases with
  | @stays _ client emulator attended =>
      cases goes
      have kept := attend_kept host formed (congrArg Reaction.result attended)
      refine ⟨Cursor.keep_sound sound kept.1 (kept.2 rfl) emulator, ?_⟩
      show cursor.server.pollFds.length - (cursor.i + 1) < _
      omega
  | @leaves _ client emulator attended =>
      cases goes
      refine ⟨Cursor.drop_sound sound here slot taken callbacks client emulator, ?_⟩
      show (swapRemove cursor.server.pollFds cursor.i).length - cursor.i < _
      rw [swapRemove_length bound]
      omega
  | fails => cases goes

/-- The events of a removal end with its callback. -/
theorem Reported.removal {trace : List Event} {fds after : List SOCKET} {fd : SOCKET}
    {callbacks : Callbacks Emulator} (registered : callbacks.removeClient.isSome)
    (reported : Reported trace fds) (distinct : fds.Nodup) (removed : (fd :: after).Perm fds)
    (client : Client) (emulator : Emulator)
    : Reported (trace ++ NetworkAccess.removal callbacks client fd emulator) after := by
  obtain ⟨function, here⟩ := Option.isSome_iff_exists.mp registered
  have freed : ∀ event ∈ client.freed fd, event.isCallback = false := by
    rw [Client.freed]
    split
    case isTrue => exact List.forall_mem_singleton.mpr rfl
    case isFalse => exact List.forall_mem_nil _
  rw [NetworkAccess.removal, here, ← List.append_assoc]
  exact (reported.append freed).remove distinct removed

/-- Its callbacks tell what the table tracks then. -/
theorem serveClient_reported (host : Host Emulator) {callbacks : Callbacks Emulator}
    {round : Round} {trace events : List Event} {cursor next : Cursor Emulator}
    (registered : callbacks.removeClient.isSome) (sound : cursor.server.Sound)
    (reported : Reported trace cursor.server.clients.tracked) (runs : cursor.running)
    (goes : serveClient host callbacks round cursor = .emit events next)
    : Reported (trace ++ events) next.server.clients.tracked := by
  have here := List.getElem?_eq_getElem runs
  obtain ⟨index, slot, taken, cases⟩ := serveClient_cases host callbacks round sound here
  have formed : (cursor.server.slot index).1.WellFormed := sound.formed index taken
  have serves := attend_serves host cursor.server.pollFds[cursor.i].revents
    (round.read cursor.server.pollFds[cursor.i].fd) formed
  rw [goes] at cases
  cases cases with
  | @stays _ client emulator attended =>
      have kept := attend_kept host formed (congrArg Reaction.result attended)
      have same : client.socketFd = cursor.server.clients[index].socketFd := kept.1
      rw [attended] at serves
      have silent := reported.append (fun event member => (serves event member).2)
      exact (Clients.tracked_set_same same).symm ▸ silent
  | @leaves served client emulator attended =>
      have freed := Clients.tracked_set_freed taken (rfl : client.remove.socketFd = 0)
      rw [attended] at serves
      rw [slot] at freed
      rw [← List.append_assoc]
      have silent := reported.append (fun event member => (serves event member).2)
      exact silent.removal registered sound.distinct freed client emulator

/-- An iteration stops only because of the connection that it serves. -/
theorem serveClient_stops (host : Host Emulator) (callbacks : Callbacks Emulator)
    (round : Round) {cursor : Cursor Emulator} {halted : Halted Emulator}
    (sound : cursor.server.Sound) (runs : cursor.running)
    (stops : (serveClient host callbacks round cursor).result = .error halted)
    : halted.shutdown.OfConnection := by
  have here := List.getElem?_eq_getElem runs
  obtain ⟨index, -, taken, cases⟩ := serveClient_cases host callbacks round sound here
  have formed : (cursor.server.slot index).1.WellFormed := sound.formed index taken
  generalize serveClient host callbacks round cursor = turn at cases stops
  cases cases with
  | stays => cases stops
  | leaves => cases stops
  | fails attended =>
      cases stops
      exact attend_stops host formed (congrArg Reaction.result attended)

-----------------------------------------------------------------------------------------
-- The client loop
-----------------------------------------------------------------------------------------

section ClientLoop

variable (host : Host Emulator) (callbacks : Callbacks Emulator) (round : Round)
  {server : Server Emulator}

/-- The table and the poll set are sound wherever the client loop gets. -/
theorem Server.Sound.visits (sound : server.Sound) {cursor : Cursor Emulator}
    (visits
      : Reaction.Visits (serveClient host callbacks round) Cursor.running ⟨server, 0⟩ cursor)
    : cursor.server.Sound := by
  refine visits.invariant (motive := fun cursor => cursor.server.Sound) sound ?_
  exact fun before after kept iterates =>
    (serveClient_sound host callbacks round kept iterates.1 iterates.2).1

/-- The client loop comes to an end: its fuel is never used up. -/
theorem serveClients_ends (sound : server.Sound)
    : Reaction.Evaluates (serveClient host callbacks round) Cursor.running ⟨server, 0⟩
        (serveClients host callbacks round server) := by
  have shrinks {before after : Cursor Emulator} {events : List Event}
      (sound : before.server.Sound) (runs : before.running)
      (goes : serveClient host callbacks round before = .emit events after)
      : after.server.pollFds.length - after.i < before.server.pollFds.length - before.i :=
    (serveClient_sound host callbacks round sound runs (by rw [goes]; rfl)).2
  refine (Reaction.runWhile_decides (motive := fun cursor => cursor.server.Sound)
    (fun cursor : Cursor Emulator => cursor.server.pollFds.length - cursor.i)
    (fun before after kept iterates =>
      (serveClient_sound host callbacks round kept iterates.1 iterates.2).1)
    (fun before after events kept runs goes => Or.inl (shrinks kept runs goes))
    sound (Nat.lt_succ_self server.pollFds.length)).resolve_right ?_
  rintro ⟨stuck, visits, runs, stalls, -⟩
  exact Nat.lt_irrefl _ (shrinks (sound.visits host callbacks round visits) runs stalls)

end ClientLoop

-----------------------------------------------------------------------------------------
-- Rounds
-----------------------------------------------------------------------------------------

/-- The table and the poll set are sound, and both callbacks tell what is tracked. -/
structure Server.Tracks (callbacks : Callbacks Emulator) (trace : List Event)
    (server : Server Emulator)
    : Prop where
  sound : server.Sound
  reported
    : callbacks.addClient.isSome
      → callbacks.removeClient.isSome
      → Reported trace server.clients.tracked

/-- `accept` returns a descriptor that is not in use. -/
def Round.Fresh (server : Server Emulator) (round : Round) : Prop :=
  ∀ fd, round.accepted = some fd → fd ≠ 0 ∧ fd ∉ server.clients.tracked

instance (server : Server Emulator) : DecidablePred (Round.Fresh server) :=
  fun round =>
    inferInstanceAs (Decidable (∀ fd ∈ round.accepted, fd ≠ 0 ∧ fd ∉ server.clients.tracked))

/-- The loop returns, or it ends because of a connection. -/
def Halted.Blameless (halted : Halted Emulator) : Prop :=
  (∃ value, halted.shutdown = .returned value) ∨ halted.shutdown.OfConnection

/-- The turn keeps track of its descriptors, or its end is due to a connection only. -/
def ServerTurn.Tracks (callbacks : Callbacks Emulator) (trace : List Event)
    (turn : ServerTurn Emulator (Server Emulator))
    : Prop :=
  turn.Ensures (Server.Tracks callbacks) (fun _ halted => halted.Blameless) trace

section Rounds

variable (host : Host Emulator) {callbacks : Callbacks Emulator} {round : Round}
  {trace : List Event} {server : Server Emulator}

/-- The client loop keeps track. -/
theorem clientLoop_tracks (tracks : server.Tracks callbacks trace)
    : ServerTurn.Tracks callbacks trace (clientLoop host callbacks round server) := by
  have loop
      : Reaction.Ensures
          (fun trace cursor => cursor.server.Tracks callbacks trace ∧ ¬ cursor.running)
          (fun _ halted => halted.Blameless) trace
          (serveClients host callbacks round server) := by
    refine .runWhile ?stuck ?each tracks
    case stuck => exact fun _ _ _ _ => Or.inr trivial
    case each =>
      intro trace cursor _ tracks runs
      rcases turn : (serveClient host callbacks round cursor) with ⟨events, halted | next⟩
      · exact Or.inr (serveClient_stops host callbacks round tracks.sound runs (by rw [turn]))
      · refine ⟨?_, fun adds removes => ?_⟩
        · exact (serveClient_sound host callbacks round tracks.sound runs (by rw [turn])).1
        · exact serveClient_reported host removes tracks.sound (tracks.reported adds removes)
            runs turn
  exact loop.andThen (fun trace cursor kept => by simpa using kept.1)

/-- The answer of `poll` changes no descriptor. -/
theorem Server.Sound.polled (sound : server.Sound) (revents : SOCKET → Revents)
    (emulator : Emulator)
    : Server.Sound {
        server with
        pollFds := server.pollFds.map (fun entry => ⟨entry.fd, revents entry.fd⟩)
        emulator
      } := by
  refine ⟨⟨?_, sound.distinct⟩, sound.formed⟩
  rw [List.map_map]
  exact sound.tracked

/-- A slot that is taken holds a fresh client. -/
theorem Server.Sound.add (sound : server.Sound) {index : Fin 5}
    (free : server.clients[index].socketFd = 0) {fd : SOCKET} (nonzero : fd ≠ 0)
    (unused : fd ∉ server.clients.tracked) (emulator : Emulator)
    : Server.Sound {
        server with
        clients := server.clients.set index (server.clients[index].add fd)
        pollFds := server.pollFds ++ [⟨fd, .none⟩]
        emulator
      } := by
  have taken := Clients.tracked_set_taken free
    (show (server.clients[index].add fd).socketFd ≠ 0 from nonzero)
  refine ⟨⟨?_, ?_⟩, ?_⟩
  case refine_1 =>
    rw [List.map_append]
    exact (List.perm_append_singleton fd _).trans ((sound.tracked.cons fd).trans taken.symm)
  case refine_2 => exact taken.nodup_iff.mpr (List.nodup_cons.mpr ⟨unused, sound.distinct⟩)
  case refine_3 =>
    exact Clients.forall_set (fun _ => server.clients[index].wellFormed_add fd)
      (fun other _ => sound.formed other)

/-- The poll set has room for a new connection while a slot is free. -/
theorem Server.Agrees.room (agrees : server.Agrees) {index : Fin 5}
    (free : server.clients[index].socketFd = 0)
    : server.pollFdsCount < 6 := by
  have taken := Clients.tracked_set_taken free
    (show (server.clients[index].add 1).socketFd ≠ 0 from Int.one_ne_zero)
  have slots := Clients.tracked_length (server.clients.set index (server.clients[index].add 1))
  have entries := agrees.tracked.length_eq
  rw [List.length_map] at entries
  rw [taken.length_eq, List.length_cons] at slots
  rw [Server.pollFdsCount]
  omega

/-- The poll set is never full beyond the server socket and one entry for each slot. -/
theorem Server.Agrees.count (agrees : server.Agrees) : server.pollFdsCount ≤ 6 := by
  have slots := server.clients.tracked_length
  have entries := agrees.tracked.length_eq
  rw [List.length_map] at entries
  rw [Server.pollFdsCount]
  omega

/-- A new connection is tracked. -/
theorem acceptClient_tracks (tracks : server.Tracks callbacks trace)
    (fresh : round.Fresh server)
    : ServerTurn.Tracks callbacks trace (acceptClient callbacks round.accepted server) := by
  cases accepted : round.accepted with
  | none => exact Or.inl ⟨false, rfl⟩
  | some fd =>
      obtain ⟨nonzero, unused⟩ := fresh fd accepted
      rw [acceptClient]
      rcases addToClients_cases server.clients fd with full | ⟨index, free, added⟩
      · have silent : ∀ event ∈ [Event.accepted fd, .closed fd], event.isCallback = false :=
          List.forall_mem_cons.mpr ⟨rfl, List.forall_mem_singleton.mpr rfl⟩
        rw [full]
        exact ⟨tracks.sound, fun adds removes => (tracks.reported adds removes).append silent⟩
      · have silent : ∀ event ∈ [Event.accepted fd], event.isCallback = false :=
          List.forall_mem_singleton.mpr rfl
        rw [added]
        dsimp only
        rw [if_pos (tracks.sound.room free)]
        refine ⟨tracks.sound.add free nonzero unused _, fun adds removes => ?_⟩
        obtain ⟨function, here⟩ := Option.isSome_iff_exists.mp adds
        have taken := Clients.tracked_set_taken free
          (show (server.clients[index].add fd).socketFd ≠ 0 from nonzero)
        have reported := ((tracks.reported adds removes).append silent).add unused taken
        rw [here]
        rwa [List.append_assoc] at reported

/-- What precedes the client loop keeps track. -/
theorem beginRound_tracks (tracks : server.Tracks callbacks trace)
    (fresh : round.Fresh server)
    : ServerTurn.Tracks callbacks trace (beginRound callbacks round server) := by
  simp only [beginRound]
  split
  case isTrue => exact Or.inl ⟨true, rfl⟩
  split
  case h_1 interrupted _ => exact Or.inl ⟨interrupted, rfl⟩
  split
  case isTrue => exact acceptClient_tracks ⟨tracks.sound.polled _ _, tracks.reported⟩ fresh
  case isFalse =>
    rw [ServerTurn.Tracks, Reaction.pure_eq, Reaction.Ensures.emit_iff, List.append_nil]
    exact ⟨tracks.sound.polled _ _, tracks.reported⟩

/-- A round keeps track. -/
theorem pollRound_tracks (tracks : server.Tracks callbacks trace) (fresh : round.Fresh server)
    : ServerTurn.Tracks callbacks trace (pollRound host callbacks server round) :=
  (beginRound_tracks tracks fresh).andThen (fun _ _ kept => clientLoop_tracks host kept)

/-- Nothing is tracked when the loop is entered. -/
theorem Server.tracks_listening (serverSocket : SOCKET) (clients : Clients) (emulator : Emulator)
    : Server.Tracks callbacks [] (.listening serverSocket clients emulator) := by
  have nothing := clients.tracked_emptied
  refine ⟨⟨⟨?_, ?_⟩, ?_⟩, fun _ _ => ?_⟩
  case refine_1 => exact nothing ▸ .nil
  case refine_2 => exact nothing ▸ .nil
  case refine_3 =>
    intro index taken
    exact absurd (Clients.free_of_untracked nothing index) taken
  case refine_4 => exact nothing ▸ .nil

/-- Any rounds in which `accept` returns fresh descriptors keep track, from the start of the
loop on.
-/
theorem pollRounds_tracks {serverSocket : SOCKET} {clients : Clients} {emulator : Emulator}
    {rounds : List Round}
    (fresh
      : Reaction.CalmAlong (pollRound host callbacks) Round.Fresh
          (.listening serverSocket clients emulator) rounds)
    : ServerTurn.Tracks callbacks []
        (genericPollServerStart host callbacks serverSocket clients emulator rounds) :=
  .foldlM (fun _ _ _ tracks fresh => pollRound_tracks host tracks fresh) fresh
    (Server.tracks_listening serverSocket clients emulator)

end Rounds

end NetworkAccess
