import Mathlib.Data.List.Nodup
import NetworkAccess.Connections.PollSet
import NetworkAccess.Library.Projection

/-! One connection in a server with others and the same connection in a server of its own:
round by round both show the same of it.
-/

namespace NetworkAccess

variable {Emulator : Type}

/-- What serving `entry`, whose slot is `index`, leaves alone. -/
structure Cursor.Spares (cursor next : Cursor Emulator) (entry : PollFd) (index : Fin 5)
    : Prop where
  rest : (next.server.pollFds.drop next.i).Perm (cursor.server.pollFds.drop (cursor.i + 1))
  subset : next.server.pollFds ⊆ cursor.server.pollFds
  others : ∀ other ∈ cursor.server.pollFds, other ≠ entry → other ∈ next.server.pollFds
  slots
    : ∀ other : Fin 5,
        other ≠ index → next.server.clients[other] = cursor.server.clients[other]
  socket : next.server.serverSocket = cursor.server.serverSocket

/-- Serving an entry that stays spares the other slots and entries. -/
theorem Cursor.keep_spares (cursor : Cursor Emulator) (entry : PollFd) (index : Fin 5)
    (client : Client) (emulator : Emulator)
    : cursor.Spares (cursor.keep index client emulator) entry index where
  rest := .rfl
  subset := List.Subset.refl _
  others := fun _ member _ => member
  slots := fun _ apart => Clients.set_other _ apart.symm client
  socket := rfl

/-- Serving an entry that leaves spares the other slots and entries, one of which comes into its
place.
-/
theorem Cursor.drop_spares {cursor : Cursor Emulator} {entry : PollFd}
    (here : cursor.server.pollFds[cursor.i]? = some entry) (callbacks : Callbacks Emulator)
    (index : Fin 5) (client : Client) (emulator : Emulator)
    : cursor.Spares (cursor.drop callbacks index client entry.fd emulator) entry index where
  rest := swapRemove_drop here
  subset := fun _ member => (swapRemove_perm here).subset (List.mem_cons_of_mem _ member)
  others := by
    intro other member apart
    exact (List.mem_cons.mp ((swapRemove_perm here).symm.subset member)).resolve_left apart
  slots := fun _ apart => Clients.set_other _ apart.symm client.remove
  socket := rfl

/-- An iteration acts for the descriptor that it serves and spares everything else. -/
theorem serveClient_spares (host : Host Emulator) (callbacks : Callbacks Emulator)
    (round : Round) {cursor next : Cursor Emulator} {events : List Event} {entry : PollFd}
    (sound : cursor.server.Sound) (here : cursor.server.pollFds[cursor.i]? = some entry)
    (goes : serveClient host callbacks round cursor = .emit events next)
    : (∀ event ∈ events, event.socket = entry.fd)
      ∧ ∃ index : Fin 5,
          cursor.server.clients[index].socketFd = entry.fd ∧ cursor.Spares next entry index := by
  obtain ⟨index, slot, taken, cases⟩ := serveClient_cases host callbacks round sound here
  have formed : (cursor.server.slot index).1.WellFormed := sound.formed index taken
  have serves := attend_serves host entry.revents (round.read entry.fd) formed
  rw [show (cursor.server.slot index).1.socketFd = entry.fd from slot] at serves
  rw [goes] at cases
  cases cases with
  | @stays _ client emulator attended =>
      rw [attended] at serves
      exact ⟨fun event member => (serves event member).1, index, slot,
        cursor.keep_spares entry index client emulator⟩
  | @leaves served client emulator attended =>
      rw [attended] at serves
      refine ⟨fun event member => ?_, index, slot,
        Cursor.drop_spares here callbacks index client emulator⟩
      rcases List.mem_append.mp member with served | removed
      · exact (serves event served).1
      · exact removal_socket removed

-----------------------------------------------------------------------------------------
-- The same connection in two servers
-----------------------------------------------------------------------------------------

/-- A host whose answers do not depend on the emulator. -/
abbrev Host.Steady (host : Host Emulator) : Prop := host.Respects (fun _ _ => True)

/-- What a run shows of the connection with `fd`. -/
def Event.shows (fd : SOCKET) (event : Event) : Bool := event.socket = fd && event.observable

/-- Events of other connections show nothing of this one. -/
theorem Event.shows_other {fd : SOCKET} {events : List Event}
    (others : ∀ event ∈ events, event.socket ≠ fd)
    : events.filter (Event.shows fd) = [] :=
  List.filter_eq_nil_iff.mpr (fun event member => by simp [Event.shows, others event member])

/-- Two slots go on alike, whatever the emulators are. -/
abbrev SteadyAlike (one other : Client × Emulator) : Prop :=
  SlotsAlike False (fun _ _ => True) one other

/-- Slots that are alike whatever the emulators are stay so with any others. -/
theorem SlotsAlike.steady {one other : Client} {left right left' right' : Emulator}
    (alike : SteadyAlike (one, left) (other, right))
    : SteadyAlike (one, left') (other, right') :=
  ⟨alike.formed, alike.otherFormed, alike.inStep.1, trivial⟩

/-- Nobody is connected to the second server but the connection with `fd`, which it has when
the first one does, in a slot that goes on alike.
-/
inductive Facing (fd : SOCKET) (server other : Server Emulator) : Prop
  | gone (nobody : fd ∉ server.pollFds.map PollFd.fd) (empty : other.pollFds = [])
  | here (entry : PollFd) (named : entry.fd = fd) (member : entry ∈ server.pollFds)
    (single : other.pollFds = [entry]) (index place : Fin 5)
    (slot : server.clients[index].socketFd = fd)
    (otherSlot : other.clients[place].socketFd = fd)
    (alike : SteadyAlike (server.slot index) (other.slot place))

/-- The entries of the other server are all of the connection. -/
theorem Facing.named {fd : SOCKET} {server other : Server Emulator}
    (facing : Facing fd server other) {entry : PollFd} (member : entry ∈ other.pollFds)
    : entry.fd = fd := by
  cases facing with
  | gone nobody empty =>
      rw [empty] at member
      cases member
  | here own named _ single =>
      rw [single] at member
      rw [List.mem_singleton.mp member, named]

/-- Both servers are sound, and the second one has at most the connection with `fd`. -/
structure Mirrors (fd : SOCKET) (server other : Server Emulator) : Prop where
  sound : server.Sound
  otherSound : other.Sound
  socket : server.serverSocket = other.serverSocket
  facing : Facing fd server other

/-- A turn of the first server shows of the connection what a turn of the second one does,
and both go on or end alike, unless some connection ends the loop of the first one.
-/
abbrev ServerTurn.Shows (fd : SOCKET) (turn other : ServerTurn Emulator (Server Emulator))
    : Prop :=
  Reaction.Shows (Event.shows fd) (Mirrors fd)
    (fun last (final : Halted Emulator) => last.shutdown = final.shutdown)
    (fun last => last.shutdown.OfConnection) turn other

/-- Serving another connection changes nothing. -/
theorem Mirrors.spares {fd : SOCKET} {cursor next : Cursor Emulator} {other : Server Emulator}
    (mirrors : Mirrors fd cursor.server other) {entry : PollFd} {index : Fin 5}
    (spares : cursor.Spares next entry index) (sound : next.server.Sound)
    (slot : cursor.server.clients[index].socketFd = entry.fd) (apart : entry.fd ≠ fd)
    : Mirrors fd next.server other where
  sound := sound
  otherSound := mirrors.otherSound
  socket := spares.socket.trans mirrors.socket
  facing := by
    cases mirrors.facing with
    | gone nobody empty =>
        exact .gone (fun member => nobody (List.map_subset _ spares.subset member)) empty
    | here kept named member single own place ownSlot otherSlot alike =>
        have different : own ≠ index := by
          rintro rfl
          exact apart (slot.symm.trans ownSlot)
        have unchanged := spares.slots own different
        refine .here kept named (spares.others kept member ?_) single own place ?_ otherSlot ?_
        · rintro rfl
          exact apart named
        · rw [unchanged]
          exact ownSlot
        · rw [Server.slot, unchanged]
          exact alike.steady

section Serving

variable {host : Host Emulator} (steady : host.Steady) (callbacks : Callbacks Emulator)
  (round : Round)
include steady

omit steady in

/-- A removal shows its callback only. -/
theorem removal_shows (fd : SOCKET) (client other : Client) (left right : Emulator)
    : (removal callbacks client fd left).filter (Event.shows fd)
      = (removal callbacks other fd right).filter (Event.shows fd) := by
  have freed (client : Client) : (client.freed fd).filter (Event.shows fd) = [] := by
    rw [Client.freed]
    split <;> simp [Event.shows, Event.observable]
  rw [removal, removal, List.filter_append, List.filter_append, freed, freed]
  cases callbacks.removeClient <;> rfl

/-- The connection is served in both servers alike, and nothing else is left to serve in the
second one.
-/
theorem serveClient_shows {cursor : Cursor Emulator} {other : Server Emulator}
    (sound : cursor.server.Sound) (otherSound : other.Sound) {entry : PollFd}
    (socket : cursor.server.serverSocket = other.serverSocket)
    (here : cursor.server.pollFds[cursor.i]? = some entry) (single : other.pollFds = [entry])
    {index place : Fin 5} (slot : cursor.server.clients[index].socketFd = entry.fd)
    (otherSlot : other.clients[place].socketFd = entry.fd)
    (alike : SteadyAlike (cursor.server.slot index) (other.slot place))
    : Reaction.Shows (Event.shows entry.fd)
        (fun next after => Mirrors entry.fd next.server after.server ∧ ¬ after.running)
        (fun last final => last.shutdown = final.shutdown)
        (fun last => last.shutdown.OfConnection)
        (serveClient host callbacks round cursor)
        (serveClient host callbacks round ⟨other, 0⟩) := by
  have runs : cursor.running := (List.getElem?_eq_some_iff.mp here).1
  have otherRuns : Cursor.running ⟨other, 0⟩ := by simp [Cursor.running, single]
  have there : (Cursor.mk other 0).server.pollFds[(Cursor.mk other 0).i]? = some entry := by
    show other.pollFds[0]? = some entry
    rw [single]
    rfl
  obtain ⟨found, foundSlot, taken, cases⟩ := serveClient_cases host callbacks round sound here
  obtain ⟨otherFound, otherFoundSlot, otherTaken, otherCases⟩ :=
    serveClient_cases host callbacks round otherSound there
  have sameSlot : found = index :=
    cursor.server.clients.unique sound.distinct (foundSlot.trans slot.symm) taken
  have sameOther : otherFound = place :=
    other.clients.unique otherSound.distinct (otherFoundSlot.trans otherSlot.symm) otherTaken
  subst sameSlot sameOther
  generalize run : serveClient host callbacks round cursor = turn at cases
  generalize otherRun : serveClient host callbacks round ⟨other, 0⟩ = otherTurn at otherCases
  have kept {next : Cursor Emulator} (goes : turn.result = .ok next) :=
    (serveClient_sound host callbacks round sound runs (run ▸ goes)).1
  have otherKept {next : Cursor Emulator} (goes : otherTurn.result = .ok next) :=
    (serveClient_sound host callbacks round otherSound otherRuns (otherRun ▸ goes)).1
  cases cases with
  | stays attended =>
      obtain ⟨client', emulator', otherAttended, staysAlike⟩ :=
        attend_alike steady False.elim alike attended
      cases otherCases with
      | stays again =>
          rw [otherAttended] at again
          cases again
          have socketFd := (attend_kept host alike.formed (congrArg Reaction.result attended)).1
          have otherFd :=
            (attend_kept host alike.otherFormed (congrArg Reaction.result otherAttended)).1
          refine .emit rfl ⟨⟨kept rfl, otherKept rfl, socket,
            .here entry rfl (List.mem_of_getElem? here) single found otherFound ?_ ?_ ?_⟩, ?_⟩
          · simpa [Cursor.keep] using socketFd.trans slot
          · simpa [Cursor.keep] using otherFd.trans otherSlot
          · simpa [Cursor.keep, Server.slot] using staysAlike rfl
          · simp [Cursor.keep, Cursor.running, single]
      | leaves again => rw [otherAttended] at again; cases again
      | fails again => rw [otherAttended] at again; cases again
  | leaves attended =>
      obtain ⟨client', emulator', otherAttended, -⟩ :=
        attend_alike steady False.elim alike attended
      cases otherCases with
      | stays again => rw [otherAttended] at again; cases again
      | leaves again =>
          rw [otherAttended] at again
          cases again
          refine .emit ?_ ⟨⟨kept rfl, otherKept rfl, socket, .gone ?_ ?_⟩, ?_⟩
          · rw [List.filter_append, List.filter_append, removal_shows callbacks entry.fd]
          · exact sound.toAgrees.removed here
          · show swapRemove other.pollFds 0 = []
            rw [single]
            rfl
          · simp [Cursor.drop, Cursor.running, single, swapRemove]
      | fails again => rw [otherAttended] at again; cases again
  | fails attended =>
      refine .excuse ?_
      exact serveClient_stops host callbacks round sound runs (by rw [run]; rfl)

/-- What the client loop has done so far, next to what the loop of the second server does: its
connection is still ahead, or it was served and nothing of it is left to serve.
-/
inductive Progress (host : Host Emulator) (callbacks : Callbacks Emulator) (round : Round)
    (fd : SOCKET) (other : Server Emulator) (trace : List Event) (cursor : Cursor Emulator)
    : Prop
  | ahead (nothing : trace.filter (Event.shows fd) = []) (mirrors : Mirrors fd cursor.server other)
    (later : ∀ entry ∈ other.pollFds, entry ∈ cursor.server.pollFds.drop cursor.i)
  | behind {events after}
    (run : clientLoop host callbacks round other = .emit events after)
    (same : trace.filter (Event.shows fd) = events.filter (Event.shows fd))
    (mirrors : Mirrors fd cursor.server after)
    (earlier : ∀ entry ∈ cursor.server.pollFds.drop cursor.i, entry.fd ≠ fd)

omit steady in

/-- The client loop of a server with one entry serves it once. -/
theorem clientLoop_single {server : Server Emulator} {entry : PollFd}
    (single : server.pollFds = [entry]) {events : List Event} {next : Cursor Emulator}
    (serves : serveClient host callbacks round ⟨server, 0⟩ = .emit events next)
    (finished : ¬ next.running)
    : clientLoop host callbacks round server = .emit events next.server := by
  have runs : Cursor.running ⟨server, 0⟩ := by simp [Cursor.running, single]
  rw [clientLoop, serveClients, Reaction.runWhile, if_pos runs, serves]
  simp only [Reaction.emit_andThen, Reaction.runWhile_of_not_running finished,
    Reaction.bind_eq, Reaction.prepend_emit, Reaction.pure_eq, List.append_nil]

omit steady in

/-- The client loop does nothing when there is no entry. -/
theorem clientLoop_empty {server : Server Emulator} (empty : server.pollFds = [])
    : clientLoop host callbacks round server = .emit [] server := by
  have finished : ¬ Cursor.running ⟨server, 0⟩ := by simp [Cursor.running, empty]
  rw [clientLoop, serveClients, Reaction.runWhile_of_not_running finished]
  rfl

/-- Each iteration makes progress. -/
theorem Progress.step {fd : SOCKET} {other : Server Emulator} {trace events : List Event}
    {cursor next : Cursor Emulator} (sound : cursor.server.Sound)
    (progress : Progress host callbacks round fd other trace cursor) (runs : cursor.running)
    (goes : serveClient host callbacks round cursor = .emit events next)
    : Progress host callbacks round fd other (trace ++ events) next := by
  have here := List.getElem?_eq_getElem runs
  have front := List.drop_eq_getElem_cons runs
  generalize cursor.server.pollFds[cursor.i] = entry at here front
  have kept := (serveClient_sound host callbacks round sound runs (by rw [goes]; rfl)).1
  obtain ⟨carry, index, slot, spares⟩ :=
    serveClient_spares host callbacks round sound here goes
  by_cases apart : entry.fd = fd
  · subst apart
    cases progress with
    | behind run same mirrors earlier =>
        exact absurd rfl (earlier entry (front ▸ List.mem_cons_self))
    | ahead nothing mirrors later =>
        cases mirrors.facing with
        | gone nobody empty =>
            exact absurd (List.mem_map_of_mem (List.mem_of_getElem? here)) nobody
        | here own named member single place otherPlace ownSlot otherSlot alike =>
            have same : own = entry :=
              List.inj_on_of_nodup_map sound.polledOnce member (List.mem_of_getElem? here) named
            subst same
            have shows_ := serveClient_shows steady callbacks round sound mirrors.otherSound
              mirrors.socket here single ownSlot otherSlot alike
            rw [goes] at shows_
            generalize otherRun : serveClient host callbacks round ⟨other, 0⟩ = turn at shows_
            cases shows_ with
            | emit same related =>
                refine .behind (clientLoop_single callbacks round single otherRun related.2) ?_
                  related.1 (fun rest member => ?_)
                · rw [List.filter_append, nothing, List.nil_append]
                  exact same
                · have once := (sound.polledOnce).sublist
                    ((List.drop_sublist cursor.i cursor.server.pollFds).map PollFd.fd)
                  rw [front, List.map_cons] at once
                  intro equal
                  exact (List.nodup_cons.mp once).1
                    (equal ▸ List.mem_map_of_mem (spares.rest.subset member))
  · have silent : events.filter (Event.shows fd) = [] :=
      Event.shows_other (fun event member => carry event member ▸ apart)
    cases progress with
    | ahead nothing mirrors later =>
        refine .ahead ?_ (mirrors.spares spares kept slot apart) (fun own member => ?_)
        · rw [List.filter_append, nothing, silent, List.nil_append]
        · have different : own ≠ entry := by
            rintro rfl
            exact apart (mirrors.facing.named member)
          have there := later own member
          rw [front] at there
          exact spares.rest.symm.subset ((List.mem_cons.mp there).resolve_left different)
    | behind run same mirrors earlier =>
        refine .behind run ?_ (mirrors.spares spares kept slot apart) (fun rest member => ?_)
        · rw [List.filter_append, silent, List.append_nil]
          exact same
        · refine earlier rest ?_
          rw [front]
          exact List.mem_cons_of_mem _ (spares.rest.subset member)

/-- The whole loop shows what the loop of the second server shows. -/
theorem clientLoop_shows {fd : SOCKET} {server other : Server Emulator}
    (mirrors : Mirrors fd server other)
    : ServerTurn.Shows fd (clientLoop host callbacks round server)
        (clientLoop host callbacks round other) := by
  have loop
      : Reaction.Ensures
          (fun trace cursor =>
            (cursor.server.Sound ∧ Progress host callbacks round fd other trace cursor)
            ∧ ¬ cursor.running)
          (fun _ last => last.shutdown.OfConnection) []
          (serveClients host callbacks round server) := by
    refine .runWhile ?stuck ?each ⟨mirrors.sound, .ahead rfl mirrors ?later⟩
    case stuck => exact fun _ _ _ _ => trivial
    case later =>
      intro entry member
      cases mirrors.facing with
      | gone nobody empty =>
          rw [empty] at member
          cases member
      | here own named here single =>
          rw [single] at member
          exact List.mem_singleton.mp member ▸ here
    case each =>
      intro trace cursor _ kept runs
      rcases (serveClient host callbacks round cursor).cases_eq with
        ⟨events, next, goes⟩ | ⟨events, last, stops⟩
      · rw [goes]
        refine ⟨?_, kept.2.step steady callbacks round kept.1 runs goes⟩
        exact (serveClient_sound host callbacks round kept.1 runs (by rw [goes]; rfl)).1
      · rw [stops]
        exact serveClient_stops host callbacks round kept.1 runs (by rw [stops]; rfl)
  nth_rw 1 [clientLoop]
  generalize serveClients host callbacks round server = turn at loop
  rcases turn.cases_eq with ⟨events, cursor, rfl⟩ | ⟨events, last, rfl⟩
  · obtain ⟨⟨-, progress⟩, finished⟩ := loop
    have none_ : cursor.server.pollFds.drop cursor.i = [] :=
      List.drop_eq_nil_of_le (Nat.le_of_not_lt finished)
    simp only [Reaction.bind_eq, Reaction.emit_andThen, Reaction.pure_eq, Reaction.prepend_emit,
      List.append_nil]
    cases progress with
    | ahead nothing mirrors later =>
        have empty : other.pollFds = [] := by
          refine List.eq_nil_iff_forall_not_mem.mpr (fun entry member => ?_)
          have there := later entry member
          rw [none_] at there
          cases there
        rw [clientLoop_empty callbacks round empty]
        exact .emit nothing mirrors
    | behind run same mirrors =>
        rw [run]
        exact .emit same mirrors
  · exact .excuse loop

end Serving

-----------------------------------------------------------------------------------------
-- Rounds
-----------------------------------------------------------------------------------------

/-- The round as a server finds it to which nobody else connects. -/
def Round.alone (round : Round) : Round := {
  round with
  polled :=
    match round.polled with
    | .failed interrupted => .failed interrupted
    | .ready newClient revents => .ready (newClient && round.accepted.isNone) revents
}

/-- Both servers poll the connection alike. -/
theorem Mirrors.polled {fd : SOCKET} {server other : Server Emulator}
    (mirrors : Mirrors fd server other) (revents : SOCKET → Revents) (left right : Emulator)
    : Mirrors fd
        {
          server with
          pollFds := server.pollFds.map (fun entry => ⟨entry.fd, revents entry.fd⟩)
          emulator := left
        }
        {
          other with
          pollFds := other.pollFds.map (fun entry => ⟨entry.fd, revents entry.fd⟩)
          emulator := right
        } where
  sound := mirrors.sound.polled revents left
  otherSound := mirrors.otherSound.polled revents right
  socket := mirrors.socket
  facing := by
    cases mirrors.facing with
    | gone nobody empty =>
        refine .gone ?_ (by simp [empty])
        rw [List.map_map]
        exact nobody
    | here own named member single index place slot otherSlot alike =>
        refine .here ⟨own.fd, revents own.fd⟩ named ?_ (by simp [single]) index place slot
          otherSlot alike.steady
        exact List.mem_map.mpr ⟨own, member, rfl⟩

/-- A new connection of the first server changes nothing. -/
theorem Mirrors.add {fd added : SOCKET} {server other : Server Emulator}
    (mirrors : Mirrors fd server other) {index : Fin 5}
    (free : server.clients[index].socketFd = 0) (nonzero : added ≠ 0)
    (unused : added ∉ server.clients.tracked) (apart : added ≠ fd) (emulator : Emulator)
    : Mirrors fd
        {
          server with
          clients := server.clients.set index (server.clients[index].add added)
          pollFds := server.pollFds ++ [⟨added, .none⟩]
          emulator
        }
        other where
  sound := mirrors.sound.add free nonzero unused emulator
  otherSound := mirrors.otherSound
  socket := mirrors.socket
  facing := by
    cases mirrors.facing with
    | gone nobody empty =>
        refine .gone ?_ empty
        simpa [Ne.symm apart] using nobody
    | here own named member single place otherPlace slot otherSlot alike =>
        have taken : fd ≠ 0 := named ▸ (mirrors.sound.slot member).1
        have differ : index ≠ place := by
          rintro rfl
          exact taken (slot.symm.trans free)
        have unchanged := server.clients.set_other differ (server.clients[index].add added)
        refine .here own named (List.mem_append_left _ member) single place otherPlace ?_
          otherSlot ?_
        · rw [unchanged]
          exact slot
        · rw [Server.slot, unchanged]
          exact alike.steady

/-- A new connection shows nothing of the one that is observed. -/
theorem acceptClient_shows (callbacks : Callbacks Emulator) {fd added : SOCKET}
    {server other : Server Emulator} (mirrors : Mirrors fd server other)
    (nonzero : added ≠ 0) (unused : added ∉ server.clients.tracked) (apart : added ≠ fd)
    : ServerTurn.Shows fd (acceptClient callbacks (some added) server) (.emit [] other) := by
  rw [acceptClient]
  rcases addToClients_cases server.clients added with full | ⟨index, free, added_⟩
  · rw [full]
    refine .emit (Event.shows_other ?_) mirrors
    exact List.forall_mem_cons.mpr ⟨apart, List.forall_mem_singleton.mpr apart⟩
  · rw [added_]
    dsimp only
    rw [if_pos (mirrors.sound.room free)]
    refine .emit (Event.shows_other ?_) (mirrors.add free nonzero unused apart _)
    refine List.forall_mem_cons.mpr ⟨apart, ?_⟩
    cases callbacks.addClient with
    | none => exact List.forall_mem_nil _
    | some function => exact List.forall_mem_singleton.mpr apart

/-- Whether the connection is tracked shows in both servers. -/
theorem Mirrors.tracked_iff {fd : SOCKET} {server other : Server Emulator}
    (mirrors : Mirrors fd server other)
    : fd ∈ server.clients.tracked ↔ fd ∈ other.clients.tracked := by
  rw [← mirrors.sound.tracked.mem_iff, ← mirrors.otherSound.tracked.mem_iff]
  cases mirrors.facing with
  | gone nobody empty => simp [nobody, empty]
  | here own named member single =>
      subst named
      simp [List.mem_map_of_mem member, single]

/-- A descriptor that is tracked once is closed once. -/
theorem closed_shows {fds : List SOCKET} (once : fds.Nodup) (fd : SOCKET)
    : (fds.map Event.closed).filter (Event.shows fd)
      = if fd ∈ fds then [.closed fd] else [] := by
  induction fds with
  | nil => rfl
  | cons first rest ih =>
      obtain ⟨fresh, once⟩ := List.nodup_cons.mp once
      rw [List.map_cons, List.filter_cons, ih once]
      by_cases same : first = fd
      · subst same
        simp [Event.shows, Event.observable, Event.socket, fresh]
      · simp [Event.shows, Event.socket, same, Ne.symm same]

/-- Both servers stop alike. -/
theorem stopServer_shows {fd : SOCKET} {server other : Server Emulator}
    (mirrors : Mirrors fd server other)
    : ServerTurn.Shows fd (stopServer server) (stopServer other) := by
  rw [stopServer, stopServer]
  refine .stop ?_ rfl
  show (server.clients.tracked.map Event.closed ++ _).filter _
    = (other.clients.tracked.map Event.closed ++ _).filter _
  rw [List.filter_append, List.filter_append, closed_shows mirrors.sound.distinct,
    closed_shows mirrors.otherSound.distinct, mirrors.socket]
  simp only [mirrors.tracked_iff]

/-- What precedes the client loop shows the same. -/
theorem beginRound_shows (callbacks : Callbacks Emulator) {fd : SOCKET} {round : Round}
    {server other : Server Emulator} (mirrors : Mirrors fd server other)
    (fresh : round.Fresh server) (apart : round.accepted ≠ some fd)
    : ServerTurn.Shows fd (beginRound callbacks round server)
        (beginRound callbacks round.alone other) := by
  obtain ⟨stop, polled, accepted, read⟩ := round
  cases stop with
  | true => exact stopServer_shows mirrors
  | false =>
      cases polled with
      | failed interrupted => exact .stop rfl rfl
      | ready newClient revents =>
          cases newClient with
          | false => exact .emit rfl (mirrors.polled revents _ _)
          | true =>
              cases accepted with
              | none => exact .stop rfl rfl
              | some added =>
                  obtain ⟨nonzero, unused⟩ := fresh added rfl
                  exact acceptClient_shows callbacks (mirrors.polled revents _ _) nonzero unused
                    (fun same => apart (congrArg some same))

/-- A round shows the same. -/
theorem pollRound_shows {host : Host Emulator} (steady : host.Steady)
    (callbacks : Callbacks Emulator) {fd : SOCKET} {round : Round}
    {server other : Server Emulator} (mirrors : Mirrors fd server other)
    (fresh : round.Fresh server) (apart : round.accepted ≠ some fd)
    : ServerTurn.Shows fd (pollRound host callbacks server round)
        (pollRound host callbacks other round.alone) :=
  (beginRound_shows callbacks mirrors fresh apart).andThen
    (fun _ _ mirrors => clientLoop_shows steady callbacks round mirrors)

end NetworkAccess
