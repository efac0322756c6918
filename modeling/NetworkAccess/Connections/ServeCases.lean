import NetworkAccess.Connections.Attend
import NetworkAccess.Connections.ClientTable

/-! Everything one iteration of the client loop can do when the client table and the poll set
agree.
-/

namespace NetworkAccess

variable {Emulator : Type}

/-- The poll set holds the descriptors of the taken slots, each exactly once. -/
structure Server.Agrees (server : Server Emulator) : Prop where
  tracked : (server.pollFds.map PollFd.fd).Perm server.clients.tracked
  distinct : server.clients.tracked.Nodup

/-- The slots that are taken are well-formed, too. -/
structure Server.Sound (server : Server Emulator) : Prop extends Server.Agrees server where
  formed
    : ∀ index : Fin 5,
        server.clients[index].socketFd ≠ 0 → server.clients[index].WellFormed

/-- What serving the connection of a slot begins with. -/
def Server.slot (server : Server Emulator) (index : Fin 5) : Client × Emulator :=
  (server.clients[index], server.emulator)

/-- An entry of the poll set has its own slot. -/
theorem Server.Agrees.slot {server : Server Emulator} (agrees : server.Agrees)
    {entry : PollFd} (member : entry ∈ server.pollFds)
    : entry.fd ≠ 0 ∧ ∃ index : Fin 5, server.clients[index].socketFd = entry.fd :=
  Clients.mem_tracked.mp (agrees.tracked.subset (List.mem_map_of_mem member))

/-- `get_client` finds the only slot of a tracked descriptor. -/
theorem Server.Agrees.getClient {server : Server Emulator} (agrees : server.Agrees)
    {index : Fin 5} (taken : server.clients[index].socketFd ≠ 0)
    : NetworkAccess.getClient server.clients server.clients[index].socketFd = some index :=
  server.clients.firstSlot_of_taken agrees.distinct taken

/-- No descriptor is polled twice. -/
theorem Server.Agrees.polledOnce {server : Server Emulator} (agrees : server.Agrees)
    : (server.pollFds.map PollFd.fd).Nodup :=
  agrees.tracked.nodup_iff.mpr agrees.distinct

/-- An entry that is removed leaves no other one with its descriptor. -/
theorem Server.Agrees.removed {server : Server Emulator} (agrees : server.Agrees)
    {entry : PollFd} {i : Nat} (here : server.pollFds[i]? = some entry)
    : entry.fd ∉ (swapRemove server.pollFds i).map PollFd.fd := by
  have once := ((swapRemove_perm here).map PollFd.fd).nodup_iff.mpr agrees.polledOnce
  exact (List.nodup_cons.mp once).1

-----------------------------------------------------------------------------------------
-- The cases
-----------------------------------------------------------------------------------------

/-- The cursor after the client in a slot, which now holds `client`, was removed. -/
def Cursor.drop (cursor : Cursor Emulator) (callbacks : Callbacks Emulator) (index : Fin 5)
    (client : Client) (fd : SOCKET) (emulator : Emulator)
    : Cursor Emulator := {
  cursor with
  server := {
    cursor.server with
    clients := cursor.server.clients.set index client.remove
    pollFds := swapRemove cursor.server.pollFds cursor.i
    emulator := (notify callbacks.removeClient (.clientRemoved fd) fd emulator).2
  }
}

/-- The events of such a removal. -/
def removal (callbacks : Callbacks Emulator) (client : Client) (fd : SOCKET)
    (emulator : Emulator)
    : List Event :=
  client.freed fd ++ (notify callbacks.removeClient (.clientRemoved fd) fd emulator).1

/-- The events of a removal carry the descriptor that is removed. -/
theorem removal_socket {callbacks : Callbacks Emulator} {client : Client} {fd : SOCKET}
    {emulator : Emulator} {event : Event}
    (member : event ∈ removal callbacks client fd emulator)
    : event.socket = fd := by
  rcases List.mem_append.mp member with freed | notified
  · rw [Client.freed] at freed
    split at freed
    case isTrue => rw [List.mem_singleton.mp freed, Event.socket]
    case isFalse => cases freed
  · cases callback : callbacks.removeClient with
    | none =>
        rw [callback] at notified
        cases notified
    | some function =>
        rw [callback] at notified
        rw [List.mem_singleton.mp notified, Event.socket]

/-- The cursor after the client in a slot was served and stays. -/
def Cursor.keep (cursor : Cursor Emulator) (index : Fin 5) (client : Client)
    (emulator : Emulator)
    : Cursor Emulator := {
  server := {
    cursor.server with
    clients := cursor.server.clients.set index client
    emulator
  }
  i := cursor.i + 1
}

/-- Everything one iteration of the client loop can do for the entry that is served next. -/
inductive ServeCase (host : Host Emulator) (callbacks : Callbacks Emulator) (round : Round)
    (cursor : Cursor Emulator) (entry : PollFd) (index : Fin 5)
    : ServerTurn Emulator (Cursor Emulator) → Prop
  | stays {events client emulator}
    (attended
      : attend host entry.revents (round.read entry.fd) (cursor.server.slot index)
        = .emit events ⟨true, client, emulator⟩)
    : ServeCase host callbacks round cursor entry index
        (.emit events (cursor.keep index client emulator))
  | leaves {events client emulator}
    (attended
      : attend host entry.revents (round.read entry.fd) (cursor.server.slot index)
        = .emit events ⟨false, client, emulator⟩)
    : ServeCase host callbacks round cursor entry index
        (.emit (events ++ removal callbacks client entry.fd emulator)
          (cursor.drop callbacks index client entry.fd emulator))
  | fails {events shutdown server}
    (attended
      : attend host entry.revents (round.read entry.fd) (cursor.server.slot index)
        = .stop events shutdown)
    : ServeCase host callbacks round cursor entry index (.stop events ⟨shutdown, server⟩)

/-- Removing the client of an entry empties its slot, also after the slot was written. -/
theorem dropClient_eq (callbacks : Callbacks Emulator) {cursor : Cursor Emulator}
    (agrees : cursor.server.Agrees) {index : Fin 5}
    (taken : cursor.server.clients[index].socketFd ≠ 0) {client : Client}
    (same : client.socketFd = cursor.server.clients[index].socketFd) (emulator : Emulator)
    : let fd := cursor.server.clients[index].socketFd
      dropClient callbacks fd
        {
          cursor with
          server := {
            cursor.server with
            clients := cursor.server.clients.set index client
            emulator
          }
        }
        = .emit (removal callbacks client fd emulator)
            (cursor.drop callbacks index client fd emulator) := by
  intro fd
  have here : (cursor.server.clients.set index client)[index] = client :=
    Clients.set_here _ _ _
  have found : firstSlot (cursor.server.clients.set index client) fd = some index := by
    have distinct := agrees.distinct
    rw [← Clients.tracked_set_same same] at distinct
    have first := Clients.firstSlot_of_taken distinct (by rw [here, same]; exact taken)
    rw [here, same] at first
    exact first
  rw [dropClient, removeClient]
  simp only [found, here, Clients.set_set, Reaction.bind_eq, Reaction.pure_eq,
    Reaction.emit_andThen, Reaction.prepend_emit, List.append_nil]
  rfl

/-- Removing the client of an entry that was not written before. -/
theorem dropClient_unchanged (callbacks : Callbacks Emulator) {cursor : Cursor Emulator}
    (agrees : cursor.server.Agrees) {index : Fin 5}
    (taken : cursor.server.clients[index].socketFd ≠ 0)
    : let fd := cursor.server.clients[index].socketFd
      let client := cursor.server.clients[index]
      dropClient callbacks fd cursor
        = .emit (removal callbacks client fd cursor.server.emulator)
            (cursor.drop callbacks index client fd cursor.server.emulator) := by
  have eq := dropClient_eq callbacks agrees taken rfl cursor.server.emulator
  have here : cursor.server.clients.set index cursor.server.clients[index]
      = cursor.server.clients :=
    Clients.set_same _ _
  rw [here] at eq
  exact eq

/-- `read_client_data` does with bytes what follows for the connection. -/
theorem readClientData_some (host : Host Emulator) {server : Server Emulator} {fd : SOCKET}
    {index : Fin 5} (found : getClient server.clients fd = some index) (read : ClientRead)
    : (∃ events attended,
        settle fd (feedRead host (server.slot index) read) = .emit events attended
        ∧ readClientData host fd (some read) server
          = .emit events
              (
                attended.stays,
                {
                  server with
                  clients := server.clients.set index attended.client
                  emulator := attended.emulator
                }
              ))
      ∨ ∃ events shutdown final,
          settle fd (feedRead host (server.slot index) read) = .stop events shutdown
          ∧ readClientData host fd (some read) server = .stop events ⟨shutdown, final⟩ := by
  simp only [readClientData, found, Server.slot]
  rcases (feedRead host (server.clients[index], server.emulator) read).cases_eq with
    ⟨events, ⟨client, emulator⟩, run⟩ | ⟨events, ⟨ending, last⟩, run⟩
  · rw [run]
    exact Or.inl ⟨events, ⟨true, client, emulator⟩, rfl, rfl⟩
  · rw [run]
    cases ending with
    | rejected => exact Or.inl ⟨_, ⟨false, last.client, last.emulator⟩, rfl, rfl⟩
    | undefined fault => exact Or.inr ⟨events, .undefined fault, _, rfl, rfl⟩
    | spinning => exact Or.inr ⟨events, .spinning, _, rfl, rfl⟩

/-- An iteration is one of these cases. -/
theorem serveClient_cases (host : Host Emulator) (callbacks : Callbacks Emulator)
    (round : Round) {cursor : Cursor Emulator} (sound : cursor.server.Sound)
    {entry : PollFd} (here : cursor.server.pollFds[cursor.i]? = some entry)
    : ∃ index : Fin 5,
        cursor.server.clients[index].socketFd = entry.fd
        ∧ cursor.server.clients[index].socketFd ≠ 0
        ∧ ServeCase host callbacks round cursor entry index
            (serveClient host callbacks round cursor) := by
  obtain ⟨nonzero, index, slot⟩ := sound.slot (List.mem_of_getElem? here)
  have taken : cursor.server.clients[index].socketFd ≠ 0 := slot ▸ nonzero
  have drops := dropClient_unchanged callbacks sound.toAgrees taken
  have unchanged : cursor.keep index cursor.server.clients[index] cursor.server.emulator
      = { cursor with i := cursor.i + 1 } := by
    have same : cursor.server.clients.set index cursor.server.clients[index]
        = cursor.server.clients :=
      Clients.set_same _ _
    rw [Cursor.keep, same]
  rw [slot] at drops
  refine ⟨index, slot, taken, ?_⟩
  rw [serveClient, here]
  dsimp only
  by_cases down : entry.revents.pollErr ∨ entry.revents.pollHup
  · rw [if_pos down, drops]
    exact .leaves (attend_down host _ _ down)
  rw [if_neg down]
  cases ready : entry.revents.pollIn with
  | false =>
      rw [if_neg Bool.false_ne_true, Reaction.pure_eq, ← unchanged]
      exact .stays (attend_quiet host _ _ down ready)
  | true =>
      have attended := attend_ready host (cursor.server.slot index) down ready
      rw [if_pos rfl]
      cases bytes : round.read entry.fd with
      | none =>
          rw [readClientData]
          simp only [Reaction.pure_eq, Reaction.bind_eq, Reaction.emit_andThen,
            Reaction.prepend_nil, Bool.false_eq_true, if_false]
          rw [drops]
          rw [← bytes] at attended
          exact .leaves attended.1
      | some read =>
          have found := sound.toAgrees.getClient taken
          have attended := attended.2 read
          rw [slot] at found
          rw [← bytes, show (cursor.server.slot index).1.socketFd = entry.fd from slot] at attended
          rcases readClientData_some host found read with
            ⟨events, ⟨stays, client, emulator⟩, turn, answer⟩
            | ⟨events, shutdown, final, turn, answer⟩
          · rw [turn] at attended
            rw [answer, Reaction.bind_eq, Reaction.emit_andThen]
            cases stays with
            | true =>
                rw [if_pos rfl, Reaction.pure_eq, Reaction.prepend_emit, List.append_nil]
                exact .stays attended
            | false =>
                have kept := attend_kept host (sound.formed index taken)
                  (congrArg Reaction.result attended)
                have drops := dropClient_eq callbacks sound.toAgrees taken kept.1 emulator
                rw [slot] at drops
                rw [if_neg Bool.false_ne_true, drops, Reaction.prepend_emit]
                exact .leaves attended
          · rw [turn] at attended
            rw [answer, Reaction.bind_eq, Reaction.stop_andThen]
            exact .fails attended

end NetworkAccess
