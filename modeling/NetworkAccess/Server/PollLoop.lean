import NetworkAccess.Library.SwapRemove
import NetworkAccess.Library.WhileLoop
import NetworkAccess.Server.Preprocess

/-! `generic_poll_server_start` from the moment it listens: the client table, the poll set
and the loop around `poll`. What the operating system answers is given from outside, one
round of the loop at a time.
-/

namespace NetworkAccess

variable {Emulator : Type}

/-- The bits of `revents` that the loop tests. -/
structure Revents where
  pollIn : Bool
  pollErr : Bool
  pollHup : Bool
deriving DecidableEq, Repr

/-- No event. -/
def Revents.none : Revents := ⟨false, false, false⟩

/-- An entry of `poll_fds`. -/
structure PollFd where
  fd : SOCKET
  revents : Revents
deriving DecidableEq, Repr

/-- The callbacks that the loop calls; a missing one is `NULL`. -/
structure Callbacks (Emulator : Type) where
  addClient : Option (SOCKET → Emulator → Emulator)
  removeClient : Option (SOCKET → Emulator → Emulator)
  afterPoll : Option (Emulator → Emulator)

/-- A callback is called, which can be observed, if there is one. -/
def notify (callback : Option (SOCKET → Emulator → Emulator)) (event : Event) (fd : SOCKET)
    (emulator : Emulator)
    : List Event × Emulator :=
  match callback with
  | none => ([], emulator)
  | some function => ([event], function fd emulator)

/-- The five static slots. -/
abbrev Clients := Vector Client 5

/-- Each position is in the table. -/
instance : GetElem Clients (Fin 5) Client (fun _ _ => True) :=
  ⟨fun clients index _ => clients.get index⟩

/-- The table with one slot changed. -/
def Clients.set (clients : Clients) (index : Fin 5) (client : Client) : Clients :=
  Vector.set clients index client

/-- `pollFds` holds `poll_fds[1..poll_fds_count)`; `poll_fds[0]` is the server socket. -/
structure Server (Emulator : Type) where
  serverSocket : SOCKET
  clients : Clients
  pollFds : List PollFd
  emulator : Emulator

/-- The variable `poll_fds_count`. -/
def Server.pollFdsCount (server : Server Emulator) : Nat := server.pollFds.length + 1

/-- How the loop ends: it returns, or something in it never comes back in a defined way. -/
inductive Shutdown where
  | returned (value : Bool)
  | undefined (fault : Fault)
  | spinning
deriving DecidableEq, Repr

/-- A server that has stopped, and why. -/
structure Halted (Emulator : Type) where
  shutdown : Shutdown
  server : Server Emulator

/-- A part of the loop: it goes on, or the server stops in it. -/
abbrev ServerTurn (Emulator State : Type) := Reaction Event (Halted Emulator) State

/-- What `poll` returned, with the events of the server socket and of the clients. -/
inductive Polled where
  | failed (interrupted : Bool)
  | ready (newClient : Bool) (revents : SOCKET → Revents)

/-- What one round of the loop finds: whether it was asked to stop, the answers of `poll` and
`accept`, and for each descriptor the bytes of a successful `read`.
-/
structure Round where
  stop : Bool
  polled : Polled
  accepted : Option SOCKET
  read : SOCKET → Option ClientRead

-----------------------------------------------------------------------------------------
-- The client table
-----------------------------------------------------------------------------------------

/-- The loop that the functions of the client table share: the first slot with `fd`. -/
def firstSlot (clients : Clients) (fd : SOCKET) : Option (Fin 5) :=
  (List.finRange 5).find? (fun index => clients[index].socketFd = fd)

/-- `get_client`; a missing slot is `NULL`. -/
def getClient (clients : Clients) (fd : SOCKET) : Option (Fin 5) := firstSlot clients fd

/-- `add_to_clients`, which fails when no slot is free. -/
def addToClients (clients : Clients) (fd : SOCKET) : Option Clients :=
  (firstSlot clients 0).map (fun (index : Fin 5) => clients.set index (clients[index].add fd))

/-- The block that is freed with a slot. -/
def Client.freed (client : Client) (fd : SOCKET) : List Event :=
  if client.binaryBlock.isSome then [.blockReleased fd] else []

/-- `remove_client`. -/
def removeClient (callbacks : Callbacks Emulator) (fd : SOCKET) (server : Server Emulator)
    : ServerTurn Emulator (Server Emulator) :=
  match firstSlot server.clients fd with
  | none => pure server
  | some index =>
      let client := server.clients[index]
      let notified := notify callbacks.removeClient (.clientRemoved fd) fd server.emulator
      .emit (client.freed fd ++ notified.1)
        {
          server with
          clients := server.clients.set index client.remove
          emulator := notified.2
        }

-----------------------------------------------------------------------------------------
-- One client
-----------------------------------------------------------------------------------------

/-- `read_client_data`, with the answer of `read`; it returns whether the client stays. -/
def readClientData (host : Host Emulator) (fd : SOCKET) (answer : Option ClientRead)
    (server : Server Emulator)
    : ServerTurn Emulator (Bool × Server Emulator) :=
  let client := getClient server.clients fd
  match answer with
  | none => pure (false, server)
  | some read =>
      match client with
      | none => .stop [] ⟨.undefined .nullClient, server⟩
      | some index =>
          let update (client : Client) (emulator : Emulator) : Server Emulator :=
            { server with clients := server.clients.set index client, emulator }
          let turn := feedRead host (server.clients[index], server.emulator) read
          match turn.result with
          | .ok (client, emulator) => .emit turn.emitted (true, update client emulator)
          | .error ⟨.rejected, last⟩ =>
              .emit (turn.emitted ++ [.closed fd]) (false, update last.client last.emulator)
          | .error ⟨.undefined fault, last⟩ =>
              .stop turn.emitted ⟨.undefined fault, update last.client last.emulator⟩
          | .error ⟨.spinning, last⟩ =>
              .stop turn.emitted ⟨.spinning, update last.client last.emulator⟩

/-- A point of the client loop: `poll_fds[i + 1]` is served next. -/
structure Cursor (Emulator : Type) where
  server : Server Emulator
  i : Nat

/-- The condition of the client loop. -/
def Cursor.running (cursor : Cursor Emulator) : Prop := cursor.i < cursor.server.pollFds.length

instance : DecidablePred (Cursor.running : Cursor Emulator → Prop) :=
  fun cursor => inferInstanceAs (Decidable (cursor.i < _))

/-- An entry whose client is removed; the last entry takes its place and is served next. -/
def dropClient (callbacks : Callbacks Emulator) (fd : SOCKET) (cursor : Cursor Emulator)
    : ServerTurn Emulator (Cursor Emulator) := do
  let server ← removeClient callbacks fd cursor.server
  pure {
    cursor with
    server := { server with pollFds := swapRemove server.pollFds cursor.i }
  }

/-- One iteration of the client loop. -/
def serveClient (host : Host Emulator) (callbacks : Callbacks Emulator) (round : Round)
    (cursor : Cursor Emulator)
    : ServerTurn Emulator (Cursor Emulator) :=
  match cursor.server.pollFds[cursor.i]? with
  | none => pure cursor
  | some entry =>
      if entry.revents.pollErr ∨ entry.revents.pollHup then
        dropClient callbacks entry.fd cursor
      else if entry.revents.pollIn then do
        let (stays, server) ← readClientData host entry.fd (round.read entry.fd) cursor.server
        if stays then
          pure ⟨server, cursor.i + 1⟩
        else
          dropClient callbacks entry.fd { cursor with server }
      else
        pure { cursor with i := cursor.i + 1 }

/-- The iterations of the client loop. Every one takes one entry off the rest of the poll set,
so the fuel is enough (`serveClients_ends`).
-/
def serveClients (host : Host Emulator) (callbacks : Callbacks Emulator) (round : Round)
    (server : Server Emulator)
    : ServerTurn Emulator (Cursor Emulator) :=
  Reaction.runWhile (serveClient host callbacks round) Cursor.running
    (fun cursor => ⟨.spinning, cursor.server⟩) (server.pollFds.length + 1) ⟨server, 0⟩

/-- The client loop. -/
def clientLoop (host : Host Emulator) (callbacks : Callbacks Emulator) (round : Round)
    (server : Server Emulator)
    : ServerTurn Emulator (Server Emulator) := do
  let cursor ← serveClients host callbacks round server
  pure cursor.server

-----------------------------------------------------------------------------------------
-- One round
-----------------------------------------------------------------------------------------

/-- A stop request: the server closes what it tracks and returns `true`. -/
def stopServer (server : Server Emulator) : ServerTurn Emulator (Server Emulator) :=
  let open_ := (server.clients.toList.map Client.socketFd).filter (· ≠ 0)
  .stop (open_.map .closed ++ [.closed server.serverSocket])
    ⟨
      .returned true,
      { server with clients := server.clients.map (fun client => { client with socketFd := 0 }) }
    ⟩

/-- A new connection; the server gives up when `accept` fails and closes the socket when no
slot is free.
-/
def acceptClient (callbacks : Callbacks Emulator) (accepted : Option SOCKET)
    (server : Server Emulator)
    : ServerTurn Emulator (Server Emulator) :=
  match accepted with
  | none => .stop [] ⟨.returned false, server⟩
  | some fd =>
      match addToClients server.clients fd with
      | none => .emit [.accepted fd, .closed fd] server
      | some clients =>
          if server.pollFdsCount < 6 then
            let notified := notify callbacks.addClient (.clientAdded fd) fd server.emulator
            .emit (.accepted fd :: notified.1)
              {
                server with
                clients
                pollFds := server.pollFds ++ [⟨fd, .none⟩]
                emulator := notified.2
              }
          else
            .stop [.accepted fd] ⟨.undefined .pollOverflow, { server with clients }⟩

/-- A round up to the client loop: the stop request, `poll` and the new connection. -/
def beginRound (callbacks : Callbacks Emulator) (round : Round) (server : Server Emulator)
    : ServerTurn Emulator (Server Emulator) :=
  if round.stop then
    stopServer server
  else
    let emulator :=
      match callbacks.afterPoll with
      | none => server.emulator
      | some callback => callback server.emulator
    match round.polled with
    | .failed interrupted => .stop [] ⟨.returned interrupted, { server with emulator }⟩
    | .ready newClient revents =>
        let pollFds := server.pollFds.map (fun entry => ⟨entry.fd, revents entry.fd⟩)
        let server := { server with pollFds, emulator }
        if newClient then
          acceptClient callbacks round.accepted server
        else
          pure server

/-- One iteration of the loop around `poll`. -/
def pollRound (host : Host Emulator) (callbacks : Callbacks Emulator)
    (server : Server Emulator) (round : Round)
    : ServerTurn Emulator (Server Emulator) := do
  let server ← beginRound callbacks round server
  clientLoop host callbacks round server

/-- The loop around `poll` over successive rounds. -/
def pollRounds (host : Host Emulator) (callbacks : Callbacks Emulator)
    (server : Server Emulator) (rounds : List Round)
    : ServerTurn Emulator (Server Emulator) :=
  rounds.foldlM (pollRound host callbacks) server

/-- The state in which the loop is entered: no slot is taken, whatever the slots hold, and
the poll set has the server socket only.
-/
def Server.listening (serverSocket : SOCKET) (clients : Clients) (emulator : Emulator)
    : Server Emulator := {
  serverSocket
  clients := clients.map (fun client => { client with socketFd := 0 })
  pollFds := []
  emulator
}

/-- `generic_poll_server_start` once it listens. -/
def genericPollServerStart (host : Host Emulator) (callbacks : Callbacks Emulator)
    (serverSocket : SOCKET) (clients : Clients) (emulator : Emulator) (rounds : List Round)
    : ServerTurn Emulator (Server Emulator) :=
  pollRounds host callbacks (.listening serverSocket clients emulator) rounds

end NetworkAccess
