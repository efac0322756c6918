import Mathlib.Data.Finset.Card
import NetworkAccess.Connections.Hub
import NetworkAccess.Connections.PollSet
import NetworkAccess.Library.Sweep

/-! The client table, the poll set and the client loop do what a hub does: an entry of the poll
set is served by one step of the hub.
-/

namespace NetworkAccess

variable {Emulator : Type}

-----------------------------------------------------------------------------------------
-- The client table
-----------------------------------------------------------------------------------------

/-- The readers of the slots that are taken. -/
def Clients.ReadBy (clients : Clients) (readers : Finmap (fun _ : SOCKET => Parser)) : Prop :=
  ∀ fd reader,
    readers.lookup fd = some reader
    ↔ fd ≠ 0 ∧ ∃ index : Fin 5, clients[index].socketFd = fd ∧ clients[index].parser = reader

namespace Clients.ReadBy

variable {clients : Clients} {readers : Finmap (fun _ : SOCKET => Parser)}
  (readBy : clients.ReadBy readers)
include readBy

/-- A connection has a reader exactly if the table tracks it. -/
theorem mem_iff {fd : SOCKET} : fd ∈ readers ↔ fd ∈ clients.tracked := by
  rw [Finmap.mem_iff, Clients.mem_tracked]
  constructor
  · rintro ⟨reader, here⟩
    obtain ⟨nonzero, index, same, -⟩ := (readBy fd reader).mp here
    exact ⟨nonzero, index, same⟩
  · rintro ⟨nonzero, index, same⟩
    exact ⟨clients[index].parser, (readBy fd _).mpr ⟨nonzero, index, same, rfl⟩⟩

/-- The reader of a slot that is taken is the one that the slot stands for. -/
theorem lookup {index : Fin 5} (taken : clients[index].socketFd ≠ 0)
    : readers.lookup clients[index].socketFd = some clients[index].parser :=
  (readBy _ _).mpr ⟨taken, index, rfl, rfl⟩

/-- There are as many readers as the table tracks descriptors. -/
theorem card (distinct : clients.tracked.Nodup) : readers.keys.card = clients.tracked.length := by
  have same : readers.keys = clients.tracked.toFinset := by
    ext fd
    rw [Finmap.mem_keys, List.mem_toFinset, readBy.mem_iff]
  rw [same, List.toFinset_card_of_nodup distinct]

/-- A slot is written whose descriptor no other slot has. -/
theorem write {index : Fin 5} {client : Client} (nonzero : client.socketFd ≠ 0)
    (before : clients[index].socketFd = 0 ∨ clients[index].socketFd = client.socketFd)
    (apart : ∀ other : Fin 5, index ≠ other → clients[other].socketFd ≠ client.socketFd)
    : Clients.ReadBy (clients.set index client)
        (readers.insert client.socketFd client.parser) := by
  intro fd reader
  by_cases here : fd = client.socketFd
  · subst here
    rw [Finmap.lookup_insert]
    constructor
    · rintro ⟨⟩
      exact ⟨nonzero, index, by rw [clients.set_here], by rw [clients.set_here]⟩
    · rintro ⟨-, other, same, parser⟩
      by_cases there : index = other
      · subst there
        rw [clients.set_here] at parser
        rw [parser]
      · rw [clients.set_other there] at same
        exact absurd same (apart other there)
  · rw [Finmap.lookup_insert_of_ne _ here, readBy fd reader]
    refine and_congr_right (fun known => exists_congr (fun other => ?_))
    by_cases there : index = other
    · subst there
      rw [clients.set_here]
      refine iff_of_false (fun both => ?_) (fun both => here both.1.symm)
      rcases before with free | same
      · exact known (both.1.symm.trans free)
      · exact here (both.1.symm.trans same)
    · rw [clients.set_other there]

/-- A slot is freed. -/
theorem free (distinct : clients.tracked.Nodup) {index : Fin 5}
    (taken : clients[index].socketFd ≠ 0) {client : Client} (freed : client.socketFd = 0)
    : Clients.ReadBy (clients.set index client) (readers.erase clients[index].socketFd) := by
  intro fd reader
  by_cases here : fd = clients[index].socketFd
  · subst here
    rw [Finmap.lookup_erase]
    refine iff_of_false (fun open_ => by cases open_) ?_
    rintro ⟨-, other, same, -⟩
    by_cases there : index = other
    · subst there
      rw [clients.set_here] at same
      exact taken (same.symm.trans freed)
    · rw [clients.set_other there] at same
      exact there (clients.unique distinct same.symm taken)
  · rw [Finmap.lookup_erase_ne here, readBy fd reader]
    refine and_congr_right (fun known => exists_congr (fun other => ?_))
    by_cases there : index = other
    · subst there
      rw [clients.set_here]
      refine iff_of_false (fun both => here both.1.symm) (fun both => known ?_)
      exact both.1.symm.trans freed
    · rw [clients.set_other there]

end Clients.ReadBy

/-- The hub has the emulator and the readers of the server. -/
structure Hub.Describes (hub : Hub Emulator) (server : Server Emulator) : Prop where
  emulator : hub.emulator = server.emulator
  readers : server.clients.ReadBy hub.readers

-----------------------------------------------------------------------------------------
-- One connection
-----------------------------------------------------------------------------------------

/-- A slot holds a block exactly while its reader is inside of one. -/
theorem Client.WellFormed.freed_eq {client : Client} (formed : client.WellFormed) (fd : SOCKET)
    : client.freed fd = if client.parser.phase.holdsBlock then [.blockReleased fd] else [] := by
  have holds : client.binaryBlock.isSome = client.parser.phase.holdsBlock := by
    simp only [Client.parser, Client.phase]
    cases state : client.state with
    | waitingForCommand => rw [(formed.waiting state).2.1]; rfl
    | gettingCommand => rw [(formed.line state).2.noBlock]; rfl
    | expectingBinaryData => rw [(formed.expecting state).2.2.2]; rfl
    | gettingBinaryData =>
        have stored := formed.block state
        by_cases short : client.binaryHeaderSize < 5
        · simp only [if_pos short, stored.noBlock short]
          rfl
        · have header := stored.header
          obtain ⟨block, here, -⟩ := stored.block (by omega)
          simp only [if_neg short, here]
          rfl
  rw [Client.freed, holds]

/-- What is done for a connection is what is due for it. -/
theorem attend_due (host : Host Emulator) (revents : Revents) (answer : Option ClientRead)
    (state : Client × Emulator) (fd : SOCKET)
    : (dueAction revents answer fd = none
        ∧ attend host revents answer state = .emit [] ⟨true, state.1, state.2⟩)
      ∨ (dueAction revents answer fd = some (.leaves fd)
        ∧ attend host revents answer state = .emit [] ⟨false, state.1, state.2⟩)
      ∨ ∃ read,
          dueAction revents answer fd = some (.receives fd read.bytes)
          ∧ attend host revents answer state
            = settle state.1.socketFd (feedRead host state read) := by
  by_cases down : revents.pollErr ∨ revents.pollHup
  · exact Or.inr (Or.inl ⟨if_pos down, attend_down host answer state down⟩)
  cases ready : revents.pollIn with
  | false =>
      refine Or.inl ⟨?_, attend_quiet host answer state down ready⟩
      simp only [dueAction, if_neg down, ready, Bool.false_eq_true, if_false]
  | true =>
      have attended := attend_ready host state down ready
      cases answer with
      | none =>
          refine Or.inr (Or.inl ⟨?_, attended.1⟩)
          simp only [dueAction, if_neg down, if_pos ready]
      | some read =>
          refine Or.inr (Or.inr ⟨read, ?_, attended.2 read⟩)
          simp only [dueAction, if_neg down, if_pos ready]

/-- A read that does not end in undefined behaviour is what the reader reads. -/
theorem feedRead_readBytes {host : Host Emulator} {state : Client × Emulator} {read : ClientRead}
    (formed : state.1.WellFormed)
    (defined
      : ∀ fault last, (feedRead host state read).result ≠ .error ⟨.undefined fault, last⟩)
    : (feedRead host state read).project readerOf Stopped.final
      = Parser.readBytes host (readerOf state) read.bytes := by
  refine (feedRead_readsAs host).agrees state read formed (fun surplus => ?_)
  rw [feedRead_of_surplus host formed surplus] at defined
  exact defined _ _ rfl

/-- The last event of a refused read tells whether a block is released with its client. -/
theorem freed_of_rejected {host : Host Emulator} {state : Client × Emulator} {read : ClientRead}
    {last : Config Emulator} (formed : state.1.WellFormed)
    (rejects : (feedRead host state read).result = .error ⟨.rejected, last⟩)
    : last.client.freed state.1.socketFd
      = if (feedRead host state read).emitted.getLast?.any Event.refusesSize then
          [.blockReleased state.1.socketFd]
        else
          [] := by
  obtain ⟨worked, refusal, emitted, -, freed⟩ := feedRead_refuses formed rejects
  rw [emitted, freed, Refusal.events, ← List.append_assoc, List.getLast?_concat, Option.any_some]
  have command : Refusal.command.reason ≠ (Refusal.size 0).reason := by decide
  have block : Refusal.block.reason ≠ (Refusal.size 0).reason := by decide
  cases refusal with
  | size declared => rfl
  | command => simp only [Event.refusesSize, command, decide_false]; rfl
  | block => simp only [Event.refusesSize, block, decide_false]; rfl

section Reading

variable {host : Host Emulator} (callbacks : Callbacks Emulator) {state : Client × Emulator}
  {read : ClientRead} (formed : state.1.WellFormed) {hub : Hub Emulator}
  (reader : hub.readers.lookup state.1.socketFd = some state.1.parser)
  (emulator : hub.emulator = state.2) {events : List Event} {client : Client} {after : Emulator}
include formed reader emulator

/-- A read after which the connection stays. -/
theorem Hub.receives_stays
    (settles
      : settle state.1.socketFd (feedRead host state read) = .emit events ⟨true, client, after⟩)
    : hub.step host callbacks (.receives state.1.socketFd read.bytes)
      = .emit events ⟨hub.readers.insert state.1.socketFd client.parser, after⟩ := by
  have reads := @feedRead_readBytes _ host state read formed
  rw [settle] at settles
  rcases (feedRead host state read).cases_eq with ⟨done, next, turn⟩ | ⟨done, ⟨ending, last⟩, turn⟩
  · rw [turn] at settles reads
    cases settles
    have whole := (reads (fun fault last stops => by cases stops)).symm
    simp only [Hub.step, reader, Hub.read, emulator]
    rw [show (state.1.parser, state.2) = readerOf state from rfl, whole]
    rfl
  · rw [turn] at settles
    cases ending <;> cases settles

/-- A read that is refused. -/
theorem Hub.receives_leaves
    (settles
      : settle state.1.socketFd (feedRead host state read) = .emit events ⟨false, client, after⟩)
    : hub.step host callbacks (.receives state.1.socketFd read.bytes)
      = .emit (events ++ removal callbacks client state.1.socketFd after)
          ⟨
            hub.readers.erase state.1.socketFd,
            (notify callbacks.removeClient (.clientRemoved state.1.socketFd) state.1.socketFd
              after).2
          ⟩ := by
  have reads := @feedRead_readBytes _ host state read formed
  have freed := @freed_of_rejected _ host state read
  rw [settle] at settles
  rcases (feedRead host state read).cases_eq with ⟨done, next, turn⟩ | ⟨done, ⟨ending, last⟩, turn⟩
  · rw [turn] at settles
    cases settles
  · rw [turn] at settles reads freed
    cases ending with
    | rejected =>
        cases settles
        have whole := (reads (fun fault last stops => by cases stops)).symm
        simp only [Hub.step, reader, Hub.read, emulator]
        rw [show (state.1.parser, state.2) = readerOf state from rfl, whole, removal,
          freed formed rfl]
        simp only [Reaction.project_stop, Stopped.final, Hub.close, Reaction.emitted_stop,
          List.append_assoc]
        rfl
    | undefined | spinning => cases settles

end Reading

section Serving

variable (host : Host Emulator) (callbacks : Callbacks Emulator) {round : Round}
  {cursor : Cursor Emulator} (sound : cursor.server.Sound) {hub : Hub Emulator}
  (describes : hub.Describes cursor.server) {entry : PollFd} {index : Fin 5}
  (slot : cursor.server.clients[index].socketFd = entry.fd)
  (taken : cursor.server.clients[index].socketFd ≠ 0) {events : List Event} {client : Client}
  {emulator : Emulator}
include sound describes slot taken

/-- A connection that stays. -/
theorem Hub.Describes.stays
    (attended
      : attend host entry.revents (round.read entry.fd) (cursor.server.slot index)
        = .emit events ⟨true, client, emulator⟩)
    : ∃ next,
        hub.run host callbacks
          (dueAction entry.revents (round.read entry.fd) entry.fd).toList
          = .emit events next
        ∧ next.Describes (cursor.keep index client emulator).server := by
  have formed : (cursor.server.slot index).1.WellFormed := sound.formed index taken
  have reader := describes.readers.lookup taken
  have kept := attend_kept host formed (congrArg Reaction.result attended)
  have same : client.socketFd = cursor.server.clients[index].socketFd := kept.1
  rcases attend_due host entry.revents (round.read entry.fd) (cursor.server.slot index) entry.fd
    with ⟨due, turn⟩ | ⟨due, turn⟩ | ⟨read, due, turn⟩
  · rw [attended] at turn
    cases turn
    have unchanged : cursor.server.clients.set index cursor.server.clients[index]
        = cursor.server.clients :=
      Clients.set_same _ _
    rw [due]
    refine ⟨hub, rfl, describes.emulator, ?_⟩
    rw [Cursor.keep, Server.slot, unchanged]
    exact describes.readers
  · rw [attended] at turn
    cases turn
  · rw [attended] at turn
    have step := Hub.receives_stays callbacks formed reader describes.emulator turn.symm
    have written := @Clients.ReadBy.write _ _ describes.readers index client (same ▸ taken)
      (Or.inr same.symm)
      (fun other apart equal => apart
        (cursor.server.clients.unique sound.distinct (same.symm.trans equal.symm) taken))
    rw [same] at written
    refine ⟨⟨_, emulator⟩, ?_, rfl, written⟩
    rw [due, Option.toList_some, Hub.run_singleton, ← slot]
    exact step

/-- A connection that leaves. -/
theorem Hub.Describes.leaves
    (attended
      : attend host entry.revents (round.read entry.fd) (cursor.server.slot index)
        = .emit events ⟨false, client, emulator⟩)
    : ∃ next,
        hub.run host callbacks
          (dueAction entry.revents (round.read entry.fd) entry.fd).toList
          = .emit (events ++ removal callbacks client entry.fd emulator) next
        ∧ next.Describes (cursor.drop callbacks index client entry.fd emulator).server := by
  have formed : (cursor.server.slot index).1.WellFormed := sound.formed index taken
  have reader := describes.readers.lookup taken
  have freed :=
    @Clients.ReadBy.free _ _ describes.readers sound.distinct index taken client.remove rfl
  rcases attend_due host entry.revents (round.read entry.fd) (cursor.server.slot index) entry.fd
    with ⟨due, turn⟩ | ⟨due, turn⟩ | ⟨read, due, turn⟩
  · rw [attended] at turn
    cases turn
  · rw [attended] at turn
    cases turn
    refine ⟨⟨_, _⟩, ?_, rfl, freed⟩
    rw [due, Option.toList_some, Hub.run_singleton, ← slot, removal, Server.slot,
      (sound.formed index taken).freed_eq]
    simp only [Hub.step, reader, Hub.close, describes.emulator]
    rfl
  · rw [attended] at turn
    have step := Hub.receives_leaves callbacks formed reader describes.emulator turn.symm
    refine ⟨⟨_, _⟩, ?_, rfl, freed⟩
    rw [due, Option.toList_some, Hub.run_singleton, ← slot]
    exact step

end Serving

-----------------------------------------------------------------------------------------
-- The client loop
-----------------------------------------------------------------------------------------

/-- What is due for an entry of the poll set. -/
def PollFd.due (entry : PollFd) (round : Round) : Option Action :=
  dueAction entry.revents (round.read entry.fd) entry.fd

/-- The entries that the client loop has handled, in their order, and what the hub did for them. -/
structure Cursor.Served (host : Host Emulator) (callbacks : Callbacks Emulator) (round : Round)
    (begun : Server Emulator) (hub : Hub Emulator) (log : List (PollFd × Bool))
    (trace : List Event) (cursor : Cursor Emulator) (next : Hub Emulator)
    : Prop where
  sound : cursor.server.Sound
  sweeps : Sweeps begun.pollFds 0 log cursor.server.pollFds cursor.i
  socket : cursor.server.serverSocket = begun.serverSocket
  runs
    : hub.run host callbacks (log.filterMap (fun seen => seen.1.due round)) = .emit trace next
  describes : next.Describes cursor.server

section ClientLoop

variable (host : Host Emulator) (callbacks : Callbacks Emulator) {round : Round}

/-- An iteration handles one more entry. -/
theorem Cursor.Served.serveClient {begun : Server Emulator} {hub next : Hub Emulator}
    {log : List (PollFd × Bool)} {trace : List Event} {cursor : Cursor Emulator}
    (served : cursor.Served host callbacks round begun hub log trace next)
    (runs : cursor.running)
    : (serveClient host callbacks round cursor).Ensures
        (fun trace cursor =>
          ∃ log next, cursor.Served host callbacks round begun hub log trace next)
        (fun _ halted => halted.shutdown.OfConnection) trace := by
  have here := List.getElem?_eq_getElem runs
  have stops := @serveClient_stops _ host callbacks round cursor
  have sound := @serveClient_sound _ host callbacks round cursor
  obtain ⟨index, slot, taken, cases⟩ := serveClient_cases host callbacks round served.sound here
  generalize NetworkAccess.serveClient host callbacks round cursor = turn at cases stops sound
  -- the hub goes on from where it was
  have goOn {events : List Event} {after : Hub Emulator} (stays : Bool)
      (due
        : next.run host callbacks (cursor.server.pollFds[cursor.i].due round).toList
          = .emit events after)
      : hub.run host callbacks
          ((log ++ [(cursor.server.pollFds[cursor.i], stays)]).filterMap
            (fun seen => seen.1.due round))
        = .emit (trace ++ events) after := by
    have last (entry : PollFd)
        : [(entry, stays)].filterMap (fun seen => seen.1.due round) = (entry.due round).toList := by
      cases dueHere : entry.due round <;> simp [dueHere]
    rw [List.filterMap_append, Hub.run_append, served.runs, Reaction.emit_andThen, last, due,
      Reaction.prepend_emit]
  cases cases with
  | stays attended =>
      obtain ⟨after, due, describes⟩ :=
        served.describes.stays host callbacks served.sound slot taken attended
      exact ⟨_, after, (sound served.sound runs rfl).1, served.sweeps.concat_keep here,
        served.socket,
        goOn true due, describes⟩
  | leaves attended =>
      obtain ⟨after, due, describes⟩ :=
        served.describes.leaves host callbacks served.sound slot taken attended
      exact ⟨_, after, (sound served.sound runs rfl).1, served.sweeps.concat_drop here,
        served.socket,
        goOn false due, describes⟩
  | fails => exact stops served.sound runs rfl

/-- The client loop handles the entries in some order, each of them once. -/
theorem clientLoop_hub {server : Server Emulator} (sound : server.Sound) {hub : Hub Emulator}
    (describes : hub.Describes server)
    : (clientLoop host callbacks round server).Ensures
        (fun trace last =>
          last.Sound
          ∧ last.serverSocket = server.serverSocket
          ∧ ∃ (entries : List PollFd) (next : Hub Emulator),
              List.Perm entries server.pollFds
              ∧ hub.run host callbacks (entries.filterMap (fun entry => entry.due round))
                = .emit trace next
              ∧ next.Describes last)
        (fun _ halted => halted.shutdown.OfConnection) [] := by
  have loop
      : (serveClients host callbacks round server).Ensures
          (fun trace cursor =>
            (∃ log next, cursor.Served host callbacks round server hub log trace next)
            ∧ ¬ cursor.running)
          (fun _ halted => halted.shutdown.OfConnection) [] := by
    refine .runWhile ?stuck ?each ?start
    case stuck => exact fun _ _ _ _ => trivial
    case start => exact ⟨[], hub, sound, .here, rfl, rfl, describes⟩
    case each =>
      rintro trace cursor - ⟨log, next, served⟩ runs
      exact served.serveClient host callbacks runs
  refine loop.andThen (fun trace cursor kept => ?_)
  obtain ⟨⟨log, next, served⟩, finished⟩ := kept
  rw [Reaction.pure_eq, Reaction.Ensures.emit_iff, List.append_nil]
  have all := served.sweeps.seen_all (Nat.not_lt.mp finished)
  refine ⟨served.sound, served.socket, log.map Prod.fst, next, all, ?_, served.describes⟩
  rw [List.filterMap_map]
  exact served.runs

end ClientLoop
end NetworkAccess
