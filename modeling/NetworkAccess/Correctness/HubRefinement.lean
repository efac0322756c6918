import NetworkAccess.Connections.HubService

/-! The server refines a hub. Each round that ends as it should is one schedule of the hub with the
same events, and when the server returns it has closed what the hub had open. All that the table
passes on to a new connection is one flag of its slot.
-/

namespace NetworkAccess

variable {Emulator : Type}

/-- The round in which the server returns: it was asked to stop and closes all that is open, or
`poll` or `accept` failed and it closes nothing.
-/
inductive Round.Returns (round : Round) (hub : Hub Emulator) (serverSocket : SOCKET)
    : Bool → List Event → Prop
  | asked (stops : round.stop = true) (fds : List SOCKET) (once : fds.Nodup)
    (each : ∀ fd, fd ∈ fds ↔ fd ∈ hub.readers)
    : round.Returns hub serverSocket true ((fds ++ [serverSocket]).map .closed)
  | poll {interrupted} (goesOn : round.stop = false) (fails : round.polled = .failed interrupted)
    : round.Returns hub serverSocket interrupted []
  | accept {revents} (goesOn : round.stop = false) (polled : round.polled = .ready true revents)
    (fails : round.accepted = none)
    : round.Returns hub serverSocket false []

-----------------------------------------------------------------------------------------
-- What a connection inherits
-----------------------------------------------------------------------------------------

/-- The write flag of the slot that the next connection gets, if there is one: whether the last
known command of its earlier connections was `bCORE_WRITE`.
-/
def Server.inherited (server : Server Emulator) : Bool :=
  (firstSlot server.clients 0).any (fun index => server.clients[index].parser.writes)

/-- Rounds with what a connection inherits in them; behind a stop it inherits nothing. -/
def inheriting (host : Host Emulator) (callbacks : Callbacks Emulator)
    : Server Emulator → List Round → List (Round × Bool)
  | _, [] => []
  | server, round :: rest =>
      (round, server.inherited)
        :: match (pollRound host callbacks server round).result with
           | .ok next => inheriting host callbacks next rest
           | .error _ => rest.map (·, false)

/-- Without what is inherited they are the rounds of the server. -/
theorem inheriting_rounds (host : Host Emulator) (callbacks : Callbacks Emulator)
    (server : Server Emulator) (rounds : List Round)
    : (inheriting host callbacks server rounds).map Prod.fst = rounds := by
  induction rounds generalizing server with
  | nil => rfl
  | cons round rest ih =>
      rw [inheriting, List.map_cons]
      refine congrArg (round :: ·) ?_
      split
      case h_1 next _ => exact ih next
      case h_2 => rw [List.map_map, Function.comp_def, List.map_id']

-----------------------------------------------------------------------------------------
-- What precedes the client loop
-----------------------------------------------------------------------------------------

/-- No slot is free in a table that turns a connection away. -/
theorem Clients.full {clients : Clients} {fd : SOCKET} (turnedAway : addToClients clients fd = none)
    : clients.tracked.length = 5 := by
  have taken := firstSlot_none.mp (Option.map_eq_none_iff.mp turnedAway)
  have all : clients.tracked = clients.toList.map Client.socketFd := by
    refine List.filter_eq_self.mpr (fun fd member => ?_)
    obtain ⟨client, inside, rfl⟩ := List.mem_map.mp member
    obtain ⟨index, bound, rfl⟩ := Vector.mem_iff_getElem.mp (Vector.mem_toList_iff.mp inside)
    exact decide_eq_true (taken ⟨index, bound⟩)
  rw [all, List.length_map, Vector.length_toList]

section Rounds

variable (host : Host Emulator) (callbacks : Callbacks Emulator) {round : Round}
  {server : Server Emulator} {hub : Hub Emulator}

/-- A new connection. -/
theorem acceptClient_hub (sound : server.Sound) (describes : hub.Describes server)
    (fresh : round.Fresh server)
    : (acceptClient callbacks round.accepted server).Ensures
        (fun trace last =>
          last.Sound
          ∧ last.serverSocket = server.serverSocket
          ∧ ∃ opened next,
              hub.run host callbacks
                  (round.accepted.toList.map (Action.connects · server.inherited))
                = .emit trace next
              ∧ next.Describes last
              ∧ last.pollFds = server.pollFds ++ opened
              ∧ ∀ entry ∈ opened, entry.revents = .none)
        (fun trace halted =>
          round.accepted = none ∧ halted.shutdown = .returned false ∧ trace = []) [] := by
  have count := describes.readers.card sound.distinct
  cases accepted : round.accepted with
  | none => exact ⟨rfl, rfl, rfl⟩
  | some fd =>
      obtain ⟨nonzero, unused⟩ := fresh fd accepted
      rw [acceptClient]
      simp only [Option.toList_some, List.map_cons, List.map_nil, Hub.run_singleton, Hub.step]
      cases found : firstSlot server.clients 0 with
      | none =>
          have full : addToClients server.clients fd = none := by
            rw [addToClients, found]
            rfl
          have many : ¬ hub.readers.keys.card < 5 := by
            rw [count, Clients.full full]
            exact Nat.lt_irrefl 5
          rw [full]
          refine ⟨sound, rfl, [], hub, ?_, describes, (List.append_nil _).symm,
            List.forall_mem_nil _⟩
          rw [if_neg many]
          rfl
      | some index =>
          have free := firstSlot_some found
          have added : addToClients server.clients fd
              = some (server.clients.set index (server.clients[index].add fd)) := by
            rw [addToClients, found]
            rfl
          have inherits : server.inherited = server.clients[index].parser.writes := by
            rw [Server.inherited, found]
            rfl
          have few : hub.readers.keys.card < 5 := by
            have room := sound.room free
            have entries := sound.tracked.length_eq
            rw [List.length_map] at entries
            rw [Server.pollFdsCount] at room
            omega
          have apart (other : Fin 5) (_ : index ≠ other) : server.clients[other].socketFd ≠ fd :=
            fun same => unused (Clients.mem_tracked.mpr ⟨nonzero, other, same⟩)
          have written := @Clients.ReadBy.write _ _ describes.readers index
            (server.clients[index].add fd) nonzero (Or.inl free) apart
          rw [added]
          dsimp only
          rw [if_pos (sound.room free)]
          refine ⟨sound.add free nonzero unused _, rfl, [⟨fd, .none⟩], ⟨_, _⟩, ?_, ⟨rfl, written⟩,
            rfl, List.forall_mem_singleton.mpr rfl⟩
          rw [if_pos few, describes.emulator, inherits]
          rfl

/-- A round up to the client loop, by the answers of `poll` and `accept`. -/
theorem beginRound_hub (sound : server.Sound) (describes : hub.Describes server)
    (fresh : round.Fresh server)
    : (beginRound callbacks round server).Ensures
        (fun trace last =>
          last.Sound
          ∧ last.serverSocket = server.serverSocket
          ∧ ∃ newClient revents opened next,
              round.stop = false
              ∧ round.polled = .ready newClient revents
              ∧ hub.run host callbacks
                  (.polled
                    :: (if newClient then round.accepted.toList else []).map
                      (Action.connects · server.inherited))
                = .emit trace next
              ∧ next.Describes last
              ∧ last.pollFds
                = server.pollFds.map (fun entry => ⟨entry.fd, revents entry.fd⟩) ++ opened
              ∧ ∀ entry ∈ opened, entry.revents = .none)
        (fun trace halted =>
          ∃ value,
            halted.shutdown = .returned value
            ∧ round.Returns hub server.serverSocket value trace) [] := by
  simp only [beginRound]
  split
  case isTrue stops =>
    refine ⟨true, rfl, ?_⟩
    have closings : round.Returns hub server.serverSocket true _ :=
      .asked stops server.clients.tracked sound.distinct
        (fun _ => describes.readers.mem_iff.symm)
    rw [List.map_append] at closings
    exact closings
  case isFalse asked =>
    have goesOn := Bool.eq_false_iff.mpr asked
    split
    case h_1 interrupted polled => exact ⟨interrupted, rfl, .poll goesOn polled⟩
    case h_2 newClient revents polled =>
      have answered
          : Hub.Describes { hub with emulator := callbacks.polled hub.emulator } {
              server with
              pollFds := server.pollFds.map (fun entry => ⟨entry.fd, revents entry.fd⟩)
              emulator := callbacks.polled server.emulator
            } :=
        ⟨congrArg callbacks.polled describes.emulator, describes.readers⟩
      have still := sound.polled revents (callbacks.polled server.emulator)
      split
      case isTrue new =>
        subst new
        refine (acceptClient_hub host callbacks still answered fresh).imp ?_ ?_
        · rintro trace last ⟨sound, socket, opened, next, runs, rest⟩
          exact ⟨sound, socket, true, revents, opened, next, goesOn, polled, runs, rest⟩
        · rintro trace halted ⟨fails, returns, rfl⟩
          exact ⟨false, returns, .accept goesOn polled fails⟩
      case isFalse old =>
        refine ⟨still, rfl, newClient, revents, [], _, goesOn, polled, ?_, answered,
          (List.append_nil _).symm, List.forall_mem_nil _⟩
        rw [if_neg old]
        rfl

-----------------------------------------------------------------------------------------
-- Rounds
-----------------------------------------------------------------------------------------

/-- Nothing is due for a connection that was opened in this round, so what is due for all entries is
what is due for the old ones.
-/
theorem Round.due_of_perm (round : Round) {revents : SOCKET → Revents}
    {pollFds opened entries : List PollFd} (quiet : ∀ entry ∈ opened, entry.revents = .none)
    (once : ((pollFds ++ opened).map PollFd.fd).Nodup)
    (same : entries.Perm (pollFds.map (fun entry => ⟨entry.fd, revents entry.fd⟩) ++ opened))
    : ∃ fds : List SOCKET,
        fds.Perm (pollFds.map PollFd.fd)
        ∧ entries.filterMap (fun entry => entry.due round)
          = fds.filterMap (fun fd => dueAction (revents fd) (round.read fd) fd) := by
  rw [List.map_append] at once
  let old (entry : PollFd) : Bool := entry.fd ∈ pollFds.map PollFd.fd
  let polled := pollFds.map (fun entry => (⟨entry.fd, revents entry.fd⟩ : PollFd))
  have before (entry : PollFd) (member : entry ∈ polled)
      : old entry = true ∧ entry.revents = revents entry.fd := by
    obtain ⟨first, inside, rfl⟩ := List.mem_map.mp member
    exact ⟨decide_eq_true (List.mem_map.mpr ⟨first, inside, rfl⟩), rfl⟩
  have new (entry : PollFd) (member : entry ∈ opened) : old entry = false :=
    decide_eq_false (fun known =>
      List.disjoint_of_nodup_append once known (List.mem_map_of_mem member))
  refine ⟨(entries.filter old).map PollFd.fd, ?_, ?_⟩
  · have left : (polled ++ opened).filter old = polled := by
      rw [List.filter_append, List.filter_eq_self.mpr (fun entry member => (before entry member).1),
        List.filter_eq_nil_iff.mpr (fun entry member => by simp [new entry member]),
        List.append_nil]
    have perm := (same.filter old).map PollFd.fd
    rw [show pollFds.map _ = polled from rfl, left, List.map_map] at perm
    exact perm
  · rw [List.filterMap_map, List.filterMap_filter]
    refine List.filterMap_congr (fun entry member => ?_)
    rcases List.mem_append.mp (same.subset member) with known | fresh
    · obtain ⟨isOld, answer⟩ := before entry known
      rw [if_pos isOld, PollFd.due, answer]
      rfl
    · rw [if_neg (by simp [new entry fresh]), PollFd.due, quiet entry fresh]
      rfl

/-- A round is a schedule. -/
theorem pollRound_hub (sound : server.Sound) (describes : hub.Describes server)
    (fresh : round.Fresh server)
    : (pollRound host callbacks server round).Ensures
        (fun trace last =>
          last.Sound
          ∧ last.serverSocket = server.serverSocket
          ∧ ∃ actions next,
              round.Schedules server.inherited hub actions
              ∧ hub.run host callbacks actions = .emit trace next
              ∧ next.Describes last)
        (fun trace halted =>
          halted.shutdown.OfConnection
          ∨ ∃ value,
              halted.shutdown = .returned value
              ∧ round.Returns hub server.serverSocket value trace) [] := by
  rw [pollRound, Reaction.bind_eq]
  have begins := beginRound_hub host callbacks sound describes fresh
  rcases (beginRound callbacks round server).cases_eq with ⟨first, begun, turn⟩ | ⟨first, _, turn⟩
  · rw [turn, Reaction.Ensures.emit_iff, List.nil_append] at begins
    obtain ⟨still, socket, newClient, revents, opened, next, goesOn, polled, runs, after, pollFds,
      quiet⟩ := begins
    have serves := @clientLoop_hub _ host callbacks round begun still next after
    rw [turn, Reaction.emit_andThen]
    rcases (clientLoop host callbacks round begun).cases_eq with
      ⟨served, last, loop⟩ | ⟨served, halted, loop⟩
    · rw [loop, Reaction.Ensures.emit_iff, List.nil_append] at serves
      obtain ⟨ended, kept, entries, final, perm, dueRuns, pictures⟩ := serves
      have once := still.polledOnce
      have fdsKept : (server.pollFds.map (fun entry => (⟨entry.fd, revents entry.fd⟩ : PollFd))).map
          PollFd.fd = server.pollFds.map PollFd.fd := by
        rw [List.map_map]
        rfl
      rw [pollFds] at once perm
      rw [List.map_append, fdsKept, ← List.map_append] at once
      obtain ⟨fds, known, due⟩ := round.due_of_perm quiet once perm
      rw [loop, Reaction.prepend_emit, Reaction.Ensures.emit_iff, List.nil_append]
      have tracked := known.trans sound.tracked
      have unused (fd : SOCKET) (accepted : round.accepted = some fd) : fd ∉ hub.readers :=
        fun inside => (fresh fd accepted).2 (describes.readers.mem_iff.mp inside)
      refine ⟨ended, kept.trans socket, _, final,
        .served goesOn polled unused fds (tracked.nodup_iff.mpr sound.distinct)
          (fun fd => tracked.mem_iff.trans describes.readers.mem_iff.symm), ?_, pictures⟩
      rw [← List.cons_append, Hub.run_append, runs, Reaction.emit_andThen, ← due, dueRuns,
        Reaction.prepend_emit]
    · rw [loop] at serves ⊢
      exact Or.inl serves
  · rw [turn] at begins ⊢
    exact Or.inr begins

end Rounds

/-- What a run of the server from `start` is for a hub: schedules of all its rounds, or of those
before the one in which it returns. A run that ends in one of its connections, where it leaves the
defined part of the program or never comes back, is not covered.
-/
def ServerTurn.Refines (host : Host Emulator) (callbacks : Callbacks Emulator)
    (hub : Hub Emulator) (start : Server Emulator) (rounds : List Round)
    (run : ServerTurn Emulator (Server Emulator))
    : Prop :=
  match run.result with
  | .ok server =>
      ∃ log last,
        hub.Follows host callbacks (inheriting host callbacks start rounds) log run.emitted last
        ∧ last.Describes server
  | .error halted =>
      halted.shutdown.OfConnection
      ∨ ∃ value front round rest log trace last closings,
          halted.shutdown = .returned value
          ∧ rounds = front ++ round :: rest
          ∧ hub.Follows host callbacks (inheriting host callbacks start front) log trace last
          ∧ round.Returns last start.serverSocket value closings
          ∧ run.emitted = trace ++ closings

/-- Rounds, by induction on them; a round hands over a hub that describes the server. -/
theorem pollRounds_hub (host : Host Emulator) (callbacks : Callbacks Emulator)
    {rounds : List Round} {server : Server Emulator} {hub : Hub Emulator} (sound : server.Sound)
    (describes : hub.Describes server)
    (fresh : Reaction.CalmAlong (pollRound host callbacks) Round.Fresh server rounds)
    : (pollRounds host callbacks server rounds).Refines host callbacks hub server rounds := by
  induction rounds generalizing server hub with
  | nil => exact ⟨[], hub, .nil, describes⟩
  | cons round rest ih =>
      rw [pollRounds, List.foldlM_cons, Reaction.bind_eq]
      have first := pollRound_hub host callbacks sound describes fresh.1
      rcases (pollRound host callbacks server round).cases_eq with
        ⟨events, next, turn⟩ | ⟨events, halted, turn⟩
      · rw [turn, Reaction.Ensures.emit_iff, List.nil_append] at first
        obtain ⟨still, socket, actions, after, schedules, runs, pictures⟩ := first
        have goes : (pollRound host callbacks server round).result = .ok next := by rw [turn]; rfl
        have goOn {more : List Round} {log : List Action} {trace : List Event}
            {last : Hub Emulator}
            (follows
              : after.Follows host callbacks (inheriting host callbacks next more) log trace last)
            : hub.Follows host callbacks (inheriting host callbacks server (round :: more))
                (actions ++ log) (events ++ trace) last := by
          rw [inheriting, goes]
          exact .round schedules runs follows
        have later := ih still pictures (fresh.2 next goes)
        rw [turn, Reaction.emit_andThen]
        change ServerTurn.Refines host callbacks hub _ _
          ((pollRounds host callbacks next rest).prepend events)
        rcases (pollRounds host callbacks next rest).cases_eq with
          ⟨more, last, run⟩ | ⟨more, halted, run⟩
        · rw [run] at later ⊢
          obtain ⟨log, final, follows, describes⟩ := later
          exact ⟨_, final, goOn follows, describes⟩
        · rw [run] at later ⊢
          refine later.imp_right ?_
          rintro ⟨value, front, last, rear, log, trace, final, closings, returns, rfl, follows,
            closes, rfl⟩
          exact ⟨value, round :: front, last, rear, _, _, final, closings, returns, rfl,
            goOn follows, socket ▸ closes, (List.append_assoc _ _ _).symm⟩
      · rw [turn] at first ⊢
        refine first.imp_right ?_
        rintro ⟨value, returns, closes⟩
        exact ⟨value, [], round, rest, [], [], hub, events, returns, rfl, .nil, closes, rfl⟩

/-- Nothing is connected when the loop is entered. -/
theorem Hub.start_describes (serverSocket : SOCKET) (clients : Clients) (emulator : Emulator)
    : (Hub.start emulator).Describes (.listening serverSocket clients emulator) := by
  refine ⟨rfl, fun fd reader => iff_of_false (fun open_ => by cases open_) ?_⟩
  rintro ⟨nonzero, index, same, -⟩
  exact nonzero (same.symm.trans (Clients.free_of_untracked clients.tracked_emptied index))

/-- A server that only listens is sound: no slot has to agree with the poll set yet. -/
theorem Server.sound_listening (serverSocket : SOCKET) (clients : Clients) (emulator : Emulator)
    : (Server.listening serverSocket clients emulator).Sound :=
  have tracks : Server.Tracks ⟨none, none, none⟩ [] (.listening serverSocket clients emulator) :=
    Server.tracks_listening serverSocket clients emulator
  tracks.sound

/-- In every run in which `accept` returns descriptors that are not in use, the server is a hub,
unless one of its connections ends the run: its events are those of schedules of the hub, in which a
new connection inherits one flag of its slot, it ends with the emulator and the readers of the hub,
and when it returns, it has closed exactly what the hub has open.
-/
theorem genericPollServerStart_refines (host : Host Emulator) (callbacks : Callbacks Emulator)
    (serverSocket : SOCKET) (clients : Clients) (emulator : Emulator) (rounds : List Round)
    (fresh
      : Reaction.CalmAlong (pollRound host callbacks) Round.Fresh
          (.listening serverSocket clients emulator) rounds)
    : (genericPollServerStart host callbacks serverSocket clients emulator rounds).Refines host
        callbacks (.start emulator) (.listening serverSocket clients emulator) rounds :=
  pollRounds_hub host callbacks (Server.sound_listening serverSocket clients emulator)
    (Hub.start_describes serverSocket clients emulator) fresh

/-- A connection sends a line, and the server is asked to stop. -/
def hubRounds : List Round :=
  let readable (fds : List SOCKET) : SOCKET → Revents := fun fd => ⟨fd ∈ fds, false, false⟩
  let line : ClientRead := ⟨ascii "HUB\n", by decide, by decide⟩
  [
    ⟨false, .ready true (readable []), some 4, fun _ => none⟩,
    ⟨false, .ready false (readable [4]), none, fun _ => some line⟩,
    ⟨true, .failed false, none, fun _ => none⟩
  ]

/-- Witness: the last round closes the connection and the server. -/
theorem genericPollServerStart_refines_stopped
    : let run :=
        genericPollServerStart (Host.fixed []) ⟨none, none, none⟩ 3
          (Vector.replicate 5 Client.zero) () hubRounds
      run.Refines (Host.fixed []) ⟨none, none, none⟩ (.start ())
        (.listening 3 (Vector.replicate 5 Client.zero) ()) hubRounds
      ∧ run.emitted.drop 3 = [.closed 4, .closed 3] :=
  ⟨
    genericPollServerStart_refines (Host.fixed []) ⟨none, none, none⟩ 3
      (Vector.replicate 5 Client.zero) () hubRounds (by decide +kernel),
    by decide +kernel
  ⟩

end NetworkAccess
