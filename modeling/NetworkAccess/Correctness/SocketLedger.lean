import NetworkAccess.Connections.Sockets

/-! Which accepted descriptors are open at the top of every iteration of the poll loop and when
it returns.
-/

namespace NetworkAccess

variable {Emulator : Type}

/-- At the top of every iteration and on return, the accepted descriptors that are open are
those that the client table tracks, and every other one was closed exactly once.
-/
def SocketsClosed (host : Host Emulator) (callbacks : Callbacks Emulator)
    (serverSocket : SOCKET) (trace : List Event) (server : Server Emulator)
    (rounds : List Round)
    : Prop :=
  (∀ done next,
      done <+: rounds
      → (pollRounds host callbacks server done).result = .ok next
      → Balanced serverSocket (trace ++ (pollRounds host callbacks server done).emitted)
          next.clients.tracked)
  ∧ ∀ halted,
      (pollRounds host callbacks server rounds).result = .error halted
      → halted.Returns serverSocket (trace ++ (pollRounds host callbacks server rounds).emitted)

section Runs

variable (host : Host Emulator) {callbacks : Callbacks Emulator} {serverSocket : SOCKET}
  {trace : List Event} {server : Server Emulator} {rounds : List Round}

/-- What a run closes, its part behind the first round closes. -/
theorem SocketsClosed.later {round : Round} {events : List Event} {next : Server Emulator}
    (closed : SocketsClosed host callbacks serverSocket trace server (round :: rounds))
    (goes : pollRound host callbacks server round = .emit events next)
    : SocketsClosed host callbacks serverSocket (trace ++ events) next rounds := by
  have split (rounds : List Round)
      : pollRounds host callbacks server (round :: rounds)
        = (pollRounds host callbacks next rounds).prepend events := by
    rw [pollRounds, List.foldlM_cons, goes]
    rfl
  constructor
  · intro done last front continues
    have whole := closed.1 (round :: done) last (List.cons_prefix_cons.mpr ⟨rfl, front⟩)
    rw [split, Reaction.result_prepend, Reaction.emitted_prepend, ← List.append_assoc] at whole
    exact whole continues
  · intro halted stops
    have whole := closed.2 halted
    rw [split, Reaction.result_prepend, Reaction.emitted_prepend, ← List.append_assoc] at whole
    exact whole stops

/-- If a run closes what it drops, every completed round does, by induction on the rounds. -/
theorem SocketsClosed.closes (ledgered : server.Ledgered serverSocket trace)
    (accepts
      : Reaction.CalmAlong (pollRound host callbacks) (Round.Accepts serverSocket) server rounds)
    (closed : SocketsClosed host callbacks serverSocket trace server rounds)
    : Reaction.CalmAlong (pollRound host callbacks)
        (fun server round => round.Closes host callbacks server) server rounds := by
  induction rounds generalizing trace server with
  | nil => trivial
  | cons round rest ih =>
      have here
          : Reaction.Ensures _ (Halted.Returns serverSocket) trace
              (pollRound host callbacks server round) :=
        pollRound_balanced host ledgered accepts.1
      rcases (pollRound host callbacks server round).cases_eq with
        ⟨events, next, goes⟩ | ⟨events, halted, stops⟩
      · have later := closed.later host goes
        have balanced := later.1 [] next List.nil_prefix rfl
        rw [pollRounds, List.foldlM_nil, Reaction.pure_eq, Reaction.emitted_emit,
          List.append_nil] at balanced
        rw [goes, Reaction.Ensures.emit_iff] at here
        obtain ⟨sound, own, apart, balanced_iff⟩ := here
        refine ⟨balanced_iff.mp balanced, fun after continues => ?_⟩
        rw [goes] at continues
        cases continues
        exact ih ⟨sound, own, apart, balanced⟩ (accepts.2 _ (by rw [goes]; rfl)) later
      · refine ⟨?_, ?_⟩
        · intro begun next _ completed
          rw [stops] at completed
          cases completed
        · intro after continues
          rw [stops] at continues
          cases continues

/-- Rounds that close what they drop keep the ledger. -/
theorem pollRounds_ledgered (ledgered : server.Ledgered serverSocket trace)
    (accepts
      : Reaction.CalmAlong (pollRound host callbacks) (Round.Accepts serverSocket) server rounds)
    (closes
      : Reaction.CalmAlong (pollRound host callbacks)
          (fun server round => round.Closes host callbacks server) server rounds)
    : Reaction.Ensures (Server.Ledgered serverSocket) (Halted.Returns serverSocket) trace
        (pollRounds host callbacks server rounds) := by
  refine .foldlM ?_ (accepts.both closes) ledgered
  rintro trace server round ledgered ⟨accepts, closes⟩
  apply (pollRound_balanced host ledgered accepts).imp
  · rintro trace next ⟨sound, own, apart, balanced_iff⟩
    exact ⟨sound, own, apart, balanced_iff.mpr closes⟩
  · exact fun _ _ returns => returns

end Runs

/-- Nothing is open when the loop is entered. -/
theorem Server.ledgered_listening (serverSocket : SOCKET) (clients : Clients)
    (emulator : Emulator)
    : Server.Ledgered serverSocket [] (.listening serverSocket clients emulator) := by
  have nothing : (Server.listening serverSocket clients emulator).clients.tracked = [] :=
    clients.tracked_emptied
  have tracks
      : Server.Tracks ⟨none, none, none⟩ [] (Server.listening serverSocket clients emulator) :=
    Server.tracks_listening serverSocket clients emulator
  refine ⟨tracks.sound, rfl, ?_, fun fd _ => ?_⟩
  · simp [nothing]
  · simpa [nothing] using Ledger.Account.nil

/-- In a run of the poll loop in which `accept` returns descriptors that are not open, the open
descriptors are the tracked ones at the top of every iteration and on return if and only if no
completed round finds an entry of its poll set with `POLLERR` or `POLLHUP`, or with `POLLIN` and
a `read` that returns nothing.
-/
theorem sockets_closed_iff (host : Host Emulator) (callbacks : Callbacks Emulator)
    (serverSocket : SOCKET) (clients : Clients) (emulator : Emulator) (rounds : List Round)
    (accepts
      : Reaction.CalmAlong (pollRound host callbacks) (Round.Accepts serverSocket)
          (.listening serverSocket clients emulator) rounds)
    : SocketsClosed host callbacks serverSocket [] (.listening serverSocket clients emulator)
        rounds
      ↔ Reaction.CalmAlong (pollRound host callbacks)
          (fun server round => round.Closes host callbacks server)
          (.listening serverSocket clients emulator) rounds := by
  have start := Server.ledgered_listening serverSocket clients emulator
  constructor
  · exact fun closed => closed.closes host start accepts
  · intro closes
    constructor
    · rintro done next ⟨rest, rfl⟩ goes
      exact ((pollRounds_ledgered host start accepts.of_append closes.of_append).ok goes).balanced
    · intro halted stops
      exact (pollRounds_ledgered host start accepts closes).error stops

/-- Two connections are accepted, the first one is refused and the server is stopped. -/
def closingRounds : List Round :=
  let calm : SOCKET → Revents := fun _ => .none
  let readable : SOCKET → Revents := fun socket => ⟨socket = 4, false, false⟩
  let bad : ClientRead := ⟨ascii "\n", by decide, by decide⟩
  [
    ⟨false, .ready true calm, some 4, fun _ => none⟩,
    ⟨false, .ready true readable, some 5, fun _ => some bad⟩,
    ⟨true, .ready false calm, none, fun _ => none⟩
  ]

/-- Both descriptors are closed. -/
theorem sockets_closed_iff_stopped
    : SocketsClosed (Host.fixed []) ⟨none, none, none⟩ 3 []
        (.listening 3 (Vector.replicate 5 Client.zero) ()) closingRounds := by
  have closes := sockets_closed_iff (Host.fixed []) ⟨none, none, none⟩ 3
    (Vector.replicate 5 Client.zero) () closingRounds (by decide +kernel)
  exact closes.mpr (by decide +kernel)

/-- A connection is accepted, and its peer closes it: `read` returns 0. -/
def departingRounds : List Round := [
  ⟨false, .ready true (fun _ => .none), some 4, fun _ => none⟩,
  ⟨false, .ready false (fun socket => ⟨socket = 4, false, false⟩), none, fun _ => none⟩
]

/-- The slot is free again, but the descriptor was never closed. -/
theorem departed_not_closed
    : let run :=
        genericPollServerStart (Host.fixed []) ⟨none, none, none⟩ 3
          (Vector.replicate 5 Client.zero) () departingRounds
      run.emitted = [.accepted 4]
      ∧ run.result.toOption.map (fun server => server.clients.tracked) = some []
      ∧ ¬ SocketsClosed (Host.fixed []) ⟨none, none, none⟩ 3 []
            (.listening 3 (Vector.replicate 5 Client.zero) ()) departingRounds := by
  intro run
  have emitted : run.emitted = [.accepted 4] := by decide +kernel
  have fds : run.result.toOption.map (fun server => server.clients.tracked) = some [] := by
    decide +kernel
  refine ⟨emitted, fds, fun closed => ?_⟩
  cases goes : run.result with
  | error halted =>
      rw [goes] at fds
      cases fds
  | ok server =>
      have account := closed.1 departingRounds server List.prefix_rfl goes 4 (by decide)
      have tracked : server.clients.tracked = [] := by
        rw [goes] at fds
        exact Option.some.inj fds
      rw [show pollRounds _ _ _ departingRounds = run from rfl, emitted, tracked] at account
      revert account
      decide

end NetworkAccess
