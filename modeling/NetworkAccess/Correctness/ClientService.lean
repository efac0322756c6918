import NetworkAccess.Library.Sweep
import NetworkAccess.Server.PollLoop

/-! The client loop handles every entry of the poll set once, although a removal moves the last
entry to the place of the removed one.
-/

namespace NetworkAccess

variable {Emulator : Type}

/-- What the client loop does for an entry. -/
inductive Handling where
  | removed
  | stays
  | leaves
  | untouched
deriving DecidableEq, Repr

/-- Whether the descriptor is still in the poll set after it was handled. -/
def Handling.keeps : Handling → Bool
  | .removed | .leaves => false
  | .stays | .untouched => true

/-- The client failed or hung up. -/
def Revents.Down (revents : Revents) : Prop := revents.pollErr ∨ revents.pollHup

/-- The handling that the `revents` of an entry ask for. -/
def Handling.AsAsked (revents : Revents) : Handling → Prop
  | .removed => revents.Down
  | .stays | .leaves => ¬ revents.Down ∧ revents.pollIn
  | .untouched => ¬ revents.Down ∧ revents.pollIn = false

section Iterations

variable (host : Host Emulator) (callbacks : Callbacks Emulator) (round : Round)

/-- An entry is handled, with one call of `read_client_data` for an entry with data and none for the
others.
-/
inductive Handles (cursor : Cursor Emulator) (entry : PollFd)
    : Handling → List Event → Cursor Emulator → Prop
  | removed {events next} (down : entry.revents.Down)
    (drops : dropClient callbacks entry.fd cursor = .emit events next)
    : Handles cursor entry .removed events next
  | stays {events server} (up : ¬ entry.revents.Down) (ready : entry.revents.pollIn)
    (reads
      : readClientData host entry.fd (round.read entry.fd) cursor.server
        = .emit events (true, server))
    : Handles cursor entry .stays events ⟨server, cursor.i + 1⟩
  | leaves {events more server next} (up : ¬ entry.revents.Down) (ready : entry.revents.pollIn)
    (reads
      : readClientData host entry.fd (round.read entry.fd) cursor.server
        = .emit events (false, server))
    (drops : dropClient callbacks entry.fd { cursor with server } = .emit more next)
    : Handles cursor entry .leaves (events ++ more) next
  | untouched (up : ¬ entry.revents.Down) (quiet : entry.revents.pollIn = false)
    : Handles cursor entry .untouched [] { cursor with i := cursor.i + 1 }

/-- The reading of an entry never comes back. -/
structure NeverRead (cursor : Cursor Emulator) (entry : PollFd) (events : List Event)
    (halted : Halted Emulator)
    : Prop where
  up : ¬ entry.revents.Down
  ready : entry.revents.pollIn
  reads
    : readClientData host entry.fd (round.read entry.fd) cursor.server = .stop events halted

/-- Entries are handled one after the other. -/
inductive Pass
    : Cursor Emulator → List (PollFd × Handling) → List Event → Cursor Emulator → Prop
  | here {cursor} : Pass cursor [] [] cursor
  | handle {cursor next last entry handling log events more}
    (found : cursor.server.pollFds[cursor.i]? = some entry)
    (handles : Handles host callbacks round cursor entry handling events next)
    (later : Pass next log more last)
    : Pass cursor ((entry, handling) :: log) (events ++ more) last

variable {host callbacks round}

/-- Removing a client takes its entry off the poll set. -/
theorem dropClient_entries (callbacks : Callbacks Emulator) (fd : SOCKET)
    (cursor : Cursor Emulator)
    : ∃ events next,
        dropClient callbacks fd cursor = .emit events next
        ∧ next.server.pollFds = swapRemove cursor.server.pollFds cursor.i
        ∧ next.i = cursor.i := by
  rw [dropClient, removeClient]
  cases firstSlot cursor.server.clients fd with
  | none => exact ⟨_, _, rfl, rfl, rfl⟩
  | some index => exact ⟨_, _, rfl, rfl, rfl⟩

/-- Reading from a client leaves the poll set alone. -/
theorem readClientData_entries {fd : SOCKET} {answer : Option ClientRead}
    {server next : Server Emulator} {events : List Event} {stays : Bool}
    (reads : readClientData host fd answer server = .emit events (stays, next))
    : next.pollFds = server.pollFds := by
  unfold readClientData at reads
  split at reads
  case h_1 =>
    cases reads
    rfl
  dsimp only at reads
  split at reads
  case h_1 => cases reads
  split at reads <;>
    cases reads
  all_goals rfl

/-- What an iteration of the client loop does for its entry. -/
theorem serveClient_handles (host : Host Emulator) (callbacks : Callbacks Emulator)
    (round : Round) {cursor : Cursor Emulator} {entry : PollFd}
    (found : cursor.server.pollFds[cursor.i]? = some entry)
    : (∃ handling events next,
        Handles host callbacks round cursor entry handling events next
        ∧ serveClient host callbacks round cursor = .emit events next)
      ∨ ∃ events halted,
          NeverRead host round cursor entry events halted
          ∧ serveClient host callbacks round cursor = .stop events halted := by
  rw [serveClient, found]
  dsimp only
  by_cases down : entry.revents.pollErr ∨ entry.revents.pollHup
  · obtain ⟨events, next, drops, -⟩ := dropClient_entries callbacks entry.fd cursor
    rw [if_pos down]
    exact Or.inl ⟨.removed, events, next, .removed down drops, drops⟩
  rw [if_neg down]
  cases ready : entry.revents.pollIn with
  | false => exact Or.inl ⟨.untouched, [], _, .untouched down ready, rfl⟩
  | true =>
      rw [if_pos rfl, Reaction.bind_eq]
      rcases (readClientData host entry.fd (round.read entry.fd) cursor.server).cases_eq with
        ⟨events, ⟨stays, server⟩, reads⟩ | ⟨events, halted, reads⟩
      · refine Or.inl ?_
        rw [reads, Reaction.emit_andThen]
        cases stays with
        | true => exact ⟨.stays, events, _, .stays down ready reads, by simp⟩
        | false =>
            obtain ⟨more, next, drops, -⟩ :=
              dropClient_entries callbacks entry.fd { cursor with server }
            refine ⟨.leaves, events ++ more, next, .leaves down ready reads drops, ?_⟩
            rw [if_neg Bool.false_ne_true, drops, Reaction.prepend_emit]
      · rw [reads]
        exact Or.inr ⟨events, halted, ⟨down, ready, reads⟩, rfl⟩

/-- Handling an entry is one step of a pass over the poll set. -/
theorem Handles.sweeps {cursor next : Cursor Emulator} {entry : PollFd} {handling : Handling}
    {events : List Event} (handles : Handles host callbacks round cursor entry handling events next)
    (found : cursor.server.pollFds[cursor.i]? = some entry) {log : List (PollFd × Bool)}
    {last : List PollFd} {place : Nat} (later : Sweeps next.server.pollFds next.i log last place)
    : Sweeps cursor.server.pollFds cursor.i ((entry, handling.keeps) :: log) last place := by
  cases handles with
  | removed down drops =>
      obtain ⟨_, _, same, entries, i⟩ := dropClient_entries callbacks entry.fd cursor
      cases drops.symm.trans same
      rw [entries, i] at later
      exact .drop found later
  | stays up ready reads =>
      rw [readClientData_entries reads] at later
      exact .keep found later
  | @leaves _ _ server _ up ready reads drops =>
      obtain ⟨_, _, same, entries, i⟩ :=
        dropClient_entries callbacks entry.fd { cursor with server }
      cases drops.symm.trans same
      rw [entries, i] at later
      dsimp only at later
      rw [readClientData_entries reads] at later
      exact .drop found later
  | untouched up quiet => exact .keep found later

/-- A descriptor is handled as its `revents` ask for. -/
theorem Handles.asAsked {cursor next : Cursor Emulator} {entry : PollFd} {handling : Handling}
    {events : List Event} (handles : Handles host callbacks round cursor entry handling events next)
    : handling.AsAsked entry.revents := by
  cases handles with
  | removed down => exact down
  | stays up ready | leaves up ready => exact ⟨up, ready⟩
  | untouched up quiet => exact ⟨up, quiet⟩

/-- The log, without what was read. -/
def stayed (log : List (PollFd × Handling)) : List (PollFd × Bool) :=
  log.map (fun handled => (handled.1, handled.2.keeps))

/-- A pass over the poll set sweeps it: the index moves on from each descriptor that stays, and not
from one that was removed.
-/
theorem Pass.sweeps {cursor last : Cursor Emulator} {log : List (PollFd × Handling)}
    {events : List Event} (pass : Pass host callbacks round cursor log events last)
    : Sweeps cursor.server.pollFds cursor.i (stayed log) last.server.pollFds last.i := by
  induction pass with
  | here => exact .here
  | handle found handles _ ih => exact handles.sweeps found ih

/-- Every descriptor that a pass handles is handled as its `revents` ask for. -/
theorem Pass.asAsked {cursor last : Cursor Emulator} {log : List (PollFd × Handling)}
    {events : List Event} (pass : Pass host callbacks round cursor log events last)
    : ∀ handled ∈ log, handled.2.AsAsked handled.1.revents := by
  induction pass with
  | here => nofun
  | handle found handles _ ih => exact List.forall_mem_cons.mpr ⟨handles.asAsked, ih⟩

/-- The iterations of the loop are a pass that comes to the end of the poll set or to an entry whose
reading never comes back, by induction on the fuel.
-/
theorem runWhile_pass (host : Host Emulator) (callbacks : Callbacks Emulator) (round : Round)
    {fuel : Nat} (cursor : Cursor Emulator)
    (enough : cursor.server.pollFds.length - cursor.i < fuel)
    (exhausted : Cursor Emulator → Halted Emulator)
    : let run :=
        Reaction.runWhile (serveClient host callbacks round) Cursor.running exhausted fuel cursor
      ∃ log events last,
        Pass host callbacks round cursor log events last
        ∧ (run = .emit events last ∧ ¬ last.running
          ∨ ∃ entry more halted,
              last.server.pollFds[last.i]? = some entry
              ∧ NeverRead host round last entry more halted
              ∧ run = .stop (events ++ more) halted) := by
  induction fuel generalizing cursor with
  | zero => omega
  | succ fuel ih =>
      by_cases runs : cursor.running
      case neg =>
        refine ⟨[], [], cursor, .here, Or.inl ⟨?_, runs⟩⟩
        exact Reaction.runWhile_of_not_running runs
      have found := List.getElem?_eq_getElem runs
      rw [Reaction.runWhile, if_pos runs]
      rcases serveClient_handles host callbacks round found with
        ⟨handling, events, next, handles, serves⟩ | ⟨events, halted, never, serves⟩
      · -- a removal shortens the rest of the poll set, too
        have shorter := (handles.sweeps found .here).seen.length_eq
        rw [List.map_cons, List.map_nil, List.singleton_append, List.length_cons,
          List.length_drop, List.length_drop] at shorter
        obtain ⟨log, more, last, pass, ends⟩ := ih next (by omega)
        refine ⟨_ :: log, events ++ more, last, .handle found handles pass, ?_⟩
        rw [serves, Reaction.emit_andThen]
        rcases ends with ⟨run, finished⟩ | ⟨entry, rest, halted, stuck, never, run⟩
        · rw [run, Reaction.prepend_emit]
          exact Or.inl ⟨rfl, finished⟩
        · rw [run, Reaction.prepend_stop]
          exact Or.inr ⟨entry, rest, halted, stuck, never, by rw [List.append_assoc]⟩
      · rw [serves]
        exact ⟨[], [], cursor, .here, Or.inr ⟨_, events, halted, found, never, rfl⟩⟩

end Iterations

/-- The client loop handles every entry that the poll set has at its start exactly once and as its
`revents` ask for, and it leaves the entries that were not removed, unless the reading of an entry
never comes back; then no entry was handled twice before.
-/
theorem clientLoop_handles_each (host : Host Emulator) (callbacks : Callbacks Emulator)
    (round : Round) (server : Server Emulator)
    : ∃ log events last,
        Pass host callbacks round ⟨server, 0⟩ log events last
        ∧ (∀ handled ∈ log, handled.2.AsAsked handled.1.revents)
        ∧ ((clientLoop host callbacks round server = .emit events last.server
            ∧ (log.map Prod.fst).Perm server.pollFds
            ∧ last.server.pollFds = decided true (stayed log)
            ∧ (decided false (stayed log) ++ last.server.pollFds).Perm server.pollFds)
          ∨ ∃ entry more halted ahead,
              NeverRead host round last entry more halted
              ∧ clientLoop host callbacks round server = .stop (events ++ more) halted
              ∧ (log.map Prod.fst ++ entry :: ahead).Perm server.pollFds) := by
  obtain ⟨log, events, last, pass, ends⟩ :=
    runWhile_pass host callbacks round ⟨server, 0⟩ (Nat.lt_succ_self server.pollFds.length)
      (fun cursor => ⟨.spinning, cursor.server⟩)
  refine ⟨log, events, last, pass, pass.asAsked, ?_⟩
  have entries : (stayed log).map Prod.fst = log.map Prod.fst := by
    rw [stayed, List.map_map]
    rfl
  have sweeps : Sweeps server.pollFds 0 (stayed log) last.server.pollFds last.i := pass.sweeps
  rw [← entries, clientLoop, serveClients]
  rcases ends with ⟨run, finished⟩ | ⟨entry, more, halted, found, never, run⟩
  · have ended : last.server.pollFds.length ≤ last.i := Nat.not_lt.mp finished
    refine Or.inl ⟨?_, sweeps.seen_all ended, sweeps.survivors ended, sweeps.removed ended⟩
    rw [run]
    simp
  · refine Or.inr ⟨entry, more, halted, last.server.pollFds.drop (last.i + 1), never, ?_, ?_⟩
    · rw [run]
      rfl
    · have seen := sweeps.seen
      obtain ⟨inside, rfl⟩ := List.getElem?_eq_some_iff.mp found
      rwa [List.drop_eq_getElem_cons inside, List.drop_zero] at seen

end NetworkAccess
