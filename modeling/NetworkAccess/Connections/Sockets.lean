import Mathlib.Data.List.Nodup
import NetworkAccess.Connections.PollSet

/-! The ledger of the accepted descriptors: which of them are open at each point of a run, and
what one round of the poll loop does to them.
-/

namespace NetworkAccess

variable {Emulator : Type}

/-- What an event means for the descriptors that `accept` returned. -/
def Event.socketEntry : Event → Ledger.Entry SOCKET
  | .accepted socket => .opens socket
  | .closed socket => .closes socket
  | _ => .silent

/-- Every accepted descriptor was closed at most once for each time it was accepted, and those
that are still open are the given ones. The server's own socket is not accepted.
-/
def Balanced (serverSocket : SOCKET) (trace : List Event) (fds : List SOCKET) : Prop :=
  ∀ fd, fd ≠ serverSocket → Ledger.Account Event.socketEntry trace fd (decide (fd ∈ fds))

/-- Serving requests opens and closes nothing. -/
theorem Event.Works.not_concerns {socket fd : SOCKET} {event : Event} (works : event.Works socket)
    : ¬ Ledger.Concerns Event.socketEntry fd event := by
  have ofRequests := works.2
  cases event with
  | accepted | closed => cases ofRequests
  | _ => simp [Ledger.Concerns, Event.socketEntry]

/-- Neither does removing a client. -/
theorem removal_not_concerns {callbacks : Callbacks Emulator} {client : Client}
    {fd other : SOCKET} {emulator : Emulator}
    : ∀ event ∈ removal callbacks client fd emulator,
        ¬ Ledger.Concerns Event.socketEntry other event := by
  intro event member
  rcases List.mem_append.mp member with freed | notified
  · rw [Client.freed] at freed
    split at freed
    case isTrue =>
      rw [List.mem_singleton.mp freed]
      simp [Ledger.Concerns, Event.socketEntry]
    case isFalse => cases freed
  · cases callback : callbacks.removeClient with
    | none =>
        rw [callback] at notified
        cases notified
    | some function =>
        rw [callback] at notified
        rw [List.mem_singleton.mp notified]
        simp [Ledger.Concerns, Event.socketEntry]

/-- The entry is given up in this round without being closed. -/
def Round.Abandons (round : Round) (entry : PollFd) : Prop :=
  entry.revents.Abandons (round.read entry.fd)

instance (round : Round) : DecidablePred round.Abandons :=
  fun entry => inferInstanceAs (Decidable (entry.revents.Abandons _))

/-- The descriptor has an entry that is given up in this round. -/
def Round.Loses (round : Round) (pollFds : List PollFd) (fd : SOCKET) : Prop :=
  ∃ entry ∈ pollFds, entry.fd = fd ∧ round.Abandons entry

instance (round : Round) (pollFds : List PollFd) : DecidablePred (round.Loses pollFds) :=
  fun fd => inferInstanceAs (Decidable (∃ entry ∈ pollFds, entry.fd = fd ∧ round.Abandons entry))

-----------------------------------------------------------------------------------------
-- The client loop
-----------------------------------------------------------------------------------------

/-- Inside the client loop that was entered with `pollFds`, the open descriptors are those that
are tracked and those that the round loses. Entries that were served and stay are not lost.
-/
structure Cursor.Accounts (serverSocket : SOCKET) (round : Round) (pollFds : List PollFd)
    (trace : List Event) (cursor : Cursor Emulator)
    : Prop where
  sound : cursor.server.Sound
  own : cursor.server.serverSocket = serverSocket
  known : cursor.server.pollFds ⊆ pollFds
  served : ∀ entry ∈ cursor.server.pollFds.take cursor.i, ¬ round.Abandons entry
  accounts
    : ∀ fd,
        fd ≠ serverSocket
        → Ledger.Account Event.socketEntry trace fd
            (decide (fd ∈ cursor.server.clients.tracked ∨ round.Loses pollFds fd))

section ClientLoop

variable {serverSocket : SOCKET} {host : Host Emulator} {callbacks : Callbacks Emulator}
  {round : Round} {pollFds : List PollFd} {trace : List Event} {cursor : Cursor Emulator}

/-- The entries of a descriptor agree, so what becomes of it is what becomes of its entry. -/
theorem Round.loses_iff (distinct : (pollFds.map PollFd.fd).Nodup) {entry : PollFd}
    (member : entry ∈ pollFds)
    : round.Loses pollFds entry.fd ↔ round.Abandons entry := by
  refine ⟨?_, fun abandons => ⟨entry, member, rfl, abandons⟩⟩
  rintro ⟨other, otherMember, same, abandons⟩
  rwa [← List.inj_on_of_nodup_map distinct otherMember member same]

/-- The loop is entered with the open descriptors tracked. -/
theorem Cursor.Accounts.enter {server : Server Emulator} (sound : server.Sound)
    (own : server.serverSocket = serverSocket)
    (balanced : Balanced serverSocket trace server.clients.tracked)
    : Cursor.Accounts serverSocket round server.pollFds trace (⟨server, 0⟩ : Cursor Emulator) where
  sound := sound
  own := own
  known := List.Subset.refl _
  served := by simp
  accounts := by
    intro fd apart
    have lost : round.Loses server.pollFds fd → fd ∈ server.clients.tracked := by
      rintro ⟨entry, member, rfl, -⟩
      exact sound.tracked.subset (List.mem_map_of_mem member)
    simpa [or_iff_left_of_imp lost] using balanced fd apart

/-- A connection that stays keeps everything accounted for. -/
theorem Cursor.Accounts.keep (accounts : cursor.Accounts serverSocket round pollFds trace)
    {entry : PollFd} (here : cursor.server.pollFds[cursor.i]? = some entry) {index : Fin 5}
    {events : List Event} {client : Client} {emulator : Emulator}
    (taken : cursor.server.clients[index].socketFd ≠ 0)
    (attended
      : attend host entry.revents (round.read entry.fd) (cursor.server.slot index)
        = .emit events ⟨true, client, emulator⟩)
    : (cursor.keep index client emulator).Accounts serverSocket round pollFds
        (trace ++ events) := by
  have formed : (cursor.server.slot index).1.WellFormed := accounts.sound.formed index taken
  have kept := attend_kept host formed (congrArg Reaction.result attended)
  have stayed := attend_stayed formed attended
  refine {
    sound := Cursor.keep_sound accounts.sound kept.1 (kept.2 rfl) emulator
    own := accounts.own
    known := accounts.known
    served := ?_
    accounts := ?_
  }
  · intro other member
    have split : cursor.server.pollFds.take (cursor.i + 1)
        = cursor.server.pollFds.take cursor.i ++ [entry] := by
      rw [List.take_add_one, here, Option.toList_some]
    have member : other ∈ cursor.server.pollFds.take (cursor.i + 1) := member
    rw [split, List.mem_append, List.mem_singleton] at member
    rcases member with before | rfl
    · exact accounts.served other before
    · exact stayed.1
  · intro fd apart
    have same : client.socketFd = cursor.server.clients[index].socketFd := kept.1
    have account := (accounts.accounts fd apart).append
      (fun event member => (stayed.2 event member).not_concerns)
    simpa [Cursor.keep, Clients.tracked_set_same same] using account

/-- A connection that leaves keeps the account: it was closed, or the round loses it. -/
theorem Cursor.Accounts.drop (distinct : (pollFds.map PollFd.fd).Nodup)
    (accounts : cursor.Accounts serverSocket round pollFds trace) {entry : PollFd}
    (here : cursor.server.pollFds[cursor.i]? = some entry) {index : Fin 5}
    {events : List Event} {client : Client} {emulator : Emulator}
    (slot : cursor.server.clients[index].socketFd = entry.fd)
    (taken : cursor.server.clients[index].socketFd ≠ 0)
    (attended
      : attend host entry.revents (round.read entry.fd) (cursor.server.slot index)
        = .emit events ⟨false, client, emulator⟩)
    : (cursor.drop callbacks index client entry.fd emulator).Accounts serverSocket round pollFds
        (trace ++ (events ++ removal callbacks client entry.fd emulator)) := by
  have formed : (cursor.server.slot index).1.WellFormed := accounts.sound.formed index taken
  have member : entry ∈ pollFds := accounts.known (List.mem_of_getElem? here)
  have freed := Clients.tracked_set_freed taken (rfl : client.remove.socketFd = 0)
  rw [slot] at freed
  have gone : entry.fd ∉ Clients.tracked (cursor.server.clients.set index client.remove) :=
    (List.nodup_cons.mp (freed.nodup_iff.mpr accounts.sound.distinct)).1
  refine {
    sound := Cursor.drop_sound accounts.sound here slot taken callbacks client emulator
    own := accounts.own
    known := fun other kept =>
      accounts.known ((swapRemove_perm here).subset (List.mem_cons_of_mem entry kept))
    served := ?_
    accounts := ?_
  }
  · intro other before
    have front := (split_at here).2
    have before : other ∈ (swapRemove cursor.server.pollFds cursor.i).take cursor.i := before
    rw [swapRemove_eq here, List.take_append_of_le_length (Nat.le_of_eq front.symm),
      List.take_of_length_le (Nat.le_of_eq front)] at before
    exact accounts.served other before
  · intro fd apart
    have account := accounts.accounts fd apart
    rw [← List.append_assoc]
    apply Ledger.Account.append ?_ removal_not_concerns
    show Ledger.Account _ _ _ (decide (fd ∈ Clients.tracked
      (cursor.server.clients.set index client.remove) ∨ round.Loses pollFds fd))
    rcases attend_left attended with ⟨abandons, rfl⟩ | ⟨kept, read, last, -, -, rfl⟩
    · -- The descriptor moves from the tracked to the lost ones.
      have lost : round.Loses pollFds entry.fd := (Round.loses_iff distinct member).mpr abandons
      rw [List.append_nil]
      by_cases same : fd = entry.fd
      · subst same
        simpa [lost] using account
      · simpa [← freed.mem_iff, same] using account
    · -- It is closed and no longer tracked.
      have works := feedRead_works host formed read
      have found : ¬ round.Loses pollFds entry.fd :=
        fun lost => kept ((Round.loses_iff distinct member).mp lost)
      have account := account.append (fun event member => (works event member).not_concerns)
      rw [← List.append_assoc]
      by_cases same : fd = entry.fd
      · subst same
        simp only [← freed.mem_iff, List.mem_cons, true_or, decide_true] at account
        have closing
            : Event.socketEntry (.closed (cursor.server.slot index).1.socketFd)
              = .closes entry.fd :=
          congrArg Ledger.Entry.closes slot
        simpa [gone, found] using account.closes closing
      · have apart : ∀ event ∈ [Event.closed (cursor.server.slot index).1.socketFd],
            ¬ Ledger.Concerns Event.socketEntry fd event := by
          intro event member
          rw [List.mem_singleton.mp member]
          have differ : (cursor.server.slot index).1.socketFd ≠ fd :=
            fun equal => same (equal.symm.trans slot)
          simp [Ledger.Concerns, Event.socketEntry, differ]
        simpa [← freed.mem_iff, same] using account.append apart

/-- Every iteration keeps the accounts. -/
theorem Cursor.Accounts.serve (distinct : (pollFds.map PollFd.fd).Nodup)
    (accounts : cursor.Accounts serverSocket round pollFds trace) (runs : cursor.running)
    : Reaction.Ensures (Cursor.Accounts serverSocket round pollFds)
        (fun _ halted => halted.shutdown.OfConnection) trace
        (serveClient host callbacks round cursor) := by
  have here := List.getElem?_eq_getElem runs
  obtain ⟨index, slot, taken, cases⟩ := serveClient_cases host callbacks round accounts.sound here
  have formed : (cursor.server.slot index).1.WellFormed := accounts.sound.formed index taken
  generalize serveClient host callbacks round cursor = turn at cases
  cases cases with
  | stays attended => exact accounts.keep here taken attended
  | leaves attended => exact accounts.drop distinct here slot taken attended
  | fails attended => exact attend_stops host formed (congrArg Reaction.result attended)

end ClientLoop

-----------------------------------------------------------------------------------------
-- One round
-----------------------------------------------------------------------------------------

/-- The open descriptors are the tracked ones, and the server's own socket is none of them. -/
structure Server.Ledgered (serverSocket : SOCKET) (trace : List Event) (server : Server Emulator)
    : Prop where
  sound : server.Sound
  own : server.serverSocket = serverSocket
  apart : serverSocket ∉ server.clients.tracked
  balanced : Balanced serverSocket trace server.clients.tracked

/-- `accept` returns a descriptor that is not open. -/
def Round.Accepts (serverSocket : SOCKET) (server : Server Emulator) (round : Round) : Prop :=
  round.Fresh server ∧ round.accepted ≠ some serverSocket

instance (serverSocket : SOCKET) (server : Server Emulator)
    : DecidablePred (Round.Accepts serverSocket server) :=
  fun round => inferInstanceAs (Decidable (round.Fresh server ∧ _))

/-- A loop that has returned left the tracked descriptors open and no other ones. -/
def Halted.Returns (serverSocket : SOCKET) (trace : List Event) (halted : Halted Emulator) : Prop :=
  ∀ value,
    halted.shutdown = .returned value
    → Balanced serverSocket trace halted.server.clients.tracked

/-- A round that is completed gives no entry up. -/
def Round.Closes (host : Host Emulator) (callbacks : Callbacks Emulator)
    (server : Server Emulator) (round : Round)
    : Prop :=
  ∀ begun next,
    (beginRound callbacks round server).result = .ok begun
    → (pollRound host callbacks server round).result = .ok next
    → ∀ entry ∈ begun.pollFds, ¬ round.Abandons entry

instance (host : Host Emulator) (callbacks : Callbacks Emulator) (server : Server Emulator)
    (round : Round)
    : Decidable (round.Closes host callbacks server) :=
  match begins : (beginRound callbacks round server).result,
      goes : (pollRound host callbacks server round).result with
  | .ok begun, .ok next =>
      decidable_of_iff (∀ entry ∈ begun.pollFds, ¬ round.Abandons entry)
        ⟨
          fun kept _ _ same _ => Except.ok.inj (begins.symm.trans same) ▸ kept,
          fun closes => closes begun next begins goes
        ⟩
  | .ok _, .error _ => isTrue (fun _ _ _ same => nomatch goes.symm.trans same)
  | .error _, _ => isTrue (fun _ _ same => nomatch begins.symm.trans same)

section Rounds

variable {serverSocket : SOCKET} (host : Host Emulator) {callbacks : Callbacks Emulator}
  {round : Round} {trace : List Event} {server : Server Emulator}

/-- An end that a connection caused is no return. -/
theorem Halted.returns_of_connection {halted : Halted Emulator}
    (ofConnection : halted.shutdown.OfConnection)
    : halted.Returns serverSocket trace := by
  intro value returned
  rw [returned] at ofConnection
  exact ofConnection.elim

/-- Where the client loop ends, the lost descriptors are the open ones that are not tracked. -/
theorem Cursor.Accounts.finish {pollFds : List PollFd} {cursor : Cursor Emulator}
    (distinct : (pollFds.map PollFd.fd).Nodup) (apart : ∀ entry ∈ pollFds, entry.fd ≠ serverSocket)
    (accounts : cursor.Accounts serverSocket round pollFds trace) (finished : ¬ cursor.running)
    : Balanced serverSocket trace cursor.server.clients.tracked
      ↔ ∀ entry ∈ pollFds, ¬ round.Abandons entry := by
  have all : cursor.server.pollFds.take cursor.i = cursor.server.pollFds :=
    List.take_of_length_le (Nat.le_of_not_lt finished)
  have found {fd : SOCKET} (tracked : fd ∈ cursor.server.clients.tracked)
      : ¬ round.Loses pollFds fd := by
    obtain ⟨entry, member, rfl⟩ := List.mem_map.mp (accounts.sound.tracked.symm.subset tracked)
    rw [Round.loses_iff distinct (accounts.known member)]
    exact accounts.served entry (all.symm ▸ member)
  constructor
  · intro balanced entry member abandons
    have lost : round.Loses pollFds entry.fd := (Round.loses_iff distinct member).mpr abandons
    have same := (balanced entry.fd (apart entry member)).unique
      (accounts.accounts entry.fd (apart entry member))
    simp only [lost, or_true, decide_true, decide_eq_true_eq] at same
    exact found same lost
  · intro kept fd other
    have found : ¬ round.Loses pollFds fd := by
      rintro ⟨entry, member, -, abandons⟩
      exact kept entry member abandons
    simpa [found] using accounts.accounts fd other

/-- After the client loop the open descriptors are the tracked ones if and only if no entry was
given up.
-/
theorem clientLoop_balanced (ledgered : server.Ledgered serverSocket trace)
    : Reaction.Ensures
        (fun trace next =>
          next.Sound
          ∧ next.serverSocket = serverSocket
          ∧ serverSocket ∉ next.clients.tracked
          ∧ (Balanced serverSocket trace next.clients.tracked
            ↔ ∀ entry ∈ server.pollFds, ¬ round.Abandons entry))
        (Halted.Returns serverSocket) trace (clientLoop host callbacks round server) := by
  have distinct := ledgered.sound.polledOnce
  have tracked {entry : PollFd} (member : entry ∈ server.pollFds)
      : entry.fd ∈ server.clients.tracked :=
    ledgered.sound.tracked.subset (List.mem_map_of_mem member)
  have loop
      : Reaction.Ensures
          (fun trace cursor =>
            cursor.Accounts serverSocket round server.pollFds trace ∧ ¬ cursor.running)
          (Halted.Returns serverSocket) trace (serveClients host callbacks round server) := by
    refine .runWhile ?stuck ?each (.enter ledgered.sound ledgered.own ledgered.balanced)
    case stuck => exact fun _ _ _ _ _ => nofun
    case each =>
      intro trace cursor _ accounts runs
      apply (accounts.serve distinct runs).imp
      · exact fun _ _ kept => kept
      · exact fun _ _ ofConnection => Halted.returns_of_connection ofConnection
  refine loop.andThen ?_
  rintro trace cursor ⟨accounts, finished⟩
  rw [Reaction.pure_eq, Reaction.Ensures.emit_iff, List.append_nil]
  refine ⟨accounts.sound, accounts.own, ?_, accounts.finish distinct ?_ finished⟩
  · intro member
    obtain ⟨entry, polled, same⟩ := List.mem_map.mp (accounts.sound.tracked.symm.subset member)
    exact ledgered.apart (same ▸ tracked (accounts.known polled))
  · intro entry member same
    exact ledgered.apart (same ▸ tracked member)

/-- A stop closes every tracked descriptor and empties the table. -/
theorem stopServer_returns (ledgered : server.Ledgered serverSocket trace)
    : Reaction.Ensures (Server.Ledgered serverSocket) (Halted.Returns serverSocket) trace
        (stopServer server) := by
  rw [stopServer, Reaction.Ensures.stop_iff]
  intro value _ fd apart
  have other : ∀ event ∈ [Event.closed server.serverSocket],
      ¬ Ledger.Concerns Event.socketEntry fd event := by
    intro event member
    rw [List.mem_singleton.mp member, ledgered.own]
    simpa [Ledger.Concerns, Event.socketEntry] using Ne.symm apart
  have closing (key : SOCKET) : Event.socketEntry (.closed key) = .closes key := rfl
  have closed := (ledgered.balanced fd apart).closes_all closing ledgered.sound.distinct
  rw [← List.append_assoc, server.clients.tracked_emptied]
  exact closed.append other

/-- A new connection is tracked, or it is closed at once. -/
theorem acceptClient_ledgered (ledgered : server.Ledgered serverSocket trace)
    (accepts : round.Accepts serverSocket server)
    : Reaction.Ensures (Server.Ledgered serverSocket) (Halted.Returns serverSocket) trace
        (acceptClient callbacks round.accepted server) := by
  cases accepted : round.accepted with
  | none =>
      rw [acceptClient, Reaction.Ensures.stop_iff, List.append_nil]
      exact fun _ _ => ledgered.balanced
  | some fd =>
      obtain ⟨nonzero, unused⟩ := accepts.1 fd accepted
      have other : fd ≠ serverSocket := fun same => accepts.2 (same ▸ accepted)
      rw [acceptClient]
      rcases addToClients_cases server.clients fd with full | ⟨index, free, added⟩
      · rw [full]
        refine ⟨ledgered.sound, ledgered.own, ledgered.apart, fun key apart => ?_⟩
        have opened := (ledgered.balanced key apart).opens_perm
          (show Event.socketEntry (.accepted fd) = .opens fd from rfl) unused (.refl _)
        have closed := opened.closes_perm
          (show Event.socketEntry (.closed fd) = .closes fd from rfl)
          (List.nodup_cons.mpr ⟨unused, ledgered.sound.distinct⟩) (.refl _)
        rwa [List.append_assoc] at closed
      · rw [added]
        dsimp only
        rw [if_pos (ledgered.sound.room free)]
        have taken := Clients.tracked_set_taken free
          (show (server.clients[index].add fd).socketFd ≠ 0 from nonzero)
        refine ⟨ledgered.sound.add free nonzero unused _, ledgered.own, ?_, fun key apart => ?_⟩
        · rw [taken.mem_iff, List.mem_cons, not_or]
          exact ⟨Ne.symm other, ledgered.apart⟩
        · have opened := (ledgered.balanced key apart).opens_perm
            (show Event.socketEntry (.accepted fd) = .opens fd from rfl) unused taken
          have silent : ∀ event ∈ (notify callbacks.addClient (.clientAdded fd) fd
              server.emulator).1, ¬ Ledger.Concerns Event.socketEntry key event := by
            cases callbacks.addClient with
            | none => exact List.forall_mem_nil _
            | some function =>
                intro event member
                rw [List.mem_singleton.mp member]
                simp [Ledger.Concerns, Event.socketEntry]
          simpa using opened.append silent

/-- What precedes the client loop keeps the ledger, and so does what ends the poll loop. -/
theorem beginRound_ledgered (ledgered : server.Ledgered serverSocket trace)
    (accepts : round.Accepts serverSocket server)
    : Reaction.Ensures (Server.Ledgered serverSocket) (Halted.Returns serverSocket) trace
        (beginRound callbacks round server) := by
  simp only [beginRound]
  split
  case isTrue => exact stopServer_returns ledgered
  split
  case h_1 interrupted _ =>
    rw [Reaction.Ensures.stop_iff, List.append_nil]
    exact fun _ _ => ledgered.balanced
  have polled (revents : SOCKET → Revents) (emulator : Emulator)
      : Server.Ledgered serverSocket trace {
          server with
          pollFds := server.pollFds.map (fun entry => ⟨entry.fd, revents entry.fd⟩)
          emulator
        } :=
    ⟨ledgered.sound.polled _ _, ledgered.own, ledgered.apart, ledgered.balanced⟩
  split
  case isTrue => exact acceptClient_ledgered (polled _ _) accepts
  case isFalse =>
    rw [Reaction.pure_eq, Reaction.Ensures.emit_iff, List.append_nil]
    exact polled _ _

/-- Whether a completed round closes what it drops shows in the state before its client loop. -/
theorem Round.closes_iff {begun next : Server Emulator} {events more : List Event}
    (begins : beginRound callbacks round server = .emit events begun)
    (loops : clientLoop host callbacks round begun = .emit more next)
    : round.Closes host callbacks server ↔ ∀ entry ∈ begun.pollFds, ¬ round.Abandons entry := by
  have completed : (pollRound host callbacks server round).result = .ok next := by
    rw [pollRound, begins, Reaction.bind_eq, Reaction.emit_andThen, loops]
    rfl
  have reached : (beginRound callbacks round server).result = .ok begun := by rw [begins]; rfl
  refine ⟨fun closes => closes begun next reached completed, ?_⟩
  intro kept other _ begins _
  rw [reached] at begins
  cases begins
  exact kept

/-- A round keeps the ledger if and only if it gives no entry up. -/
theorem pollRound_balanced (ledgered : server.Ledgered serverSocket trace)
    (accepts : round.Accepts serverSocket server)
    : Reaction.Ensures
        (fun trace next =>
          next.Sound
          ∧ next.serverSocket = serverSocket
          ∧ serverSocket ∉ next.clients.tracked
          ∧ (Balanced serverSocket trace next.clients.tracked
            ↔ round.Closes host callbacks server))
        (Halted.Returns serverSocket) trace (pollRound host callbacks server round) := by
  have start
      : Reaction.Ensures (Server.Ledgered serverSocket) (Halted.Returns serverSocket) trace
          (beginRound callbacks round server) :=
    beginRound_ledgered ledgered accepts
  rcases (beginRound callbacks round server).cases_eq with
    ⟨events, begun, begins⟩ | ⟨events, halted, stops⟩
  · rw [begins] at start
    have loop
        : Reaction.Ensures _ (Halted.Returns serverSocket) (trace ++ events)
            (clientLoop host callbacks round begun) :=
      clientLoop_balanced host start
    rw [pollRound, begins, Reaction.bind_eq, Reaction.emit_andThen, Reaction.Ensures.prepend_iff]
    rcases (clientLoop host callbacks round begun).cases_eq with
      ⟨more, next, loops⟩ | ⟨more, halted, stops⟩
    · rw [loops] at loop ⊢
      rw [Reaction.Ensures.emit_iff, Round.closes_iff host begins loops]
      exact loop
    · rw [stops] at loop ⊢
      exact loop
  · rw [stops] at start
    rw [pollRound, stops]
    exact start

end Rounds

end NetworkAccess
