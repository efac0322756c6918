import NetworkAccess.Connections.Sockets
import NetworkAccess.Parser.Refusals

/-! The protocol-error path from the refused byte to the end of the connection: what was asked
for before is done, the peer is told once, and nothing of the connection is left.
-/

namespace NetworkAccess

variable {Emulator : Type}

/-- What serving an entry does when the input that was read for it is refused: `completed` for
the requests that are complete before the refused byte, then the refusal and the removal.
-/
structure RejectedEntry (host : Host Emulator) (callbacks : Callbacks Emulator) (round : Round)
    (cursor : Cursor Emulator) (entry : PollFd) (index : Fin 5) (read : ClientRead)
    (last : Config Emulator) (completed : List Event) (refusal : Refusal)
    (next : Cursor Emulator)
    : Prop where
  refused : RefusedRead host (cursor.server.slot index) read last completed refusal
  works : ∀ event ∈ completed, event.Works entry.fd
  turn
    : serveClient host callbacks round cursor
      = .emit
          (completed
            ++ refusal.events entry.fd
            ++ [.closed entry.fd]
            ++ refusal.released entry.fd
            ++ (notify callbacks.removeClient (.clientRemoved entry.fd) entry.fd
              last.emulator).1)
          next
  freed
    : next.server.clients[index].socketFd = 0 ∧ next.server.clients[index].binaryBlock = none
  others
    : ∀ other : Fin 5, other ≠ index → next.server.clients[other] = cursor.server.clients[other]
  gone : entry.fd ∉ next.server.pollFds.map PollFd.fd
  entries : (entry :: next.server.pollFds).Perm cursor.server.pollFds

section Entry

variable {host : Host Emulator} {callbacks : Callbacks Emulator} {round : Round}
  {cursor next : Cursor Emulator} {entry : PollFd} {index : Fin 5} {read : ClientRead}
  {last : Config Emulator} {completed : List Event} {refusal : Refusal}

/-- The refusal is told once, the socket is closed once, and every call comes before. -/
theorem RejectedEntry.events
    (rejected
      : RejectedEntry host callbacks round cursor entry index read last completed refusal next)
    : let events := (serveClient host callbacks round cursor).emitted
      events.filter Event.isCall = completed.filter Event.isCall
      ∧ events.filter Event.isRefusal
        = [.errorReply entry.fd .protocolError refusal.reason]
      ∧ events.count (.closed entry.fd) = 1 := by
  have quiet : completed.filter Event.isRefusal = [] := by
    simpa using rejected.refused.before
  have kept : completed.count (.closed entry.fd) = 0 := by
    rw [List.count_eq_zero]
    intro member
    cases (rejected.works _ member).2
  rw [rejected.turn]
  cases refusal <;> cases callbacks.removeClient <;>
    simp [quiet, kept, Refusal.events, Refusal.allocated, Refusal.released, notify, Event.isCall]
      <;> rfl

/-- An entry whose input is refused is served that way. -/
theorem serveClient_rejected (sound : cursor.server.Sound)
    (here : cursor.server.pollFds[cursor.i]? = some entry)
    (up : ¬ (entry.revents.pollErr ∨ entry.revents.pollHup)) (ready : entry.revents.pollIn)
    (bytes : round.read entry.fd = some read)
    (slot : cursor.server.clients[index].socketFd = entry.fd)
    (rejects
      : (feedRead host (cursor.server.slot index) read).result = .error ⟨.rejected, last⟩)
    : ∃ completed refusal next,
        RejectedEntry host callbacks round cursor entry index read last completed refusal
          next := by
  obtain ⟨found, same, taken, cases⟩ := serveClient_cases host callbacks round sound here
  obtain rfl : found = index :=
    cursor.server.clients.unique sound.distinct (same.trans slot.symm) taken
  have formed : (cursor.server.slot found).1.WellFormed := sound.formed found taken
  have socket : (cursor.server.slot found).1.socketFd = entry.fd := slot
  obtain ⟨completed, refusal, refused⟩ := feedRead_rejected formed rejects
  have attends
      : attend host entry.revents (round.read entry.fd) (cursor.server.slot found)
        = .emit ((feedRead host (cursor.server.slot found) read).emitted ++ [.closed entry.fd])
            ⟨false, last.client, last.emulator⟩ := by
    rw [bytes, (attend_ready host _ up ready).2 read, settle, rejects, socket]
  generalize same : serveClient host callbacks round cursor = turn at cases
  cases cases with
  | stays attended =>
      rw [attends] at attended
      cases attended
  | fails attended =>
      rw [attends] at attended
      cases attended
  | leaves attended =>
      rw [attends] at attended
      cases attended
      have emitted := refused.emitted
      have block := refused.block
      rw [socket] at emitted block
      have works : ∀ event ∈ completed, event.Works entry.fd := by
        intro event member
        have works := feedRead_works host formed read event
        rw [emitted, socket] at works
        exact works (List.mem_append_left _ member)
      refine ⟨completed, refusal, cursor.drop callbacks found last.client entry.fd last.emulator, {
        refused
        works
        turn := ?events
        freed := ?freed
        others := ?others
        gone := sound.removed here
        entries := swapRemove_perm here
      }⟩
      case events =>
        rw [same, emitted, removal, block]
        simp only [List.append_assoc]
      case freed => simp [Cursor.drop, Client.remove]
      case others => exact fun other apart => Clients.set_other _ (Ne.symm apart) _

end Entry

/-- In every run of the poll loop, wherever the client loop comes to an entry with data that
`preprocess_data` refuses, the requests that are complete before the refused byte are worked on,
the bytes behind it do not matter, the peer gets one `protocol_error` reply as the last output,
and the connection is gone: closed once, its slot free without a block, its entry taken out of
the poll set and nothing else changed.
-/
theorem refusals_contained (host : Host Emulator) (callbacks : Callbacks Emulator)
    (serverSocket : SOCKET) (clients : Clients) (emulator : Emulator) (rounds : List Round)
    (fresh
      : Reaction.CalmAlong (pollRound host callbacks) Round.Fresh
          (.listening serverSocket clients emulator) rounds)
    {done : List Round} {round : Round} {server begun : Server Emulator}
    {cursor : Cursor Emulator} {entry : PollFd} {index : Fin 5} {read : ClientRead}
    {last : Config Emulator} (front : done ++ [round] <+: rounds)
    (goes
      : (genericPollServerStart host callbacks serverSocket clients emulator done).result
        = .ok server)
    (begins : (beginRound callbacks round server).result = .ok begun)
    (visits
      : Reaction.Visits (serveClient host callbacks round) Cursor.running ⟨begun, 0⟩ cursor)
    (here : cursor.server.pollFds[cursor.i]? = some entry)
    (up : ¬ (entry.revents.pollErr ∨ entry.revents.pollHup)) (ready : entry.revents.pollIn)
    (bytes : round.read entry.fd = some read)
    (slot : cursor.server.clients[index].socketFd = entry.fd)
    (rejects
      : (feedRead host (cursor.server.slot index) read).result = .error ⟨.rejected, last⟩)
    : ∃ completed refusal next,
        RejectedEntry host callbacks round cursor entry index read last completed refusal next
        ∧ (let events := (serveClient host callbacks round cursor).emitted
          events.filter Event.isCall = completed.filter Event.isCall
          ∧ events.filter Event.isRefusal
            = [.errorReply entry.fd .protocolError refusal.reason]
          ∧ events.count (.closed entry.fd) = 1) := by
  obtain ⟨rest, rfl⟩ := front
  have tracks
      : ServerTurn.Tracks callbacks []
          (genericPollServerStart host callbacks serverSocket clients emulator done) :=
    pollRounds_tracks host fresh.of_append.of_append
  have before := tracks.ok goes
  have accepts : round.Fresh server := (fresh.of_append.of_result goes).1
  have sound := ((beginRound_tracks before accepts).ok begins).sound.visits host callbacks round
    visits
  obtain ⟨completed, refusal, next, rejected⟩ :=
    serveClient_rejected sound here up ready bytes slot rejects
  exact ⟨completed, refusal, next, rejected, rejected.events⟩

/-- A line and the header of a block of another size than the handler announced. -/
def mismatchingRead : ClientRead :=
  ⟨ascii "A\nbCORE_WRITE W\n" ++ [0, 0, 0, 0, 3, 7], by decide, by decide⟩

/-- A connection is accepted, and then it sends that. -/
def acceptingRound : Round := ⟨false, .ready true (fun _ => .none), some 4, fun _ => none⟩

/-- The round in which it sends that. -/
def refusingRound : Round :=
  ⟨false, .ready false (fun _ => ⟨true, false, false⟩), none, fun _ => some mismatchingRead⟩

/-- The block is refused for its size, and the connection is gone. -/
theorem refusals_contained_mismatch
    : let host := Host.fixed [(.bCoreWrite, 2)]
      ∃ cursor last completed refusal next,
        RejectedEntry host ⟨none, none, none⟩ refusingRound cursor ⟨4, ⟨true, false, false⟩⟩ 0
          mismatchingRead last completed refusal next := by
  intro host
  let run :=
    genericPollServerStart host ⟨none, none, none⟩ 3 (Vector.replicate 5 Client.zero) ()
      [acceptingRound]
  have facts
      : (run.result.toOption.bind (fun server =>
          (beginRound ⟨none, none, none⟩ refusingRound server).result.toOption)).map
            (fun begun =>
              (
                begun.pollFds[0]?,
                begun.clients[(0 : Fin 5)].socketFd,
                (observed (feedRead host (begun.slot 0) mismatchingRead)).2
              ))
        = some (some ⟨4, ⟨true, false, false⟩⟩, 4, some .rejected) := by
    decide +kernel
  cases goes : run.result with
  | error halted =>
      rw [goes] at facts
      cases facts
  | ok server =>
      rw [goes] at facts
      cases begins : (beginRound ⟨none, none, none⟩ refusingRound server).result with
      | error halted =>
          simp [Except.toOption, begins] at facts
      | ok begun =>
          simp only [Except.toOption, begins, Option.bind_some, Option.map_some,
            Option.some.injEq, Prod.mk.injEq] at facts
          obtain ⟨here, slot, ended⟩ := facts
          obtain ⟨last, rejects⟩ := stopped_of_observed ended
          obtain ⟨completed, refusal, next, rejected, -⟩ :=
            refusals_contained host ⟨none, none, none⟩ 3 (Vector.replicate 5 Client.zero) ()
              [acceptingRound, refusingRound] (by decide +kernel)
              (show [acceptingRound] ++ [refusingRound] <+: _ from List.prefix_rfl) goes begins
              .refl here (by decide) rfl rfl slot rejects
          exact ⟨⟨begun, 0⟩, last, completed, refusal, next, rejected⟩

end NetworkAccess
