import NetworkAccess.Connections.LoopInvariant
import NetworkAccess.Server.BlockOrder

/-! The order of `bCORE_WRITE` lines and blocks in the events of a run, of one client and of all of
them together.
-/

namespace NetworkAccess

variable {Emulator : Type}

/-- A `bCORE_WRITE` line that reached its handler. -/
structure WriteLine where
  socket : SOCKET
  args : List Bytes
deriving DecidableEq

/-- The line of a `bCORE_WRITE` that an event records. -/
def Event.writeLine : Event → Option WriteLine
  | .handled socket (.generic .bCoreWrite) args _ => some ⟨socket, args⟩
  | _ => none

/-- The last line. -/
def lastLine (trace : List Event) : Option WriteLine :=
  trace.foldl (fun last event => event.writeLine.or last) none

/-- The last line, unless a block was written since. -/
def openLine (trace : List Event) : Option WriteLine :=
  trace.foldl (fun last event => if event.isWrite then none else event.writeLine.or last) none

/-- The events of one client. -/
def ownEvents (socket : SOCKET) (trace : List Event) : List Event :=
  trace.filter (fun event => event.socket = socket)

/-- The last line is the newest one. -/
theorem lastLine_concat (trace : List Event) (event : Event)
    : lastLine (trace ++ [event]) = event.writeLine.or (lastLine trace) := by
  simp only [lastLine, List.foldl_append, List.foldl_cons, List.foldl_nil]

/-- A write closes the open line, and a new line is open. -/
theorem openLine_concat (trace : List Event) (event : Event)
    : openLine (trace ++ [event])
      = if event.isWrite then none else event.writeLine.or (openLine trace) := by
  simp only [openLine, List.foldl_append, List.foldl_cons, List.foldl_nil]

/-- An event is added to those of its own connection. -/
theorem ownEvents_concat (socket : SOCKET) (trace : List Event) (event : Event)
    : ownEvents socket (trace ++ [event])
      = if event.socket = socket then ownEvents socket trace ++ [event]
        else ownEvents socket trace := by
  rw [ownEvents, List.filter_append, ← ownEvents]
  split
  case isTrue same => simp [same]
  case isFalse apart => simp [apart]

/-- Other events change neither. -/
theorem lastLine_keep {trace : List Event} {event : Event} (none_ : event.writeLine = none)
    : lastLine (trace ++ [event]) = lastLine trace := by
  rw [lastLine_concat, none_, Option.none_or]

/-- Events that are no lines and no writes leave the open line as it is. -/
theorem openLine_keep {trace : List Event} {event : Event} (none_ : event.writeLine = none)
    (quiet : event.isWrite = false)
    : openLine (trace ++ [event]) = openLine trace := by
  rw [openLine_concat, none_, quiet, if_neg Bool.false_ne_true, Option.none_or]

/-- Events of other clients are not among them. -/
theorem ownEvents_append_of_apart {socket : SOCKET} {trace events : List Event}
    (apart : ∀ event ∈ events, event.socket ≠ socket)
    : ownEvents socket (trace ++ events) = ownEvents socket trace := by
  have nothing : events.filter (fun event => event.socket = socket) = [] :=
    List.filter_eq_nil_iff.mpr (by simpa using apart)
  rw [ownEvents, List.filter_append, nothing, List.append_nil, ownEvents]

/-- A line is of the connection that its event is about. -/
theorem Event.writeLine_socket {event : Event} {line : WriteLine}
    (here : event.writeLine = some line)
    : event.socket = line.socket := by
  unfold Event.writeLine at here
  split at here <;> cases here
  rfl

-----------------------------------------------------------------------------------------
-- Lines and blocks of all clients
-----------------------------------------------------------------------------------------

/-- A client that has sent a line and not yet its block. -/
def OwesBlock (socket : SOCKET) (trace : List Event) : Prop :=
  (openLine (ownEvents socket trace)).isSome

/-- An event that is neither a line nor a block leaves what a connection owes as it is. -/
theorem owesBlock_keep {socket : SOCKET} {trace : List Event} {event : Event}
    (none_ : event.writeLine = none) (quiet : event.isWrite = false)
    : OwesBlock socket (trace ++ [event]) ↔ OwesBlock socket trace := by
  rw [OwesBlock, ownEvents_concat]
  split
  case isTrue => rw [openLine_keep none_ quiet, OwesBlock]
  case isFalse => rfl

/-- Over any number of them a connection still owes its block, by induction on them. -/
theorem OwesBlock.append {socket : SOCKET} {trace events : List Event}
    (owes : OwesBlock socket trace)
    (quiet : ∀ event ∈ events, event.writeLine = none ∧ event.isWrite = false)
    : OwesBlock socket (trace ++ events) := by
  induction events generalizing trace with
  | nil => rwa [List.append_nil]
  | cons event rest ih =>
      obtain ⟨here, later⟩ := List.forall_mem_cons.mp quiet
      rw [← List.singleton_append, ← List.append_assoc]
      exact ih ((owesBlock_keep here.1 here.2).mpr owes) later

/-- A line of the client is owed a block. -/
theorem owesBlock_line (trace : List Event) (socket : SOCKET) (args : List Bytes) (result : Int)
    : OwesBlock socket (trace ++ [.handled socket (.generic .bCoreWrite) args result]) := by
  rw [OwesBlock, ownEvents_concat, if_pos (by rfl), openLine_concat]
  rfl

/-- The last line of all clients was sent by this one. -/
def WroteLast (socket : SOCKET) (trace : List Event) : Prop :=
  (lastLine trace).map WriteLine.socket = some socket

instance (socket : SOCKET) : DecidablePred (WroteLast socket) :=
  fun trace => inferInstanceAs (Decidable ((lastLine trace).map WriteLine.socket = _))

/-- The last line of this client is the last one of all, and no block was written since. -/
def HoldsLine (socket : SOCKET) (trace : List Event) : Prop :=
  ∃ line,
    line.socket = socket
    ∧ openLine trace = some line
    ∧ lastLine (ownEvents socket trace) = some line

/-- The last line of all clients is the last one of its client. -/
theorem lastLine_own {trace : List Event} {line : WriteLine} (last : lastLine trace = some line)
    : lastLine (ownEvents line.socket trace) = some line := by
  induction trace using List.reverseRecOn with
  | nil => cases last
  | append_singleton trace event ih =>
      rw [ownEvents_concat]
      cases here : event.writeLine with
      | some other =>
          rw [lastLine_concat, here] at last
          cases last
          rw [if_pos (Event.writeLine_socket here), lastLine_concat, here]
          rfl
      | none =>
          rw [lastLine_keep here] at last
          split
          · exact (lastLine_keep here).trans (ih last)
          · exact ih last

/-- Where every block follows a line of its own client and no later line of another one, the last
line has been used for a block or is still open.
-/
theorem lastLine_used {trace : List Event} (wroteLast : BlocksFollow WroteLast trace)
    {line : WriteLine} (last : lastLine trace = some line)
    : openLine trace = some line ∨ ¬ OwesBlock line.socket trace := by
  induction trace using List.reverseRecOn with
  | nil => cases last
  | append_singleton trace event ih =>
      obtain ⟨earlier, here⟩ := BlocksFollow.concat_iff.mp wroteLast
      cases write : event.isWrite with
      | true =>
          cases event with
          | blockWritten socket data =>
              have writer := here socket data rfl
              rw [lastLine_keep rfl] at last
              rw [WroteLast, last] at writer
              obtain rfl := Option.some.inj writer
              refine Or.inr ?_
              rw [OwesBlock, ownEvents_concat, if_pos (by rfl), openLine_concat, if_pos (by rfl)]
              nofun
          | _ => cases write
      | false =>
          cases line_ : event.writeLine with
          | some other =>
              rw [lastLine_concat, line_] at last
              rw [openLine_concat, write, if_neg Bool.false_ne_true, line_]
              exact Or.inl last
          | none =>
              rw [lastLine_keep line_] at last
              rw [openLine_keep line_ write, owesBlock_keep line_ write]
              exact ih earlier last

/-- There, every block is written by the client that holds the last line, if each client writes a
block for a line of its own.
-/
theorem BlocksFollow.holdsLine {trace : List Event} (owed : BlocksFollow OwesBlock trace)
    (wroteLast : BlocksFollow WroteLast trace)
    : BlocksFollow HoldsLine trace := by
  intro before socket data after split
  have owes := owed before socket data after split
  obtain ⟨line, last, rfl⟩ := Option.map_eq_some_iff.mp (wroteLast before socket data after split)
  have used := lastLine_used (split ▸ wroteLast).of_append last
  exact ⟨line, rfl, used.resolve_right (not_not.mpr owes), lastLine_own last⟩

-----------------------------------------------------------------------------------------
-- Each client writes a block for a line of its own
-----------------------------------------------------------------------------------------

/-- A command that begins with `b` is `bCORE_WRITE`. -/
def Event.asksWrite : Event → Bool
  | .command _ name _ => name.head? = some lowerB → name = ascii "bCORE_WRITE"
  | _ => true

/-- The clients send no other binary command. -/
def BinaryWrites (trace : List Event) : Prop := ∀ event ∈ trace, event.asksWrite

instance (trace : List Event) : Decidable (BinaryWrites trace) :=
  inferInstanceAs (Decidable (∀ event ∈ trace, _))

/-- What holds of all writes holds of the first ones. -/
theorem BinaryWrites.of_append {trace more : List Event} (writes : BinaryWrites (trace ++ more))
    : BinaryWrites trace :=
  fun event member => writes event (List.mem_append_left _ member)

/-- The slot is in a block, or before one, that will be written. -/
def Client.AwaitsBlock (client : Client) : Prop :=
  (client.state = .expectingBinaryData ∨ client.state = .gettingBinaryData)
  ∧ client.shallowBinaryBlock = false

/-- What an iteration does to the blocks and to what the slot owes. -/
abbrev OrderKept (trace : List Event) (turn : Turn Emulator (Config Emulator)) : Prop :=
  turn.Ensures
    (fun trace next =>
      (BinaryWrites trace → BlocksFollow OwesBlock trace)
      ∧ (BinaryWrites trace
        → next.client.AwaitsBlock
        → OwesBlock next.client.socketFd trace))
    (fun trace _ => BinaryWrites trace → BlocksFollow OwesBlock trace) trace

/-- Before the bytes of a block are copied nothing is written. -/
theorem Config.Filling.passes {config : Config Emulator} {client : Client} {data : Bytes}
    {events : List Event} (filling : config.Filling client data events)
    : ∀ event ∈ events, event.writeLine = none ∧ event.isWrite = false :=
  filling.forall_events fun _ _ => ⟨rfl, rfl⟩

section Order

variable {host : Host Emulator} {entry : GenericEntry Emulator}
  (builtin : resolve host (ascii "bCORE_WRITE") = .generic .bCoreWrite entry)
include builtin

/-- A slot that awaits a block got a line that begins with `b`, and this was a `bCORE_WRITE`. -/
theorem owesBlock_served {config : Config Emulator} {trace : List Event} {line cmd : Bytes}
    {args : List Bytes} (tokens : tokenize line = .ok (cmd, args))
    (binary : line.head? = some lowerB)
    (writes
      : BinaryWrites
          (trace
            ++ .command config.client.socketFd cmd args
              :: ((resolve host cmd).serve host config.client.socketFd args
                  config.emulator).events))
    : OwesBlock config.client.socketFd
        (trace
          ++ .command config.client.socketFd cmd args
            :: ((resolve host cmd).serve host config.client.socketFd args
                config.emulator).events) := by
  have first := tokenize_head tokens binary (by decide) (by decide)
  have asks := writes _ (List.mem_append_right _ List.mem_cons_self)
  obtain rfl := of_decide_eq_true asks first
  rw [builtin, List.append_cons]
  exact owesBlock_line _ _ _ _

/-- An iteration writes a block only for a line of its own, by the cases of an iteration. -/
theorem iteration_order {trace : List Event} {config : Config Emulator}
    (wellFormed : config.client.WellFormed) (more : config.unread ≠ [])
    (follow : BinaryWrites trace → BlocksFollow OwesBlock trace)
    (owes
      : BinaryWrites trace
        → config.client.AwaitsBlock
        → OwesBlock config.client.socketFd trace)
    : OrderKept trace (iteration host config) := by
  have cases := iteration_cases host wellFormed more
  have quiet {events : List Event} (quiet : ∀ event ∈ events, event.isWrite = false)
      (writes : BinaryWrites (trace ++ events))
      : BlocksFollow OwesBlock (trace ++ events) :=
    (follow writes.of_append).append quiet
  have filled {client : Client} {data : Bytes} {events : List Event}
      (filling : config.Filling client data events) (keep : client.shallowBinaryBlock = false)
      (writes : BinaryWrites trace)
      : OwesBlock client.socketFd (trace ++ events) := by
    have facts := filling.facts wellFormed more
    have swallow := congrArg Ticket.swallow facts.ticket
    rw [facts.socketFd]
    exact (owes writes ⟨filling.state, swallow.symm.trans keep⟩).append filling.passes
  generalize same : iteration host config = turn at cases
  cases cases with
  | refuseCommand | refuseBlock | refuseSize =>
      exact quiet (by simp [refuse_eq, Event.isWrite])
  | longLine | faultyLine => exact quiet (List.forall_mem_nil _)
  | overflow filling => exact quiet (fun event member => (filling.passes event member).2)
  | openLine =>
      refine ⟨quiet (List.forall_mem_nil _), fun _ awaits => ?_⟩
      rcases awaits.1 with state | state <;> cases state
  | @servedLine line rest data cmd args served atLine split open_ fits stored tokens serves =>
      subst serves
      refine ⟨quiet ?_, fun writes awaits => ?_⟩
      · cases resolve host cmd <;> simp [Resolution.serve, Event.isWrite]
      · have expecting := awaits.1.resolve_right (Client.afterLine_state _ _ _)
        have binary := (Client.afterLine_expecting expecting awaits.2).1
        have first := (head_of_stored stored).trans (congrArg some binary)
        rw [(iteration_kept host wellFormed more same).socketFd]
        exact owesBlock_served builtin tokens first writes
  | openHeader atHeader =>
      refine ⟨quiet (List.forall_mem_nil _), fun writes awaits => ?_⟩
      have facts := atHeader.facts wellFormed more
      have swallow := congrArg Ticket.swallow facts.ticket
      rw [Reaction.emitted_emit, List.append_nil] at writes ⊢
      exact facts.socketFd ▸ owes writes ⟨atHeader.state, swallow.symm.trans awaits.2⟩
  | noData filling | partBlock filling | stuckBlock filling =>
      refine ⟨quiet (fun event member => (filling.passes event member).2), fun writes awaits => ?_⟩
      have owed := filled filling awaits.2 writes.of_append
      exact owed
  | swallowBlock filling =>
      refine ⟨quiet (List.forall_mem_append.mpr ⟨?_, ?_⟩), fun _ awaits => ?_⟩
      · exact fun event member => (filling.passes event member).2
      · exact List.forall_mem_singleton.mpr rfl
      · rcases awaits.1 with state | state <;> cases state
  | @writeBlock client data events count block filling _ counted full keep =>
      refine ⟨fun writes => ?_, fun _ awaits => ?_⟩
      · have before : BinaryWrites (trace ++ events) := by
          rw [Reaction.emitted_emit, ← List.append_assoc] at writes
          exact writes.of_append
        have written : BlocksFollow OwesBlock
            (trace ++ events
              ++ [.blockWritten client.socketFd (client.blockData ++ data.take count)]) := by
          refine BlocksFollow.concat_iff.mpr
            ⟨quiet (fun event member => (filling.passes event member).2) before, ?_⟩
          rintro socket bytes ⟨⟩
          exact filled filling keep before.of_append
        have released : BlocksFollow OwesBlock (_ ++ [.blockReleased client.socketFd]) :=
          written.append (List.forall_mem_singleton.mpr rfl)
        rw [List.append_assoc, List.append_assoc] at released
        exact released
      · rcases awaits.1 with state | state <;> cases state

end Order

/-- Blocks are written for lines of their own clients. -/
def orderInvariant (host : Host Emulator) {entry : GenericEntry Emulator}
    (builtin : resolve host (ascii "bCORE_WRITE") = .generic .bCoreWrite entry)
    : LoopInvariant host where
  shared := fun trace _ => BinaryWrites trace → BlocksFollow OwesBlock trace
  own := fun trace client =>
    BinaryWrites trace → client.AwaitsBlock → OwesBlock client.socketFd trace
  step := fun formed more follow owes => iteration_order builtin formed more follow owes
  comeAndGo := by
    intro trace _ events follow silent writes
    refine (follow writes.of_append).append (fun event member => ?_)
    have quiet := silent event member
    cases event with
    | blockWritten => cases quiet
    | _ => rfl
  read := fun _ owes => owes
  apart := by
    intro trace client events owes foreign writes awaits
    rw [OwesBlock, ownEvents_append_of_apart foreign]
    exact owes writes.of_append awaits
  added := by
    rintro trace slot fd - ⟨state | state, -⟩ <;> cases state

/-- In a run whose binary commands are `bCORE_WRITE`, every block is written for a line of its own
client, and at most one for each line.
-/
theorem genericPollServerStart_order (host : Host Emulator) {entry : GenericEntry Emulator}
    (builtin : resolve host (ascii "bCORE_WRITE") = .generic .bCoreWrite entry)
    (serverSocket : SOCKET) (clients : Clients) (emulator : Emulator) (rounds : List Round)
    (fresh
      : Reaction.CalmAlong (pollRound host .absent) Round.Fresh
          (.listening serverSocket clients emulator) rounds)
    : let run := genericPollServerStart host .absent serverSocket clients emulator rounds
      BinaryWrites run.emitted → BlocksFollow OwesBlock run.emitted :=
  (orderInvariant host builtin).shared_run (fun _ => BlocksFollow.nil) fresh

end NetworkAccess
