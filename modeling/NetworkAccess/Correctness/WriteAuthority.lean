import NetworkAccess.Parser.Simulation
import NetworkAccess.Server.BlockOrder

/-! Which dispatched line a written block belongs to. `current_command` outlives the lines
whose names are unknown, so authority is only sound where no such line finds it at
`bCORE_WRITE`.
-/

namespace NetworkAccess

variable {Emulator : Type}

/-- What happened since a line was dispatched last, if one was. -/
def sinceCommand (trace : List Event) : Option (List Event) :=
  trace.foldl
    (fun since event => if event.isCommand then some [] else since.map (· ++ [event])) none

/-- The last line went to the handler of `bCORE_WRITE`, which did not fail, and nothing has
been written since.
-/
def Armed (socket : SOCKET) (trace : List Event) : Prop :=
  ∃ args result between,
    sinceCommand trace
      = some (.handled socket (.generic .bCoreWrite) args result :: between)
    ∧ 0 ≤ result
    ∧ ∀ event ∈ between, event.isWrite = false

/-- Every block is written on the authority of the last line before it, and a line has
authority for one block.
-/
def WritesAuthorised (trace : List Event) : Prop :=
  ∀ before socket data after,
    trace = before ++ .blockWritten socket data :: after → Armed socket before

/-- Events that are no commands stand behind the last command. -/
theorem sinceCommand_append (trace events : List Event)
    (quiet : ∀ event ∈ events, event.isCommand = false)
    : sinceCommand (trace ++ events) = (sinceCommand trace).map (· ++ events) := by
  induction events generalizing trace with
  | nil => simp
  | cons event rest ih =>
      have ordinary := quiet event List.mem_cons_self
      rw [← List.singleton_append, ← List.append_assoc,
        ih _ (fun later member => quiet later (List.mem_cons_of_mem _ member)), sinceCommand,
        List.foldl_append, List.foldl_cons, List.foldl_nil, ordinary, ← sinceCommand]
      simp [Function.comp_def]

/-- Nothing has happened yet since a command that just came. -/
theorem sinceCommand_command (trace : List Event) (socket : SOCKET) (name : Bytes)
    (args : List Bytes)
    : sinceCommand (trace ++ [.command socket name args]) = some [] := by
  rw [sinceCommand, List.foldl_append]
  rfl

/-- Authority survives events that are neither lines nor writes. -/
theorem Armed.append {socket : SOCKET} {trace events : List Event} (armed : Armed socket trace)
    (quiet : ∀ event ∈ events, event.isCommand = false ∧ event.isWrite = false)
    : Armed socket (trace ++ events) := by
  obtain ⟨args, result, between, since, accepted, unused⟩ := armed
  refine ⟨args, result, between ++ events, ?_, accepted, ?_⟩
  · rw [sinceCommand_append trace events (fun event member => (quiet event member).1), since]
    rfl
  · intro event member
    rcases List.mem_append.mp member with early | late
    · exact unused event early
    · exact (quiet event late).2

/-- One more event: a write needs authority. -/
theorem WritesAuthorised.concat {trace : List Event} (authorised : WritesAuthorised trace)
    {event : Event} (armed : ∀ socket data, event = .blockWritten socket data → Armed socket trace)
    : WritesAuthorised (trace ++ [event]) :=
  BlocksFollow.concat_iff.mpr ⟨authorised, armed⟩

/-- Events without a write need none. -/
theorem WritesAuthorised.append {trace events : List Event}
    (authorised : WritesAuthorised trace) (quiet : ∀ event ∈ events, event.isWrite = false)
    : WritesAuthorised (trace ++ events) :=
  BlocksFollow.append authorised quiet

/-- The line that the iteration completes, if it completes one. -/
def Config.completedLine (config : Config Emulator) : Option Bytes :=
  let line := lineBytes config.unread
  let atLine :=
    config.client.state = .waitingForCommand ∨ config.client.state = .gettingCommand
  if atLine ∧ newline ∈ line ∧ config.client.commandDataPos + line.length ≤ 2048 then
    some (config.client.partialLine ++ line)
  else
    none

/-- The iteration dispatches a binary command that no table knows while `current_command`
is `bCORE_WRITE`.
-/
def Config.Stale (host : Host Emulator) (config : Config Emulator) : Bool :=
  match config.completedLine with
  | none => false
  | some line =>
      match tokenize line with
      | .error _ => false
      | .ok (cmd, _) =>
          line.head? = some lowerB
          && (lookupCustom host.customMap 0 cmd).isNone
          && (lookupCommand cmd).isNone
          && config.client.currentCommand = EmulatorCommand.bCoreWrite.value

/-- The line of a command branch is the completed one. -/
theorem Config.AtLine.completedLine {config : Config Emulator} (atLine : config.AtLine)
    {line rest : Bytes} (split : config.unread = line ++ newline :: rest)
    (open_ : newline ∉ line) (fits : config.client.commandDataPos + line.length < 2048)
    : config.completedLine = some (config.client.partialLine ++ line ++ [newline]) := by
  have whole : lineBytes config.unread = line ++ [newline] := by
    rw [split, lineBytes_complete rest open_]
  have room : config.client.commandDataPos + (line ++ [newline]).length ≤ 2048 := by
    rw [List.length_append, List.length_singleton]
    omega
  have closed : newline ∈ line ++ [newline] := List.mem_concat_self
  rw [Config.completedLine, whole, if_pos ⟨atLine.imp_left And.left, closed, room⟩,
    List.append_assoc]

/-- A binary line that is not stale, is not swallowed and selects the write function was
accepted by the handler of `bCORE_WRITE`.
-/
theorem Config.armed_of_line {host : Host Emulator} {config : Config Emulator}
    {line cmd : Bytes} {args : List Bytes} (fresh : config.Stale host = false)
    (completed : config.completedLine = some line) (tokens : tokenize line = .ok (cmd, args))
    (binary : line.head? = some lowerB) (trace : List Event)
    (accepted
      : 0 ≤ ((resolve host cmd).serve host config.client.socketFd args config.emulator).size)
    (current
      : (resolve host cmd).current config.client.currentCommand
        = EmulatorCommand.bCoreWrite.value)
    : Armed config.client.socketFd
        (trace
          ++ .command config.client.socketFd cmd args
            :: ((resolve host cmd).serve host config.client.socketFd args
                config.emulator).events) := by
  cases resolution : resolve host cmd with
  | unknown =>
      obtain ⟨noCustom, noBuiltin⟩ := (resolve_unknown_iff host cmd).mp resolution
      rw [resolution] at current
      have stale : config.Stale host = true := by
        rw [Config.Stale, completed]
        dsimp only
        rw [tokens]
        simp only [binary, noCustom, noBuiltin, Option.isNone_none, decide_true, Bool.and_true]
        exact decide_eq_true current
      rw [fresh] at stale
      cases stale
  | unimplemented command =>
      rw [resolution] at accepted
      cases accepted
  | generic command entry =>
      rw [resolution] at accepted current
      obtain rfl := value_eq_bCoreWrite current
      refine ⟨args, _, [], ?_, accepted, by simp⟩
      rw [← List.singleton_append, ← List.append_assoc, sinceCommand_append _ _ (by simp [
        Resolution.serve, Event.isCommand]), sinceCommand_command]
      rfl
  | custom index entry =>
      rw [resolution] at current
      simp only [Resolution.current, EmulatorCommand.value] at current
      omega

-----------------------------------------------------------------------------------------
-- The invariant of a run
-----------------------------------------------------------------------------------------

/-- What a run keeps: every write so far was authorised, and a block that would be written
has authority.
-/
structure Config.Authority (trace : List Event) (config : Config Emulator) : Prop where
  wellFormed : config.client.WellFormed
  authorised : WritesAuthorised trace
  armed
    : config.client.state = .expectingBinaryData ∨ config.client.state = .gettingBinaryData
      → config.client.shallowBinaryBlock = false
      → config.client.currentCommand = EmulatorCommand.bCoreWrite.value
      → Armed config.client.socketFd trace

/-- Serving a command writes no block. -/
theorem Resolution.serve_quiet (host : Host Emulator) (socket : SOCKET) (cmd : Bytes)
    (args : List Bytes) (emulator : Emulator) (resolution : Resolution Emulator)
    : ∀ event ∈ .command socket cmd args :: (resolution.serve host socket args emulator).events,
        event.isWrite = false := by
  cases resolution <;> simp [Resolution.serve, Event.isWrite]

/-- The events before a copy are quiet. -/
theorem Config.Filling.quiet {config : Config Emulator} {client : Client} {data : Bytes}
    {events : List Event} (filling : config.Filling client data events)
    : ∀ event ∈ events, event.isCommand = false ∧ event.isWrite = false :=
  filling.forall_events fun _ _ => ⟨rfl, rfl⟩

/-- The block that is being filled has the authority it would need. -/
theorem Config.Authority.filling {trace : List Event} {config : Config Emulator}
    {client : Client} {data : Bytes} {events : List Event}
    (authority : config.Authority trace) (more : config.unread ≠ [])
    (filling : config.Filling client data events) (keep : client.shallowBinaryBlock = false)
    (writes : client.currentCommand = EmulatorCommand.bCoreWrite.value)
    : Armed client.socketFd (trace ++ events) := by
  have facts := filling.facts authority.wellFormed more
  have swallow : client.shallowBinaryBlock = config.client.shallowBinaryBlock :=
    congrArg Ticket.swallow facts.ticket
  rw [facts.currentCommand] at writes
  rw [facts.socketFd]
  exact (authority.armed filling.state (swallow ▸ keep) writes).append filling.quiet

/-- An iteration that is not stale keeps the invariant, by the cases of an iteration. -/
theorem Config.Authority.step {host : Host Emulator} {trace : List Event}
    {config : Config Emulator} (authority : config.Authority trace)
    (more : config.unread ≠ []) (fresh : config.Stale host = false)
    : WritesAuthorised (trace ++ (iteration host config).emitted)
      ∧ ∀ next, (iteration host config).result = .ok next
        → next.Authority (trace ++ (iteration host config).emitted) := by
  have wellFormed := authority.wellFormed
  have authorised := authority.authorised
  have kept (events : List Event) (next : Config Emulator)
      (run : iteration host config = .emit events next)
      : next.client.WellFormed :=
    (iteration_kept host wellFormed more run).wellFormed
  have cases := iteration_cases host wellFormed more
  generalize same : iteration host config = turn at cases
  cases cases with
  | refuseCommand | refuseBlock | refuseSize =>
      exact ⟨authorised.append (by simp [refuse_eq, Event.isWrite]), nofun⟩
  | longLine | faultyLine => exact ⟨authorised.append (by simp), nofun⟩
  | overflow filling =>
      exact ⟨authorised.append (fun event member => (filling.quiet event member).2), nofun⟩
  | openLine =>
      refine ⟨authorised.append (by simp), ?_⟩
      rintro next ⟨⟩
      refine ⟨kept _ _ same, authorised.append (by simp), ?_⟩
      rintro (state | state) <;> cases state
  | @servedLine line rest data cmd args served atLine split open_ fits stored tokens serves =>
      have quiet := authorised.append
        ((resolve host cmd).serve_quiet host config.client.socketFd cmd args config.emulator)
      rw [← serves] at quiet
      refine ⟨quiet, ?_⟩
      rintro next ⟨⟩
      refine ⟨kept _ _ same, quiet, fun state keep writes => ?_⟩
      have expecting := state.resolve_right (Client.afterLine_state _ _ _)
      obtain ⟨binary, accepted, current⟩ := Client.afterLine_expecting expecting keep
      have socket := (iteration_kept host wellFormed more same).socketFd
      have first := (head_of_stored stored).trans (congrArg some binary)
      rw [socket, serves]
      exact config.armed_of_line fresh (atLine.completedLine split open_ fits) tokens first trace
        (serves ▸ accepted) (current.symm.trans writes)
  | openHeader atHeader =>
      refine ⟨authorised.append (by simp), ?_⟩
      rintro next ⟨⟩
      refine ⟨kept _ _ same, authorised.append (by simp), fun _ keep writes => ?_⟩
      have facts := atHeader.facts wellFormed more
      have swallow := congrArg Ticket.swallow facts.ticket
      rw [Reaction.emitted_emit, List.append_nil]
      exact facts.socketFd ▸ authority.armed atHeader.state (swallow.symm.trans keep)
        (facts.currentCommand.symm.trans writes)
  | noData filling | partBlock filling | stuckBlock filling =>
      have quiet := authorised.append (fun event member => (filling.quiet event member).2)
      have armed := authority.filling more filling
      refine ⟨quiet, ?_⟩
      rintro next ⟨⟩
      exact ⟨kept _ _ same, quiet, fun _ keep writes => armed keep writes⟩
  | @swallowBlock client _ _ _ _ filling =>
      have quiet := authorised.append (fun event member => (filling.quiet event member).2)
      have released : WritesAuthorised (trace ++ _ ++ [.blockReleased client.socketFd]) :=
        quiet.append (by simp [Event.isWrite])
      rw [List.append_assoc] at released
      refine ⟨released, ?_⟩
      rintro next ⟨⟩
      refine ⟨kept _ _ same, released, ?_⟩
      rintro (state | state) <;> cases state
  | @writeBlock client data events count block filling _ counted full keep writes =>
      have armed := authority.filling more filling keep writes
      have quiet := authorised.append (fun event member => (filling.quiet event member).2)
      have written : WritesAuthorised
          (trace ++ events
            ++ [.blockWritten client.socketFd (client.blockData ++ data.take count)]) := by
        refine quiet.concat ?_
        rintro socket bytes ⟨⟩
        exact armed
      have released : WritesAuthorised (_ ++ [.blockReleased client.socketFd]) :=
        written.append (by simp [Event.isWrite])
      rw [List.append_assoc, List.append_assoc] at released
      refine ⟨released, ?_⟩
      rintro next ⟨⟩
      refine ⟨kept _ _ same, released, ?_⟩
      rintro (state | state) <;> cases state

/-- A run in which no iteration dispatches an unknown binary command while
`current_command` is `bCORE_WRITE` writes every block on the authority of the last line,
which the handler of `bCORE_WRITE` accepted, and at most one block for each line.
-/
theorem writes_authorised (host : Host Emulator) (slot : Client) (fd : SOCKET)
    (emulator : Emulator) (reads : List ClientRead)
    (fresh
      : ∀ config,
          Visited host (slot.add fd, emulator) reads config
          → config.unread ≠ []
          → config.Stale host = false)
    : WritesAuthorised (feedReads host (slot.add fd, emulator) reads).emitted := by
  have wellFormed := slot.wellFormed_add fd
  have begins : Config.Authority [] ⟨slot.add fd, [], emulator⟩ := {
    wellFormed := wellFormed
    authorised := by
      intro before socket data after split
      cases before <;> cases split
    armed := by rintro (state | state) <;> cases state
  }
  exact (feedReads_outputs (motive := Config.Authority)
    (fun _ _ authority => authority.authorised)
    (fun _ _ emulator read authority =>
      ⟨Config.wellFormed_enter authority.wellFormed emulator read, authority.authorised,
        authority.armed⟩)
    wellFormed begins
    (fun trace config visited authority more => authority.step more (fresh config visited more))).1

/-- A block behind an accepted `bCORE_WRITE` is written with authority. -/
theorem writes_authorised_single
    : WritesAuthorised
        (feedReads (Host.fixed [(.bCoreWrite, 1)]) (Client.zero.add 4, ())
          [⟨ascii "bCORE_WRITE RAM\n" ++ [0, 0, 0, 0, 1, 7], by decide, by decide⟩]).emitted := by
  refine writes_authorised (Host.fixed [(.bCoreWrite, 1)]) Client.zero 4 () _
    (fun config visited _ => ?_)
  have checked
      : Reaction.checkVisits (iteration (Host.fixed [(.bCoreWrite, 1)])) Config.running
          (fun config => config.Stale (Host.fixed [(.bCoreWrite, 1)]) == false) 3
          (Config.enter (Client.zero.add 4) ()
            ⟨ascii "bCORE_WRITE RAM\n" ++ [0, 0, 0, 0, 1, 7], by decide, by decide⟩)
        = true := by
    decide
  have fresh := Reaction.checkVisits_sound checked visited.of_single
  exact eq_of_beq fresh

/-- An accepted `bCORE_WRITE` with its block, then an unknown binary command with its own.
-/
def staleWrite : ClientRead := {
  bytes := ascii "bCORE_WRITE RAM\n" ++ [0, 0, 0, 0, 1, 7] ++ ascii "bX\n" ++ [0, 0, 0, 0, 1, 8]
  nonempty := by decide
  fits := by decide
}

/-- The block behind the unknown command is written too. -/
theorem writes_unauthorised
    : ¬ WritesAuthorised
        (feedReads (Host.fixed [(.bCoreWrite, 1)]) (Client.zero.add 4, ())
          [staleWrite]).emitted := by
  intro authorised
  have split
      : (feedReads (Host.fixed [(.bCoreWrite, 1)]) (Client.zero.add 4, ()) [staleWrite]).emitted
        = [
          .command 4 (ascii "bCORE_WRITE") [ascii "RAM"],
          .handled 4 (.generic .bCoreWrite) [ascii "RAM"] 1,
          .blockAllocated 4 1,
          .blockWritten 4 [7],
          .blockReleased 4,
          .command 4 (ascii "bX") [],
          .errorReply 4 .invalidCommand (ascii "Invalid command"),
          .blockAllocated 4 1
        ]
          ++ .blockWritten 4 [8] :: [.blockReleased 4] := by
    decide
  obtain ⟨args, result, between, since, -⟩ := authorised _ _ _ _ split
  revert since
  simp [sinceCommand, Event.isCommand]

end NetworkAccess
