import NetworkAccess.Connections.Replay
import NetworkAccess.Dummy.Replies
import NetworkAccess.Library.Fronts

/-! What the dummy sends for one event of the server: nothing, or one whole reply to the socket of
the event.
-/

namespace NetworkAccess

/-- The bytes that were sent on a socket. -/
def Dummy.textTo (socket : SOCKET) (dummy : Dummy) : Bytes :=
  dummy.sent.flatMap (fun sent => if sent.1 = socket then sent.2 else [])

/-- The commands whose handlers send a reply. -/
def EmulatorCommand.hasReply : EmulatorCommand → Bool
  | .emulatorInfo | .emulationStatus | .gameInfo | .coresList | .coreInfo | .coreCurrentInfo
  | .coreMemories | .coreRead => true
  | _ => false

/-- What may be sent for an event. -/
def Event.AnsweredWith (text : Bytes) : Event → Prop
  | .handled _ (.generic known) _ _ =>
      if known.hasReply then CompleteReply text else text = []
  | .errorReply _ _ _ => CompleteReply text
  | .blockWritten _ _ => text = [] ∨ CompleteReply text
  | _ => text = []

/-- The reason of an error reply is one line. -/
def Event.PlainReason : Event → Prop
  | .errorReply _ _ reason => newline ∉ reason
  | _ => True

/-- The ROM stays the same, and defined behaviour is not come back to. -/
structure Dummy.Keeps (before after : Dummy) : Prop where
  romPath : after.romPath = before.romPath
  defined : after.undefined = false → before.undefined = false

section Keeps

variable {before middle after : Dummy} {socket other : SOCKET} {text : Bytes}

/-- A dummy keeps its path. -/
theorem Dummy.Keeps.refl (dummy : Dummy) : dummy.Keeps dummy := ⟨rfl, id⟩

/-- One that has left its defined behaviour does so if it keeps its path. -/
theorem Dummy.Keeps.left (romPath : after.romPath = before.romPath)
    (left : after.undefined = true)
    : before.Keeps after := by
  refine ⟨romPath, fun defined => ?_⟩
  rw [left] at defined
  cases defined

/-- What is kept by each of two parts is kept by both. -/
theorem Dummy.Keeps.trans (first : before.Keeps middle) (later : middle.Keeps after)
    : before.Keeps after :=
  ⟨later.romPath.trans first.romPath, first.defined ∘ later.defined⟩

/-- A dummy that sends keeps its path. -/
theorem Sends.keeps (sends : Sends socket before after text) : before.Keeps after := by
  obtain ⟨buffers, -, rfl⟩ := sends
  exact ⟨rfl, id⟩

/-- What is transmitted comes behind what the socket was sent before. -/
theorem Dummy.Transmits.textTo (sends : before.Transmits socket text after)
    : after.textTo socket = before.textTo socket ++ text := by
  obtain ⟨buffers, rfl, sent⟩ := sends
  have own : buffers.flatMap (fun buffer => if socket = socket then buffer else [])
      = buffers.flatten := by
    simp [List.flatMap_def]
  rw [Dummy.textTo, sent, List.flatMap_append, List.flatMap_map, own]
  rfl

/-- What is sent on a socket is not sent on another one. -/
theorem Dummy.Transmits.textTo_other (sends : before.Transmits socket text after)
    (apart : socket ≠ other)
    : after.textTo other = before.textTo other := by
  obtain ⟨buffers, rfl, sent⟩ := sends
  have none : buffers.flatMap (fun buffer => if socket = other then buffer else []) = [] := by
    simp [if_neg apart]
  rw [Dummy.textTo, sent, List.flatMap_append, List.flatMap_map, none, List.append_nil]
  rfl

end Keeps

-----------------------------------------------------------------------------------------
-- Handlers
-----------------------------------------------------------------------------------------

/-- A handler that sends nothing. -/
def SendsNothing (handler : Handler Dummy) : Prop :=
  ∀ socket args dummy,
    let after := (handler socket args dummy).2
    dummy.Keeps after ∧ dummy.Transmits socket [] after

/-- A handler that sends one whole reply, or leaves defined behaviour. -/
def SendsReply (handler : Handler Dummy) : Prop :=
  ∀ socket args dummy,
    let after := (handler socket args dummy).2
    dummy.Keeps after
    ∧ (newline ∉ dummy.romPath
      → after.undefined = false
      → ∃ text, CompleteReply text ∧ dummy.Transmits socket text after)

/-- The buffer of a pair without newlines is one line, which the cut of `snprintf` keeps. -/
theorem hashLine_lines {key value : Bytes} (plainKey : newline ∉ key)
    (plainValue : newline ∉ value)
    : ∃ line, line ≠ [] ∧ newline ∉ line ∧ completeLines (hashLine key value) = [line] := by
  let size := (key.length + value.length) % 2 ^ 32 + 1
  have plain : newline ∉ (key ++ colon :: value).take size := by
    intro inside
    rcases List.mem_append.mp (List.mem_of_mem_take inside) with member | member
    · exact plainKey member
    · rcases List.mem_cons.mp member with same | member
      · exact absurd same (by decide)
      · exact plainValue member
  refine ⟨(key ++ colon :: value).take size, ?some, plain, ?lines⟩
  case some =>
    rw [Ne, List.take_eq_nil_iff]
    simp [size]
  case lines =>
    rw [hashLine, completeLines_line plain, completeLines_open List.not_mem_nil]

/-- A reply of pairs without newlines is complete. -/
theorem hashLines_complete {pairs : List (Bytes × Bytes)}
    (plain : ∀ pair ∈ pairs, newline ∉ pair.1 ∧ newline ∉ pair.2)
    : CompleteReply (linesText (hashLines pairs)) := by
  refine Or.inl ⟨_, fun line member => ?_, rfl⟩
  obtain ⟨pair, here, inside⟩ := List.mem_flatMap.mp member
  obtain ⟨own, some_, open_, lines⟩ := hashLine_lines (plain pair here).1 (plain pair here).2
  rw [lines] at inside
  cases List.mem_singleton.mp inside
  exact ⟨some_, open_⟩

/-- A hash reply of lines is a whole reply. -/
theorem replyHash_sendsReply {pairs : Dummy → List (String × Bytes)}
    (plain
      : ∀ dummy, newline ∉ dummy.romPath
        → ∀ pair ∈ pairs dummy, newline ∉ ascii pair.1 ∧ newline ∉ pair.2)
    : SendsReply (fun socket _ dummy => replyHash (pairs dummy) socket dummy) := by
  intro socket args dummy
  have sends := replyHash_lines (pairs dummy) socket dummy
  refine ⟨sends.keeps, fun open_ _ => ⟨_, hashLines_complete ?_, sends.transmits⟩⟩
  intro pair member
  obtain ⟨source, here, rfl⟩ := List.mem_map.mp member
  exact plain dummy open_ source here

/-- The reply to `EMULATION_STATUS` is whole. -/
theorem dummyEmuStatus_sendsReply : SendsReply dummyEmuStatus := by
  intro socket args dummy
  obtain ⟨status, scannable, open_, sends⟩ := dummyEmuStatus_lines socket args dummy
  refine ⟨sends.keeps, fun _ _ => ⟨_, Or.inl ⟨_, ?_, rfl⟩, sends.transmits⟩⟩
  refine List.forall_mem_cons.mpr ⟨⟨List.ne_nil_of_mem scannable.2, open_⟩, ?_⟩
  exact List.forall_mem_singleton.mpr (by decide)

/-- A read that keeps to defined behaviour sends the bytes that its arguments name. -/
theorem dummyCoreMemoryRead_loads {socket : SOCKET} {args : List Bytes} {dummy : Dummy}
    (defined : (dummyCoreMemoryRead socket args dummy).2.undefined = false)
    : ∃ name offset size rest data,
        args = name :: offset :: size :: rest
        ∧ dummy.load (memoryNamed name) (getOffset offset) (toUnsigned (atoi size)) = some data
        ∧ data.length < 2 ^ 32
        ∧ dummy.Transmits socket (0 :: htonl data.length ++ data)
            (dummyCoreMemoryRead socket args dummy).2 := by
  match args with
  | [] | [_] | [_, _] => cases defined
  | name :: offset :: size :: rest =>
      have fails := @dummyCoreMemoryRead_none socket name offset size rest dummy _ rfl
      cases loads : dummy.load (memoryNamed name) (getOffset offset) (toUnsigned (atoi size)) with
      | none =>
          rw [fails (Or.inl loads)] at defined
          cases defined
      | some data =>
          by_cases shown : HexStringFits (toUnsigned (atoi size))
          · have fits : toUnsigned (atoi size) < 2 ^ 32 := by
              rw [toUnsigned]
              omega
            refine ⟨name, offset, size, rest, data, rfl, loads,
              Dummy.load_length loads ▸ fits, ?_⟩
            rw [dummyCoreMemoryRead_some socket dummy rfl loads shown, Dummy.load_length loads]
            exact ⟨[[0], htonl (toUnsigned (atoi size)), data], by simp, rfl⟩
          · rw [fails (Or.inr shown)] at defined
            cases defined

/-- `CORE_READ` keeps the path, whatever its arguments are. -/
theorem dummyCoreMemoryRead_keepsPath (socket : SOCKET) (args : List Bytes) (dummy : Dummy)
    : dummy.Keeps (dummyCoreMemoryRead socket args dummy).2 := by
  unfold dummyCoreMemoryRead
  split
  case h_1 =>
    dsimp only
    split
    case h_1 => exact .left rfl rfl
    case h_2 =>
      split
      case isTrue => exact ⟨rfl, id⟩
      case isFalse => exact .left rfl rfl
  case h_2 => exact .left rfl rfl

/-- The reply to `CORE_READ` is whole where it is defined. -/
theorem dummyCoreMemoryRead_sendsReply : SendsReply dummyCoreMemoryRead := by
  intro socket args dummy
  refine ⟨dummyCoreMemoryRead_keepsPath socket args dummy, fun _ defined => ?_⟩
  obtain ⟨name, offset, size, rest, data, rfl, -, fits, sent⟩ := dummyCoreMemoryRead_loads defined
  exact ⟨_, Or.inr ⟨data, fits, rfl⟩, sent⟩

/-- `bCORE_WRITE` sends nothing before its block. -/
theorem dummyCoreMemoryWrite_sendsNothing : SendsNothing dummyCoreMemoryWrite := by
  intro socket args dummy
  match args with
  | [] | [_] => exact ⟨.left rfl rfl, .nothing rfl⟩
  | name :: offset :: rest => exact ⟨⟨rfl, id⟩, .nothing rfl⟩

/-- Each handler of the table sends what its command does. -/
theorem handler_sends
    : ∀ entry ∈ Dummy.host.genericMap,
        if entry.command.hasReply then
          SendsReply entry.function
        else
          SendsNothing entry.function := by
  have still : SendsNothing dummyNp := fun _ _ dummy => ⟨.refl dummy, .nothing rfl⟩
  have pause : SendsNothing dummyEmuPause := fun _ _ _ => ⟨⟨rfl, id⟩, .nothing rfl⟩
  have stop : SendsNothing dummyEmuStop := fun _ _ _ => ⟨⟨rfl, id⟩, .nothing rfl⟩
  have resume : SendsNothing dummyEmuResume := fun _ _ _ => ⟨⟨rfl, id⟩, .nothing rfl⟩
  have write := dummyCoreMemoryWrite_sendsNothing
  have status := dummyEmuStatus_sendsReply
  have read := dummyCoreMemoryRead_sendsReply
  have info : SendsReply dummyEmuInfo :=
    @replyHash_sendsReply (fun _ => _) (fun _ _ => by decide +kernel)
  have cores : SendsReply dummyCoresList :=
    @replyHash_sendsReply (fun _ => _) (fun _ _ => by decide +kernel)
  have memories : SendsReply dummyCoreMemories :=
    @replyHash_sendsReply (fun _ => _) (fun _ _ => by decide +kernel)
  have game : SendsReply dummyGameInfo := by
    refine replyHash_sendsReply (fun dummy open_ => ?_)
    have file : newline ∉ ascii "file" := by decide
    refine List.forall_mem_cons.mpr ⟨by decide, List.forall_mem_cons.mpr ⟨⟨file, open_⟩, ?_⟩⟩
    exact List.forall_mem_singleton.mpr (by decide)
  simp only [Dummy.host, List.forall_mem_cons]
  simp [EmulatorCommand.hasReply, *]

/-- Every command with a reply is in the table. -/
theorem hasReply_listed {command : EmulatorCommand} (replies : command.hasReply)
    : ∃ entry ∈ Dummy.host.genericMap, entry.command = command := by
  cases command <;> first | decide | cases replies

-----------------------------------------------------------------------------------------
-- Blocks
-----------------------------------------------------------------------------------------

/-- A copy is followed by the reply of a write or by nothing. -/
theorem Dummy.copyToMemory_sends (socket : SOCKET) (data : Bytes) (dummy : Dummy)
    : let after := dummy.copyToMemory socket data
      dummy.Keeps after
      ∧ (dummy.Transmits socket [] after ∨ dummy.Transmits socket (ascii "\n\n") after) := by
  rw [Dummy.copyToMemory]
  split
  case isTrue => exact ⟨.refl dummy, Or.inl (.nothing rfl)⟩
  case isFalse =>
    dsimp only
    split
    case h_1 => exact ⟨.left rfl rfl, Or.inl (.nothing rfl)⟩
    case h_2 =>
      split
      case h_1 => exact ⟨.left rfl rfl, Or.inl (.nothing rfl)⟩
      case h_2 =>
        split
        case isTrue => exact ⟨⟨rfl, id⟩, Or.inr ⟨[ascii "\n\n"], rfl, rfl⟩⟩
        case isFalse => exact ⟨⟨rfl, id⟩, Or.inl (.nothing rfl)⟩

/-- A block is answered with a simple reply, or with nothing. -/
theorem writeToMemory_sends (socket : SOCKET) (data : Bytes) (dummy : Dummy)
    : let after := (writeToMemory socket data dummy).2
      dummy.Keeps after
      ∧ (dummy.Transmits socket [] after ∨ dummy.Transmits socket (ascii "\n\n") after) := by
  rw [writeToMemory]
  split
  case isTrue => exact ⟨.left rfl rfl, Or.inl (.nothing rfl)⟩
  split
  case isTrue =>
    split
    case isTrue => exact ⟨.left rfl rfl, Or.inl (.nothing rfl)⟩
    case isFalse =>
      -- the size that is set here is not sent
      have copies := Dummy.copyToMemory_sends socket (data.drop 4)
        { dummy with sizeToWrite := ntohl data, sizeHeaderGet := true }
      exact ⟨⟨copies.1.romPath, copies.1.defined⟩, copies.2⟩
  case isFalse => exact Dummy.copyToMemory_sends socket data dummy

-----------------------------------------------------------------------------------------
-- Events
-----------------------------------------------------------------------------------------

/-- An error reply with a plain reason is complete. -/
theorem errorReply_complete (errorType : ErrorType) {reason : Bytes} (plain : newline ∉ reason)
    : CompleteReply (errorReplyText errorType reason) := by
  have kind : newline ∉ errorTypeText errorType := by cases errorType <;> decide
  refine Or.inl ⟨[ascii "error:" ++ errorTypeText errorType, ascii "reason:" ++ reason], ?_, ?_⟩
  · have keys : newline ∉ ascii "error:" ∧ newline ∉ ascii "reason:" := by decide
    refine List.forall_mem_cons.mpr ⟨?_, List.forall_mem_singleton.mpr ?_⟩
    · refine ⟨List.append_ne_nil_of_left_ne_nil (by decide) _, ?_⟩
      exact List.not_mem_append keys.1 kind
    · refine ⟨List.append_ne_nil_of_left_ne_nil (by decide) _, ?_⟩
      exact List.not_mem_append keys.2 plain
  · have starts : ascii "\nerror:" = newline :: ascii "error:" := by decide
    have between : ascii "\nreason:" = newline :: ascii "reason:" := by decide
    have ends : ascii "\n\n" = [newline, newline] := by decide
    rw [errorReplyText_eq, starts, between, ends]
    simp [linesText, joinLines]

/-- The call of an event sends what may be sent for it, on its own socket. -/
theorem Dummy.call_sends (dummy : Dummy) (event : Event)
    : let after := Dummy.host.call dummy event
      dummy.Keeps after
      ∧ (newline ∉ dummy.romPath
        → event.PlainReason
        → after.undefined = false
        → ∃ text, event.AnsweredWith text ∧ dummy.Transmits event.socket text after) := by
  have silent : dummy.Keeps dummy ∧ dummy.Transmits event.socket [] dummy :=
    ⟨.refl dummy, .nothing rfl⟩
  cases event with
  | handled socket target args result =>
      cases target with
      | custom index => exact ⟨silent.1, fun _ _ _ => ⟨[], rfl, silent.2⟩⟩
      | generic command =>
          rcases Dummy.host.call_generic dummy socket command args result with
            ⟨unlisted, still⟩ | ⟨entry, listed, same, calls⟩
          · rw [still]
            refine ⟨silent.1, fun _ _ _ => ⟨[], ?_, silent.2⟩⟩
            rw [Event.AnsweredWith, if_neg]
            intro replies
            obtain ⟨entry, listed, same⟩ := hasReply_listed replies
            exact unlisted entry listed same
          · have sends := handler_sends entry listed
            rw [same] at sends
            rw [calls]
            by_cases replies : command.hasReply
            · rw [if_pos replies] at sends
              obtain ⟨keeps, answers⟩ := sends socket args dummy
              refine ⟨keeps, fun open_ _ defined => ?_⟩
              obtain ⟨text, complete, sent⟩ := answers open_ defined
              exact ⟨text, by rwa [Event.AnsweredWith, if_pos replies], sent⟩
            · rw [if_neg replies] at sends
              obtain ⟨keeps, sent⟩ := sends socket args dummy
              exact ⟨keeps, fun _ _ _ => ⟨[], by rw [Event.AnsweredWith, if_neg replies], sent⟩⟩
  | errorReply socket errorType reason =>
      refine ⟨⟨rfl, id⟩, fun _ plain _ => ⟨_, errorReply_complete errorType plain, ?_⟩⟩
      exact ⟨[errorReplyText errorType reason], by simp, rfl⟩
  | blockWritten socket data =>
      obtain ⟨keeps, nothing | reply⟩ := writeToMemory_sends socket data dummy
      · exact ⟨keeps, fun _ _ _ => ⟨[], Or.inl rfl, nothing⟩⟩
      · have complete : CompleteReply (ascii "\n\n") :=
          Or.inl ⟨[], List.forall_mem_nil _, by decide⟩
        exact ⟨keeps, fun _ _ _ => ⟨_, Or.inr complete, reply⟩⟩
  | _ => exact ⟨silent.1, fun _ _ _ => ⟨[], rfl, silent.2⟩⟩

-----------------------------------------------------------------------------------------
-- Runs
-----------------------------------------------------------------------------------------

/-- What an event adds to the bytes of its socket. -/
def Dummy.answer (dummy : Dummy) (event : Event) : Bytes :=
  ((Dummy.host.call dummy event).textTo event.socket).drop (dummy.textTo event.socket).length

/-- The events of a socket, each with what the dummy sent for it. -/
def answered (socket : SOCKET) : Dummy → List Event → List (Event × Bytes)
  | _, [] => []
  | dummy, event :: rest =>
      let later := answered socket (Dummy.host.call dummy event) rest
      if event.socket = socket then (event, dummy.answer event) :: later else later

/-- What is transmitted for an event is its answer. -/
theorem Dummy.answer_eq {dummy : Dummy} {event : Event} {text : Bytes}
    (sends : dummy.Transmits event.socket text (Dummy.host.call dummy event))
    : dummy.answer event = text := by
  rw [answer, sends.textTo, List.drop_left]

/-- What is sent for an event is one of the answers that it may have. -/
theorem Dummy.answer_sends {dummy : Dummy} (open_ : newline ∉ dummy.romPath) {event : Event}
    (plain : event.PlainReason) (defined : (Dummy.host.call dummy event).undefined = false)
    : event.AnsweredWith (dummy.answer event)
      ∧ dummy.Transmits event.socket (dummy.answer event) (Dummy.host.call dummy event) := by
  obtain ⟨text, may, sends⟩ := (dummy.call_sends event).2 open_ plain defined
  exact answer_eq sends ▸ ⟨may, sends⟩

/-- A dummy keeps its path over any trace, by induction on it. -/
theorem Dummy.replay_keeps (dummy : Dummy) (trace : List Event)
    : dummy.Keeps (Dummy.host.replay dummy trace) := by
  induction trace generalizing dummy with
  | nil => exact .refl dummy
  | cons event rest ih => exact (dummy.call_sends event).1.trans (ih _)

/-- What was sent on a socket is what was sent for its events, each of which had its own answer. By
induction on the events.
-/
theorem Dummy.replay_answered (socket : SOCKET) {dummy : Dummy} (open_ : newline ∉ dummy.romPath)
    {trace : List Event} (plain : ∀ event ∈ trace, event.PlainReason)
    (defined : (Dummy.host.replay dummy trace).undefined = false)
    : (Dummy.host.replay dummy trace).textTo socket
        = dummy.textTo socket ++ (answered socket dummy trace).flatMap Prod.snd
      ∧ ∀ pair ∈ answered socket dummy trace, pair.1.AnsweredWith pair.2 := by
  induction trace generalizing dummy with
  | nil => exact ⟨(List.append_nil _).symm, List.forall_mem_nil _⟩
  | cons event rest ih =>
      obtain ⟨here, later⟩ := List.forall_mem_cons.mp plain
      have still := (dummy.call_sends event).1.romPath.symm ▸ open_
      obtain ⟨may, sends⟩ := answer_sends open_ here ((replay_keeps _ rest).defined defined)
      obtain ⟨texts, each⟩ := ih still later defined
      rw [Host.replay, List.foldl_cons, ← Host.replay, texts, answered]
      by_cases same : event.socket = socket
      · subst same
        rw [if_pos rfl, List.flatMap_cons, sends.textTo, List.append_assoc]
        exact ⟨rfl, List.forall_mem_cons.mpr ⟨may, each⟩⟩
      · rw [if_neg same, sends.textTo_other same]
        exact ⟨rfl, each⟩

/-- The answers are given in the states before the events, by induction on the events. -/
theorem answered_fronts (socket : SOCKET) (dummy : Dummy) (trace : List Event)
    : answered socket dummy trace
      = ((withFronts trace).filter (fun turn => turn.2.socket = socket)).map
          (fun turn => (turn.2, (Dummy.host.replay dummy turn.1).answer turn.2)) := by
  induction trace generalizing dummy with
  | nil => rfl
  | cons event rest ih =>
      rw [answered, withFronts_cons, List.filter_cons, List.filter_map, ih]
      by_cases same : event.socket = socket
      · rw [if_pos same, if_pos (decide_eq_true same), List.map_cons, List.map_map]
        rfl
      · rw [if_neg same, if_neg (mt of_decide_eq_true same), List.map_map]
        rfl

end NetworkAccess
