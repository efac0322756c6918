import Mathlib.Data.List.DropRight
import NetworkAccess.Correctness.Delivery
import NetworkAccess.Correctness.WholeReplies

/-! A client of the dummy that sends text requests is sent exactly the replies to them: one for each
request whose command has a reply, in their order, and nothing else.
-/

namespace NetworkAccess

-----------------------------------------------------------------------------------------
-- One connection
-----------------------------------------------------------------------------------------

/-- The events up to the last time that the descriptor was accepted, and those behind it. -/
def untilAccepted (fd : SOCKET) (trace : List Event) : List Event :=
  trace.rdropWhile (fun event => event ≠ .accepted fd)

/-- What happened since the connection was last accepted. -/
def sinceAccepted (fd : SOCKET) (trace : List Event) : List Event :=
  trace.rtakeWhile (fun event => event ≠ .accepted fd)

/-- What was sent on a descriptor since it was accepted. -/
def connectionText (fd : SOCKET) (start : Dummy) (trace : List Event) : Bytes :=
  ((Dummy.host.replay start trace).textTo fd).drop
    ((Dummy.host.replay start (untilAccepted fd trace)).textTo fd).length

/-- A trace is what happened until the connection was accepted and what happened since. -/
theorem untilAccepted_append_since (fd : SOCKET) (trace : List Event)
    : untilAccepted fd trace ++ sinceAccepted fd trace = trace :=
  List.rdropWhile_append_rtakeWhile

/-- One more event belongs to the connection unless it accepts it anew. -/
theorem sinceAccepted_concat (fd : SOCKET) (trace : List Event) (event : Event)
    : sinceAccepted fd (trace ++ [event])
      = if event = .accepted fd then [] else sinceAccepted fd trace ++ [event] := by
  rw [sinceAccepted, List.rtakeWhile_concat]
  by_cases opens : event = .accepted fd
  · rw [if_pos opens, if_neg (by simpa using opens)]
  · rw [if_neg opens, if_pos (by simpa using opens), sinceAccepted]

/-- The events of the requests are among those since then, by induction on the events. -/
theorem requestEvents_since (fd : SOCKET) (trace : List Event)
    : requestEvents fd trace
      = ((sinceAccepted fd trace).filter (fun event => event.socket = fd)).filter
          Event.ofRequests := by
  induction trace using List.reverseRecOn with
  | nil => rfl
  | append_singleton trace event ih =>
      rw [requestEvents, List.foldl_append, ← requestEvents, List.foldl_cons, List.foldl_nil, ih,
        sinceAccepted_concat, Event.requestOf]
      by_cases opens : event = .accepted fd
      · rw [if_pos opens, if_pos opens]
        rfl
      · rw [if_neg opens, if_neg opens, List.filter_append, List.filter_append]
        by_cases own : event.socket = fd ∧ event.ofRequests
        · rw [if_pos own]
          simp [own]
        · rw [if_neg own]
          rcases not_and_or.mp own with foreign | other
          · simp [foreign]
          · by_cases same : event.socket = fd <;> simp [same, other]

/-- The events of the requests, each with all events before it. -/
def requestTurns (fd : SOCKET) (trace : List Event) : List (List Event × Event) :=
  let own := (withFronts (sinceAccepted fd trace)).filter (fun turn => turn.2.socket = fd)
  (own.filter (fun turn => turn.2.ofRequests)).map
    (fun turn => (untilAccepted fd trace ++ turn.1, turn.2))

/-- The turns of a connection end with its requests. -/
theorem requestTurns_events (fd : SOCKET) (trace : List Event)
    : (requestTurns fd trace).map Prod.snd = requestEvents fd trace := by
  have items := withFronts_items (sinceAccepted fd trace)
  rw [requestEvents_since, requestTurns, List.map_map]
  nth_rewrite 2 [← items]
  rw [List.filter_map, List.filter_map]
  rfl

/-- Each is before the next one. -/
theorem requestTurns_ordered (fd : SOCKET) (trace : List Event)
    : (requestTurns fd trace).Pairwise (fun one later => one.1 ++ [one.2] <+: later.1) := by
  rw [requestTurns, List.pairwise_map]
  refine (((withFronts_ordered _).filter _).filter _).imp (fun begins => ?_)
  rw [List.append_assoc]
  exact (List.prefix_append_right_inj _).mpr begins

-----------------------------------------------------------------------------------------
-- Requests
-----------------------------------------------------------------------------------------

/-- A request that the dummy replies to: its handler does so, or it has none. -/
def Request.hasReply (request : Request) : Bool :=
  match resolve Dummy.host request.name with
  | .generic command _ => command.hasReply
  | .custom _ _ => false
  | .unknown | .unimplemented _ => true

/-- What adds nothing may be left out. -/
theorem flatMap_filter_silent {Item Letter : Type} {keeps : Item → Bool} {text : Item → List Letter}
    {items : List Item} (silent : ∀ item ∈ items, keeps item = false → text item = [])
    : (items.filter keeps).flatMap text = items.flatMap text := by
  induction items with
  | nil => rfl
  | cons item rest ih =>
      obtain ⟨here, later⟩ := List.forall_mem_cons.mp silent
      rw [List.filter_cons, List.flatMap_cons, ← ih later]
      cases kept : keeps item with
      | true => rw [if_pos rfl, List.flatMap_cons]
      | false => rw [if_neg Bool.false_ne_true, here kept, List.nil_append]

/-- The answer to a text request, sent in a state that the program was in. -/
structure Request.RepliedWith (request : Request) (fd : SOCKET) (start : Dummy)
    (trace : List Event) (text : Bytes)
    : Prop where
  complete : if request.hasReply then CompleteReply text else text = []
  sent
    : ∃ before,
        before <+: trace
        ∧ let dummy := Dummy.host.replay start before
          dummy.Transmits fd text (request.perform Dummy.host fd dummy).2

/-- A text request leads to its dispatch and one more event, whose call is the one that serves the
request.
-/
theorem Request.text_events {request : Request} (text : request.isText) (fd : SOCKET)
    (script : List Int)
    : ∃ event,
        (request.perform Dummy.host.scripted fd script).1
          = [.command fd request.name request.args, event]
        ∧ event.ofRequests
        ∧ (∀ dummy, Dummy.host.call dummy event = (request.perform Dummy.host fd dummy).2)
        ∧ ∀ answer,
            event.AnsweredWith answer
            → if request.hasReply then CompleteReply answer else answer = [] := by
  cases request with
  | write => cases text
  | text name args =>
      have called (dummy : Dummy) := resolve_replay Dummy.host name fd args dummy
      simp only [Request.perform, Request.served, Request.hasReply, resolve_scripted,
        show (Request.text name args).name = name from rfl]
      cases resolved : resolve Dummy.host name with
      | unknown | unimplemented =>
          exact ⟨_, rfl, rfl, fun _ => rfl, fun answer may => (if_pos rfl).mpr may⟩
      | generic command entry =>
          simp only [resolved] at called
          exact ⟨_, rfl, rfl, called, fun answer may => may⟩
      | custom index entry =>
          simp only [resolved] at called
          exact ⟨_, rfl, rfl, called, fun answer may => (if_neg Bool.false_ne_true).mpr may⟩

/-- What is sent for an event in the state that the events before it have made. -/
def turnAnswer (start : Dummy) (turn : List Event × Event) : Bytes :=
  (Dummy.host.replay start turn.1).answer turn.2

/-- An event of a run that has its own answer. -/
structure AnsweredIn (fd : SOCKET) (start : Dummy) (trace : List Event)
    (turn : List Event × Event)
    : Prop where
  begins : turn.1 ++ [turn.2] <+: trace
  answer : turn.2.AnsweredWith (turnAnswer start turn)
  sent
    : let dummy := Dummy.host.replay start turn.1
      dummy.Transmits fd (turnAnswer start turn) (Dummy.host.call dummy turn.2)
  defined : (Dummy.host.replay start (turn.1 ++ [turn.2])).undefined = false

/-- A text request that is handled behind these events of a run, and the answer to it. -/
structure Request.HandledAt (request : Request) (fd : SOCKET) (start : Dummy)
    (trace front : List Event) (text : Bytes)
    : Prop where
  event
    : ∃ event script,
        (request.perform Dummy.host.scripted fd script).1
          = [.command fd request.name request.args, event]
        ∧ front ++ [event] <+: trace
  complete : if request.hasReply then CompleteReply text else text = []
  sent
    : let dummy := Dummy.host.replay start front
      dummy.Transmits fd text (request.perform Dummy.host fd dummy).2
  defined : (request.perform Dummy.host fd (Dummy.host.replay start front)).2.undefined = false

/-- A request that was handled after a part of the trace was replied to with what its handler
transmits there.
-/
theorem Request.HandledAt.repliedWith {request : Request} {fd : SOCKET} {start : Dummy}
    {trace front : List Event} {text : Bytes}
    (handled : request.HandledAt fd start trace front text)
    : request.RepliedWith fd start trace text := by
  obtain ⟨event, script, -, begins⟩ := handled.event
  exact ⟨handled.complete, front, (List.prefix_append front [event]).trans begins, handled.sent⟩

/-- The answers to the events of text requests are answers to the requests, by induction on them. -/
theorem handledAt_of_turns {fd : SOCKET} {start : Dummy} {trace : List Event}
    {requests : List Request} (text : ∀ request ∈ requests, request.isText) {script : List Int}
    {turns : List (List Event × Event)}
    (events : turns.map Prod.snd = (performAll Dummy.host.scripted fd script requests).1)
    (each : ∀ turn ∈ turns, AnsweredIn fd start trace turn)
    : ∃ handled : List (List Event × Bytes),
        List.Forall₂ (fun request turn => request.HandledAt fd start trace turn.1 turn.2) requests
          handled
        ∧ turns.flatMap (turnAnswer start) = handled.flatMap Prod.snd
        ∧ (handled.map Prod.fst).Sublist (turns.map Prod.fst) := by
  induction requests generalizing script turns with
  | nil =>
      cases List.map_eq_nil_iff.mp events
      exact ⟨[], .nil, rfl, .slnil⟩
  | cons request rest ih =>
      obtain ⟨here, later⟩ := List.forall_mem_cons.mp text
      obtain ⟨event, performed, -, calls, answers⟩ := request.text_events here fd script
      simp only [performAll, performed, List.cons_append, List.nil_append] at events
      obtain ⟨dispatch, _, rfl, named, events⟩ := List.map_eq_cons_iff.mp events
      obtain ⟨turn, more, rfl, same, events⟩ := List.map_eq_cons_iff.mp events
      obtain ⟨first, each⟩ := List.forall_mem_cons.mp each
      obtain ⟨second, each⟩ := List.forall_mem_cons.mp each
      obtain ⟨handled, replied, texts, fronts⟩ := ih later events each
      have silent : turnAnswer start dispatch = [] := by
        have may := first.answer
        rwa [named] at may
      have sent := second.sent
      have defined := second.defined
      rw [Host.replay_concat] at defined
      simp only [same, calls] at sent defined
      refine ⟨(turn.1, turnAnswer start turn) :: handled, .cons ?_ replied, ?_, ?_⟩
      · exact ⟨⟨event, script, performed, same ▸ second.begins⟩, answers _ (same ▸ second.answer),
          sent, defined⟩
      · rw [List.flatMap_cons, List.flatMap_cons, silent, List.nil_append, texts,
          List.flatMap_cons]
      · exact (fronts.cons_cons turn.1).cons dispatch.1

-----------------------------------------------------------------------------------------
-- Whole runs
-----------------------------------------------------------------------------------------

section Runs

variable {start : Dummy} (open_ : newline ∉ start.romPath) {trace : List Event}
  (plain : ∀ event ∈ trace, event.PlainReason)
  (defined : (Dummy.host.replay start trace).undefined = false) (fd : SOCKET)
include open_ plain defined

/-- A turn of the connection that begins the trace is answered in it. -/
theorem answeredIn_of_turn {turn : List Event × Event}
    (begins : turn.1 ++ [turn.2] <+: trace) (own : turn.2.socket = fd)
    : AnsweredIn fd start trace turn := by
  obtain ⟨back, whole⟩ := begins
  have still : newline ∉ (Dummy.host.replay start turn.1).romPath :=
    (Dummy.replay_keeps start turn.1).romPath.symm ▸ open_
  have after : (Dummy.host.replay start (turn.1 ++ [turn.2])).undefined = false := by
    rw [← whole, Host.replay_append] at defined
    exact (Dummy.replay_keeps _ back).defined defined
  have here : turn.2.PlainReason := by
    refine plain turn.2 ?_
    rw [← whole, List.append_assoc]
    exact List.mem_append_right _ List.mem_cons_self
  obtain ⟨may, sends⟩ := Dummy.answer_sends still here (Host.replay_concat _ _ _ _ ▸ after)
  rw [own] at sends
  exact ⟨⟨back, whole⟩, may, sends, after⟩

/-- What a connection was sent are the answers to the events of its requests. -/
theorem connectionText_turns
    : (∀ turn ∈ requestTurns fd trace, AnsweredIn fd start trace turn)
      ∧ connectionText fd start trace
        = (requestTurns fd trace).flatMap (turnAnswer start) := by
  let accepted := Dummy.host.replay start (untilAccepted fd trace)
  let own := (withFronts (sinceAccepted fd trace)).filter (fun turn => turn.2.socket = fd)
  let placed (turn : List Event × Event) : List Event × Event :=
    (untilAccepted fd trace ++ turn.1, turn.2)
  have whole := untilAccepted_append_since fd trace
  have each : ∀ turn ∈ own, AnsweredIn fd start trace (placed turn) := by
    intro turn member
    obtain ⟨inside, socket⟩ := List.mem_filter.mp member
    refine answeredIn_of_turn open_ plain defined fd ?_ (of_decide_eq_true socket)
    have begins :=
      (List.prefix_append_right_inj (untilAccepted fd trace)).mpr (withFronts_begins turn inside)
    rwa [whole, ← List.append_assoc] at begins
  constructor
  · simp only [requestTurns, List.forall_mem_map]
    exact fun turn member => each turn (List.mem_of_mem_filter member)
  · have still : newline ∉ accepted.romPath :=
      (Dummy.replay_keeps start (untilAccepted fd trace)).romPath.symm ▸ open_
    have behind : ∀ event ∈ sinceAccepted fd trace, event.PlainReason := fun event member =>
      plain event (whole ▸ List.mem_append_right _ member)
    have replays : Dummy.host.replay start trace
        = Dummy.host.replay accepted (sinceAccepted fd trace) := by
      rw [← Host.replay_append, whole]
    rw [replays] at defined
    have sent := (accepted.replay_answered fd still behind defined).1
    -- the other events of a connection have no answer
    have silent
        : ∀ turn ∈ own, turn.2.ofRequests = false → turnAnswer start (placed turn) = [] := by
      rintro ⟨front, event⟩ member other
      have may := (each _ member).answer
      cases event with
      | accepted | closed | clientAdded | clientRemoved => exact may
      | _ => cases other
    rw [connectionText, replays, sent, List.drop_left, answered_fronts, List.flatMap_map,
      requestTurns, List.flatMap_map, flatMap_filter_silent silent]
    refine List.flatMap_congr (fun turn _ => ?_)
    rw [turnAnswer, Host.replay_append]

end Runs

/-- No block needs a size. -/
theorem answeredAll_text {Emulator : Type} {host : Host Emulator} {fd : SOCKET}
    {emulator : Emulator} {requests : List Request}
    (text : ∀ request ∈ requests, request.isText)
    : AnsweredAll host fd emulator requests := by
  induction requests generalizing emulator with
  | nil => trivial
  | cons request rest ih =>
      obtain ⟨here, later⟩ := List.forall_mem_cons.mp text
      cases request with
      | text => exact ⟨trivial, ih later⟩
      | write => cases here

/-- A connection that was sent text requests and a part of another one has served the requests. -/
theorem Parser.Alone.served {Emulator : Type} {host : Host Emulator} {fd : SOCKET} {writes : Bool}
    {requests : List Request} {part : Bytes} {own : List Event} {reader : Parser}
    (alone : reader.Alone host fd writes (requests.flatMap Request.encode ++ part) own)
    (sendable : ∀ request ∈ requests, request.Sendable)
    (text : ∀ request ∈ requests, request.isText)
    {next : Request} (nextSendable : next.Sendable) (begun : part <+: next.line)
    (unfinished : part ≠ next.line)
    {entry : GenericEntry Emulator}
    (builtin : resolve host bCoreWriteName = .generic .bCoreWrite entry)
    : own = (performAll host.scripted fd (answers own) requests).1 := by
  have reads := alone.reads []
  rw [List.append_nil] at reads
  obtain ⟨left, whole⟩ := Parser.readBytes_requests (resolve_builtin_scripted builtin)
    (Parser.fresh fd writes) (answers own) rfl sendable (answeredAll_text text)
  obtain ⟨phase, silent⟩ := Parser.readBytes_openLine host.scripted
    { Parser.fresh fd writes with writes := left } _ rfl nextSendable.commandLine
    nextSendable.2.2.1 begun unfinished
  rw [Parser.readBytes_append, whole, Reaction.emit_andThen, silent, Reaction.prepend_emit,
    List.append_nil] at reads
  exact (congrArg Reaction.emitted reads).symm

section Served

variable {serverSocket : SOCKET} {clients : Clients} {start : Dummy} {rounds : List Round}
  (fresh
    : Reaction.CalmAlong (pollRound Dummy.host .absent) Round.Fresh
        (.listening serverSocket clients start) rounds)
  {server : Server Dummy}
  (goes
    : (genericPollServerStart Dummy.host .absent serverSocket clients start rounds).result
      = .ok server)
include fresh goes

/-- The emulator state that a run ends in is the one its events lead to from the start. -/
theorem replay_run
    : server.emulator
      = Dummy.host.replay start
          (genericPollServerStart Dummy.host .absent serverSocket clients start
            rounds).emitted := by
  have last := genericPollServerStart_replay Dummy.host serverSocket clients start rounds fresh
  simp only [ServerTurn.emulator, goes] at last
  exact last

/-- The text requests of an open connection are handled in their order, and what the connection was
sent are the answers to them.
-/
theorem handled_run (open_ : newline ∉ start.romPath)
    (defined : server.emulator.undefined = false) {index : Fin 5}
    (taken : server.clients[index].socketFd ≠ 0) {requests : List Request}
    (sendable : ∀ request ∈ requests, request.Sendable)
    (text : ∀ request ∈ requests, request.isText) {next : Request} (nextSendable : next.Sendable)
    {part : Bytes} (begun : part <+: next.line) (unfinished : part ≠ next.line)
    (sent
      : bytesFrom server.clients[index].socketFd rounds
        = requests.flatMap Request.encode ++ part)
    : let run := genericPollServerStart Dummy.host .absent serverSocket clients start rounds
      let fd := server.clients[index].socketFd
      ∃ handled : List (List Event × Bytes),
        List.Forall₂
          (fun request turn => request.HandledAt fd start run.emitted turn.1 turn.2) requests
          handled
        ∧ (handled.map Prod.fst).Pairwise (fun one later => one <+: later ∧ one ≠ later)
        ∧ connectionText fd start run.emitted = handled.flatMap Prod.snd := by
  intro run fd
  have builtin : resolve Dummy.host bCoreWriteName
      = .generic .bCoreWrite ⟨.bCoreWrite, dummyCoreMemoryWrite⟩ := rfl
  have plain : ∀ event ∈ run.emitted, event.PlainReason :=
    (plainReasons Dummy.host).shared_run (List.forall_mem_nil _) fresh
  have refines := pollRounds_hub Dummy.host .absent
    (Server.sound_listening serverSocket clients start)
    (Hub.start_describes serverSocket clients start) fresh
  let before := Server.listening serverSocket clients start
  have alone
      : server.clients[index].parser.Alone Dummy.host fd
          (inheritedFrom fd (inheriting Dummy.host .absent before rounds)) (bytesFrom fd rounds)
          (requestEvents fd run.emitted) :=
    refines.alone goes taken
  rw [sent] at alone
  have served := alone.served sendable text nextSendable begun unfinished builtin
  obtain ⟨each, texts⟩ :=
    connectionText_turns open_ plain (replay_run fresh goes ▸ defined) fd
  obtain ⟨handled, replied, same, fronts⟩ :=
    handledAt_of_turns text ((requestTurns_events fd run.emitted).trans served) each
  refine ⟨handled, replied, .sublist fronts ?_, texts.trans same⟩
  rw [List.pairwise_map]
  refine (requestTurns_ordered fd run.emitted).imp (fun {one later} begins => ?_)
  refine ⟨(List.prefix_append _ _).trans begins, fun equal => ?_⟩
  have length := begins.length_le
  rw [← equal, List.length_append, List.length_singleton] at length
  omega

end Served

/-- The path of the ROM has no newline. In every run in which the dummy keeps to its defined
behaviour, an open connection that has sent text requests, and perhaps a part of the next one, was
sent the replies to these requests and nothing else: one for each request that has a reply, in their
order and each made in a state that the program was in, whatever other connections send and however
it is cut into reads.
-/
theorem requests_answered (serverSocket : SOCKET) (clients : Clients) (romPath : Bytes)
    (memory : MemoryName → Allocation) (open_ : newline ∉ romPath) (rounds : List Round)
    (fresh
      : Reaction.CalmAlong (pollRound Dummy.host .absent) Round.Fresh
          (.listening serverSocket clients (Dummy.start romPath memory)) rounds)
    {server : Server Dummy}
    (goes
      : (genericPollServerStart Dummy.host .absent serverSocket clients
          (Dummy.start romPath memory) rounds).result
        = .ok server)
    (defined : server.emulator.undefined = false) {index : Fin 5}
    (taken : server.clients[index].socketFd ≠ 0) {requests : List Request}
    (sendable : ∀ request ∈ requests, request.Sendable)
    (text : ∀ request ∈ requests, request.isText) {next : Request} (nextSendable : next.Sendable)
    {part : Bytes} (begun : part <+: next.line) (unfinished : part ≠ next.line)
    (sent
      : bytesFrom server.clients[index].socketFd rounds
        = requests.flatMap Request.encode ++ part)
    : let start := Dummy.start romPath memory
      let run := genericPollServerStart Dummy.host .absent serverSocket clients start rounds
      let fd := server.clients[index].socketFd
      ∃ texts,
        List.Forall₂ (fun request text => request.RepliedWith fd start run.emitted text) requests
          texts
        ∧ connectionText fd start run.emitted = texts.flatten := by
  intro start run fd
  obtain ⟨handled, replied, -, texts⟩ :=
    handled_run fresh goes open_ defined taken sendable text nextSendable begun unfinished sent
  refine ⟨handled.map Prod.snd, ?_, texts⟩
  exact List.forall₂_map_right_iff.mpr (replied.imp (fun _ _ handled => handled.repliedWith))

/-- The requests of the second connection of these rounds. -/
def askedInTurn : List Request :=
  [readRequest .wram 0 2, .text (ascii "EMULATION_STATUS") []]

/-- The requests of the example can be sent. -/
theorem askedInTurn_sendable : ∀ request ∈ askedInTurn, request.Sendable :=
  List.forall_mem_cons.mpr ⟨readRequest_sendable .wram (by decide) (by decide),
    List.forall_mem_singleton.mpr
      ⟨⟨⟨_, _, rfl, by decide⟩, by decide⟩, ⟨by decide, by decide, nofun⟩, by decide, by decide⟩⟩

/-- The example runs to its end with the connection open and the dummy defined. -/
theorem askingInTurn_serves
    : ∃ server,
        (genericPollServerStart Dummy.host .absent 3 (Vector.replicate 5 Client.zero) smallDummy
          askingInTurn).result
        = .ok server
        ∧ server.clients[(1 : Fin 5)].socketFd = 5
        ∧ server.emulator.undefined = false := by
  generalize runs
    : genericPollServerStart Dummy.host .absent 3 (Vector.replicate 5 Client.zero) smallDummy
        askingInTurn
      = run
  have sockets
      : run.result.toOption.map
          (fun server => (server.clients[(1 : Fin 5)].socketFd, server.emulator.undefined))
        = some (5, false) := by
    rw [← runs]
    decide +kernel
  cases goes : run.result with
  | error halted =>
      rw [goes] at sockets
      cases sockets
  | ok server =>
      rw [goes] at sockets
      obtain ⟨second, defined⟩ := Prod.mk.inj (Option.some.inj sockets)
      exact ⟨server, rfl, second, defined⟩

/-- Witness: the second connection is sent the bytes that it asked for and then the state. -/
theorem requests_answered_inTurn
    : let requests := [readRequest .wram 0 2, .text (ascii "EMULATION_STATUS") []]
      let run :=
        genericPollServerStart Dummy.host .absent 3 (Vector.replicate 5 Client.zero) smallDummy
          askingInTurn
      ∃ texts,
        List.Forall₂
          (fun request text => request.RepliedWith 5 smallDummy run.emitted text) requests texts
        ∧ connectionText 5 smallDummy run.emitted = texts.flatten := by
  intro requests run
  obtain ⟨server, goes, second, defined⟩ := askingInTurn_serves
  have taken : server.clients[(1 : Fin 5)].socketFd ≠ 0 := by
    rw [second]
    decide
  have bytes : bytesFrom 5 askingInTurn = requests.flatMap Request.encode ++ [] := by
    decide +kernel
  have answers := @requests_answered 3 (Vector.replicate 5 Client.zero) (ascii "game.sfc")
    (fun _ => ⟨List.replicate 8 0, by decide⟩) (by decide) askingInTurn (by decide +kernel)
    server goes defined 1 taken requests askedInTurn_sendable (by decide) _
    (askedInTurn_sendable _ List.mem_cons_self) [] List.nil_prefix (by decide)
  simp only [second] at answers
  exact answers bytes

end NetworkAccess
