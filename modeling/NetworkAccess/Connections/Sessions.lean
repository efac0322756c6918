import NetworkAccess.Connections.Hub
import NetworkAccess.Parser.ReaderInvariant

/-! The connections of a hub by themselves. What a connection's requests do depends on the bytes
that it sent and on what its own handlers returned, and on nothing that another connection does.
-/

namespace NetworkAccess

variable {Emulator : Type}

-----------------------------------------------------------------------------------------
-- A reader works for its own connection
-----------------------------------------------------------------------------------------

/-- The function of a table entry. -/
def Host.handler (host : Host Emulator) : Target → Option (Handler Emulator)
  | .generic command =>
      (host.genericMap.find? (fun entry => entry.command = command)).map GenericEntry.function
  | .custom index => host.customMap[index]?.map CustomEntry.function

/-- The result that an event records was returned by the handler that it names. -/
def Host.Returned (host : Host Emulator) : Event → Prop
  | .handled socket target args result =>
      ∃ function emulator,
        host.handler target = some function ∧ (function socket args emulator).1 = result
  | _ => True

/-- A builtin command is served by the function of its entry. -/
theorem resolve_generic_handler {host : Host Emulator} {cmd : Bytes} {command : EmulatorCommand}
    {entry : GenericEntry Emulator} (generic : resolve host cmd = .generic command entry)
    : host.handler (.generic command) = some entry.function := by
  rw [resolve] at generic
  split at generic
  case h_1 => cases generic
  case h_2 =>
    split at generic
    case h_1 => cases generic
    case h_2 =>
      split at generic
      case h_1 => cases generic
      case h_2 known _ found here =>
        cases generic
        rw [Host.handler, here]
        rfl

/-- The events of a command report what its handler returned. -/
theorem resolve_returned (host : Host Emulator) (cmd : Bytes) (socket : SOCKET)
    (args : List Bytes) (emulator : Emulator)
    : ∀ event ∈ ((resolve host cmd).serve host socket args emulator).events,
        event.Works socket ∧ host.Returned event := by
  simp only [resolve]
  cases custom : lookupCustom host.customMap 0 cmd with
  | some found =>
      obtain ⟨front, rest, split, index, -⟩ := lookupCustom_split custom
      have here : host.customMap[found.1]? = some found.2 := by
        rw [split, index, Nat.zero_add, List.getElem?_append_right (Nat.le_refl _), Nat.sub_self,
          List.getElem?_cons_zero]
      refine List.forall_mem_singleton.mpr ⟨⟨rfl, rfl⟩, found.2.function, emulator, ?_, rfl⟩
      rw [Host.handler, here]
      rfl
  | none =>
      cases lookupCommand cmd with
      | none => exact List.forall_mem_singleton.mpr ⟨⟨rfl, rfl⟩, trivial⟩
      | some command =>
          dsimp only
          cases entry : host.genericMap.find? (fun entry => entry.command = command) with
          | none => exact List.forall_mem_singleton.mpr ⟨⟨rfl, rfl⟩, trivial⟩
          | some found =>
              refine List.forall_mem_singleton.mpr ⟨⟨rfl, rfl⟩, found.function, emulator, ?_, rfl⟩
              rw [Host.handler, entry]
              rfl

/-- A reader works for its own connection, and its events record what the handlers returned. -/
def worksInvariant (host : Host Emulator) (socket : SOCKET) : ReaderInvariant host socket where
  kept := fun trace _ => ∀ event ∈ trace, event.Works socket ∧ host.Returned event
  serve := fun cmd args kept =>
    List.forall_mem_append.mpr
      ⟨kept, List.forall_mem_cons.mpr ⟨⟨⟨rfl, rfl⟩, trivial⟩, resolve_returned host cmd _ args _⟩⟩
  refuse := fun _ kept =>
    List.forall_mem_append.mpr ⟨kept, List.forall_mem_singleton.mpr ⟨⟨rfl, rfl⟩, trivial⟩⟩
  allocate := fun _ kept =>
    List.forall_mem_append.mpr ⟨kept, List.forall_mem_singleton.mpr ⟨⟨rfl, rfl⟩, trivial⟩⟩
  release := fun kept =>
    List.forall_mem_append.mpr ⟨kept, List.forall_mem_singleton.mpr ⟨⟨rfl, rfl⟩, trivial⟩⟩
  write := fun _ kept =>
    List.forall_mem_append.mpr ⟨
      kept,
      List.forall_mem_cons.mpr
        ⟨⟨⟨rfl, rfl⟩, trivial⟩, List.forall_mem_singleton.mpr ⟨⟨rfl, rfl⟩, trivial⟩⟩
    ⟩

/-- Whatever is read, its events are of the reader's own requests and returned by the handlers. -/
theorem Parser.readBytes_works (host : Host Emulator) (parser : Parser) (emulator : Emulator)
    (bytes : Bytes)
    : (worksInvariant host parser.socket).Holds [] (readBytes host (parser, emulator) bytes) :=
  (worksInvariant host parser.socket).readBytes (List.forall_mem_nil _) rfl bytes

-----------------------------------------------------------------------------------------
-- What concerns a connection
-----------------------------------------------------------------------------------------

/-- The connection that an action is about. -/
def Action.socket : Action → Option SOCKET
  | .polled => none
  | .connects fd _ | .receives fd _ | .leaves fd => some fd

/-- `accept` returns a descriptor that is not in use. -/
def Action.Fresh (hub : Hub Emulator) (action : Action) : Prop :=
  ∀ fd writes, action = .connects fd writes → fd ∉ hub.readers

/-- What a connection has sent behind an action. -/
def Action.receivedBy (fd : SOCKET) (bytes : Bytes) : Action → Bytes
  | .connects socket _ => if socket = fd then [] else bytes
  | .receives socket more => if socket = fd then bytes ++ more else bytes
  | _ => bytes

/-- What a connection has sent since it was accepted. -/
def received (fd : SOCKET) (log : List Action) : Bytes := log.foldl (Action.receivedBy fd) []

/-- What a connection has inherited behind an action. -/
def Action.inheritedBy (fd : SOCKET) (inherited : Bool) : Action → Bool
  | .connects socket writes => if socket = fd then writes else inherited
  | _ => inherited

/-- What it inherited when it was accepted. -/
def inheritedBy (fd : SOCKET) (log : List Action) : Bool :=
  log.foldl (Action.inheritedBy fd) false

/-- The events of a connection's requests behind an event. -/
def Event.requestOf (fd : SOCKET) (own : List Event) (event : Event) : List Event :=
  if event = .accepted fd then
    []
  else if event.socket = fd ∧ event.ofRequests then
    own ++ [event]
  else
    own

/-- The events of its requests since then. -/
def requestEvents (fd : SOCKET) (trace : List Event) : List Event :=
  trace.foldl (Event.requestOf fd) []

section Concerns

variable {fd : SOCKET} {log : List Action} {trace events : List Event}

/-- A connection that is accepted has sent nothing yet. -/
theorem received_connects (writes : Bool) : received fd (log ++ [.connects fd writes]) = [] := by
  rw [received, List.foldl_append]
  exact if_pos rfl

/-- What it receives comes behind what it has sent before. -/
theorem received_receives (bytes : Bytes)
    : received fd (log ++ [.receives fd bytes]) = received fd log ++ bytes := by
  rw [received, List.foldl_append]
  exact if_pos rfl

/-- Actions about others leave it as it is. -/
theorem received_other {action : Action} (other : action.socket ≠ some fd)
    : received fd (log ++ [action]) = received fd log := by
  rw [received, List.foldl_append]
  cases action with
  | polled | leaves => rfl
  | connects socket | receives socket =>
      exact if_neg (fun same => other (congrArg some same))

/-- A connection inherits when it is accepted. -/
theorem inheritedBy_connects (writes : Bool)
    : inheritedBy fd (log ++ [.connects fd writes]) = writes := by
  rw [inheritedBy, List.foldl_append]
  exact if_pos rfl

/-- Only being connected changes what a connection inherited. -/
theorem inheritedBy_other {action : Action} (other : ∀ writes, action ≠ .connects fd writes)
    : inheritedBy fd (log ++ [action]) = inheritedBy fd log := by
  rw [inheritedBy, List.foldl_append]
  cases action with
  | polled | receives | leaves => rfl
  | connects socket writes =>
      refine if_neg (fun same => other writes ?_)
      rw [same]

/-- Events of its requests come behind the ones before, by induction on them. -/
theorem requestEvents_append_works (works : ∀ event ∈ events, event.Works fd)
    : requestEvents fd (trace ++ events) = requestEvents fd trace ++ events := by
  induction events generalizing trace with
  | nil => rw [List.append_nil, List.append_nil]
  | cons event rest ih =>
      obtain ⟨here, later⟩ := List.forall_mem_cons.mp works
      have more : event ≠ .accepted fd := by
        rintro rfl
        cases here.2
      have first : requestEvents fd (trace ++ [event]) = requestEvents fd trace ++ [event] := by
        rw [requestEvents, List.foldl_append]
        exact (if_neg more).trans (if_pos here)
      rw [List.append_cons, ih later, first, ← List.append_cons]

/-- Other events of the connection are none of its requests, by induction on them. -/
theorem requestEvents_append_silent
    (silent : ∀ event ∈ events, event.socket = fd → event.ofRequests = false)
    (opens : .accepted fd ∉ events)
    : requestEvents fd (trace ++ events) = requestEvents fd trace := by
  induction events generalizing trace with
  | nil => rw [List.append_nil]
  | cons event rest ih =>
      obtain ⟨here, later⟩ := List.forall_mem_cons.mp silent
      obtain ⟨first, none⟩ := not_or.mp (fun either => opens (List.mem_cons.mpr either))
      have same : requestEvents fd (trace ++ [event]) = requestEvents fd trace := by
        rw [requestEvents, List.foldl_append]
        refine (if_neg (Ne.symm first)).trans (if_neg ?_)
        rintro ⟨own, ofRequests⟩
        exact Bool.false_ne_true ((here own).symm.trans ofRequests)
      rw [List.append_cons, ih later none, same]

/-- Events of others are none of its requests. -/
theorem requestEvents_append_foreign (foreign : ∀ event ∈ events, event.socket ≠ fd)
    : requestEvents fd (trace ++ events) = requestEvents fd trace :=
  requestEvents_append_silent (fun event member own => absurd own (foreign event member))
    (fun opens => foreign _ opens rfl)

/-- A connection that is accepted has had no request yet. -/
theorem requestEvents_accepted : requestEvents fd (trace ++ [.accepted fd]) = [] := by
  rw [requestEvents, List.foldl_append]
  exact if_pos rfl

end Concerns

-----------------------------------------------------------------------------------------
-- One action
-----------------------------------------------------------------------------------------

/-- The events of the requests of a connection are those of a fresh reader that is given what the
connection inherited, what it sent and what its own handlers returned.
-/
structure Parser.Alone (host : Host Emulator) (fd : SOCKET) (writes : Bool) (received : Bytes)
    (own : List Event) (reader : Parser)
    : Prop where
  returned : ∀ event ∈ own, host.Returned event
  reads
    : ∀ more,
        readBytes host.scripted (.fresh fd writes, answers own ++ more) received
          = .emit own (reader, more)

/-- A reader that is so reads for its own connection. -/
theorem Parser.Alone.socket {host : Host Emulator} {fd : SOCKET} {writes : Bool}
    {received : Bytes} {own : List Event} {reader : Parser}
    (alone : reader.Alone host fd writes received own)
    : reader.socket = fd := by
  have works := readBytes_works host.scripted (.fresh fd writes) (answers own ++ []) received
  rw [alone.reads []] at works
  exact works.2

/-- All open connections are so. -/
def Hub.Alone (host : Host Emulator) (log : List Action) (trace : List Event)
    (hub : Hub Emulator)
    : Prop :=
  ∀ fd reader,
    hub.readers.lookup fd = some reader
    → reader.Alone host fd (inheritedBy fd log) (received fd log) (requestEvents fd trace)

/-- The events that a callback adds carry its descriptor and are of no request. -/
theorem notify_socket {callback : Option (SOCKET → Emulator → Emulator)} {event told : Event}
    {fd : SOCKET} {emulator : Emulator} (member : told ∈ (notify callback event fd emulator).1)
    : told = event := by
  cases callback with
  | none => cases member
  | some function => exact List.mem_singleton.mp member

/-- A connection that ends is the only one that its events are about. -/
theorem Hub.close_socket {callbacks : Callbacks Emulator} {fd : SOCKET} {holds : Bool}
    {hub : Hub Emulator} {event : Event} (member : event ∈ (hub.close callbacks fd holds).1)
    : event.socket = fd := by
  rw [Hub.close] at member
  rcases List.mem_append.mp member with released | told
  · cases holds with
    | false => cases released
    | true =>
        rw [List.mem_singleton.mp released]
        rfl
  · rw [notify_socket told]
    rfl

section Steps

variable {host : Host Emulator} {callbacks : Callbacks Emulator} {hub next : Hub Emulator}
  {events : List Event}

/-- An action leaves the reader of every other connection alone. -/
theorem Hub.step_lookup {action : Action}
    (steps : hub.step host callbacks action = .emit events next) {fd : SOCKET}
    (other : action.socket ≠ some fd)
    : next.readers.lookup fd = hub.readers.lookup fd := by
  have apart {socket : SOCKET} (about : action.socket = some socket) : fd ≠ socket :=
    fun same => other (about.trans (congrArg some same.symm))
  cases action with
  | polled =>
      cases steps
      rfl
  | connects socket writes =>
      rw [Hub.step] at steps
      split at steps
      case isTrue =>
        cases steps
        exact Finmap.lookup_insert_of_ne _ (apart rfl)
      case isFalse =>
        cases steps
        rfl
  | receives socket bytes =>
      rw [Hub.step] at steps
      split at steps
      case h_1 =>
        cases steps
        rfl
      case h_2 reader known =>
        rw [Hub.read] at steps
        rcases (Parser.readBytes host (reader, hub.emulator) bytes).cases_eq with
          ⟨done, ⟨last, emulator⟩, reading⟩ | ⟨done, ⟨ending, emulator⟩, reading⟩
        · rw [reading] at steps
          cases steps
          exact Finmap.lookup_insert_of_ne _ (apart rfl)
        · rw [reading] at steps
          cases ending with
          | rejected =>
              cases steps
              exact Finmap.lookup_erase_ne (apart rfl)
          | undefined | spinning => cases steps
  | leaves socket =>
      rw [Hub.step] at steps
      split at steps
      case h_1 =>
        cases steps
        rfl
      case h_2 =>
        cases steps
        exact Finmap.lookup_erase_ne (apart rfl)

/-- Its events are those of one connection, if each reader reads for its own. -/
theorem Hub.step_events
    (named : ∀ fd reader, hub.readers.lookup fd = some reader → reader.socket = fd)
    {action : Action} (steps : hub.step host callbacks action = .emit events next)
    : ∀ event ∈ events, action.socket = some event.socket := by
  cases action with
  | polled =>
      cases steps
      nofun
  | connects socket writes =>
      rw [Hub.step] at steps
      split at steps
      case isTrue =>
        cases steps
        refine List.forall_mem_cons.mpr ⟨rfl, fun event told => ?_⟩
        rw [notify_socket told]
        rfl
      case isFalse =>
        cases steps
        exact List.forall_mem_cons.mpr ⟨rfl, List.forall_mem_singleton.mpr rfl⟩
  | receives socket bytes =>
      rw [Hub.step] at steps
      split at steps
      case h_1 =>
        cases steps
        nofun
      case h_2 reader known =>
        have works := Parser.readBytes_works host reader hub.emulator bytes
        rw [named _ _ known] at works
        rw [Hub.read] at steps
        rcases (Parser.readBytes host (reader, hub.emulator) bytes).cases_eq with
          ⟨done, ⟨last, emulator⟩, reading⟩ | ⟨done, ⟨ending, emulator⟩, reading⟩
        · rw [reading] at works steps
          cases steps
          exact fun event member => congrArg some (works.1 event member).1.1.symm
        · rw [reading] at works steps
          cases ending with
          | rejected =>
              cases steps
              refine List.forall_mem_append.mpr ⟨?_, List.forall_mem_cons.mpr ⟨rfl, ?_⟩⟩
              · exact fun event member => congrArg some (works event member).1.1.symm
              · exact fun event member => congrArg some (Hub.close_socket member).symm
          | undefined | spinning => cases steps
  | leaves socket =>
      rw [Hub.step] at steps
      split at steps
      case h_1 =>
        cases steps
        nofun
      case h_2 =>
        cases steps
        exact fun event member => congrArg some (Hub.close_socket member).symm

/-- A connection that receives bytes goes on with them. -/
theorem Parser.Alone.receives {fd : SOCKET} {writes : Bool} {old : Bytes} {own : List Event}
    {reader last : Parser} (alone : reader.Alone host fd writes old own)
    {emulator after : Emulator} {bytes : Bytes}
    (reads : readBytes host (reader, emulator) bytes = .emit events (last, after))
    : last.Alone host fd writes (old ++ bytes) (own ++ events) := by
  have works := readBytes_works host reader emulator bytes
  rw [reads] at works
  refine ⟨List.forall_mem_append.mpr
    ⟨alone.returned, fun event member => (works.1 event member).2⟩, fun more => ?_⟩
  have again := readBytes_again host reader emulator bytes more
  rw [reads] at again
  have again
      : readBytes host.scripted (reader, answers events ++ more) bytes
        = .emit events (last, more) :=
    again
  rw [answers_append, List.append_assoc, readBytes_append, alone.reads, Reaction.emit_andThen,
    again, Reaction.prepend_emit]

/-- Every action keeps the connections so. -/
theorem Hub.Alone.step {log : List Action} {trace : List Event} (alone : hub.Alone host log trace)
    {action : Action} (fresh : action.Fresh hub)
    (steps : hub.step host callbacks action = .emit events next)
    : next.Alone host (log ++ [action]) (trace ++ events) := by
  have named (fd : SOCKET) (reader : Parser) (known : hub.readers.lookup fd = some reader) :=
    (alone fd reader known).socket
  intro fd reader known
  by_cases other : action.socket ≠ some fd
  · have foreign (event : Event) (member : event ∈ events) : event.socket ≠ fd :=
      fun own => other ((hub.step_events named steps event member).trans (congrArg some own))
    have connects (writes : Bool) : action ≠ .connects fd writes := by
      rintro rfl
      exact other rfl
    rw [received_other other, inheritedBy_other connects, requestEvents_append_foreign foreign]
    exact alone fd reader ((hub.step_lookup steps other).symm.trans known)
  have concerns := not_not.mp other
  cases action with
  | polled => cases concerns
  | connects socket writes =>
      cases concerns
      rw [Hub.step] at steps
      split at steps
      case isTrue =>
        cases steps
        rw [Finmap.lookup_insert] at known
        cases known
        rw [received_connects, inheritedBy_connects, List.append_cons,
          requestEvents_append_silent, requestEvents_accepted]
        · exact ⟨List.forall_mem_nil _, fun more => rfl⟩
        · intro event told _
          rw [notify_socket told]
          rfl
        · intro told
          cases notify_socket told
      case isFalse =>
        cases steps
        exact absurd (Finmap.mem_of_lookup_eq_some known) (fresh _ _ rfl)
  | receives socket bytes =>
      cases concerns
      rw [Hub.step] at steps
      split at steps
      case h_1 nothing =>
        cases steps
        rw [nothing] at known
        cases known
      case h_2 before here =>
        have works := Parser.readBytes_works host before hub.emulator bytes
        rw [named _ _ here] at works
        rw [Hub.read] at steps
        rcases (Parser.readBytes host (before, hub.emulator) bytes).cases_eq with
          ⟨done, ⟨last, emulator⟩, reading⟩ | ⟨done, ⟨ending, emulator⟩, reading⟩
        · rw [reading] at works steps
          cases steps
          rw [Finmap.lookup_insert] at known
          cases known
          have own (event : Event) (member : event ∈ done) : event.Works fd :=
            (works.1 event member).1
          rw [received_receives, inheritedBy_other (by nofun), Reaction.emitted_emit,
            requestEvents_append_works own]
          exact (alone fd before here).receives reading
        · rw [reading] at steps
          cases ending with
          | rejected =>
              cases steps
              rw [Hub.close, Finmap.lookup_erase] at known
              cases known
          | undefined | spinning => cases steps
  | leaves socket =>
      cases concerns
      rw [Hub.step] at steps
      split at steps
      case h_1 nothing =>
        cases steps
        rw [nothing] at known
        cases known
      case h_2 =>
        cases steps
        rw [Hub.close, Finmap.lookup_erase] at known
        cases known

end Steps
end NetworkAccess
