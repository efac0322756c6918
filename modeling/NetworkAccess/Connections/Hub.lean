import Mathlib.Data.Finmap
import NetworkAccess.Connections.Reads
import NetworkAccess.Parser.Refusals
import NetworkAccess.Parser.Scripted
import NetworkAccess.Server.PollLoop

/-! The server as its peers know it: at most five connections, a byte reader for each of them, and
the emulator that they share. It has no slots, no poll set and no buffers.
-/

namespace NetworkAccess

variable {Emulator : Type}

/-- The reader of each open connection, and the emulator behind them. -/
structure Hub (Emulator : Type) where
  readers : Finmap (fun _ : SOCKET => Parser)
  emulator : Emulator

/-- What reaches the server from outside. A connection begins with the write flag of the slot that
it gets, which is all that it inherits from the connection before it there.
-/
inductive Action where
  | polled
  | connects (fd : SOCKET) (writes : Bool)
  | receives (fd : SOCKET) (bytes : Bytes)
  | leaves (fd : SOCKET)
deriving DecidableEq

/-- The emulator behind the callback that follows `poll`. -/
def Callbacks.polled (callbacks : Callbacks Emulator) (emulator : Emulator) : Emulator :=
  match callbacks.afterPoll with
  | none => emulator
  | some callback => callback emulator

/-- Whether a block is allocated. -/
def Phase.holdsBlock : Phase → Bool
  | .block _ _ _ => true
  | _ => false

/-- The reply to a block whose size was not announced. -/
def Event.refusesSize : Event → Bool
  | .errorReply _ .protocolError reason => reason = (Refusal.size 0).reason
  | _ => false

namespace Hub

/-- A hub without connections. -/
def start (emulator : Emulator) : Hub Emulator := ⟨∅, emulator⟩

/-- A connection ends, which releases the block that it holds. -/
def close (callbacks : Callbacks Emulator) (fd : SOCKET) (holds : Bool)
    (hub : Hub Emulator)
    : List Event × Hub Emulator :=
  let notified := notify callbacks.removeClient (.clientRemoved fd) fd hub.emulator
  let released := if holds then [Event.blockReleased fd] else []
  (released ++ notified.1, ⟨hub.readers.erase fd, notified.2⟩)

/-- A connection that receives bytes reads them, and ends if it refuses one. -/
def read (host : Host Emulator) (callbacks : Callbacks Emulator) (fd : SOCKET) (bytes : Bytes)
    (reader : Parser) (hub : Hub Emulator)
    : Reaction Event Shutdown (Hub Emulator) :=
  let reading := Parser.readBytes host (reader, hub.emulator) bytes
  match reading.result with
  | .ok (reader, emulator) => .emit reading.emitted ⟨hub.readers.insert fd reader, emulator⟩
  | .error (.rejected, emulator) =>
      let holds := reading.emitted.getLast?.any Event.refusesSize
      let closed := close callbacks fd holds { hub with emulator }
      .emit (reading.emitted ++ .closed fd :: closed.1) closed.2
  | .error (.undefined fault, _) => .stop reading.emitted (.undefined fault)
  | .error (.spinning, _) => .stop reading.emitted .spinning

/-- What a connection does is not seen if it is not open. -/
def step (host : Host Emulator) (callbacks : Callbacks Emulator) (hub : Hub Emulator)
    : Action → Reaction Event Shutdown (Hub Emulator)
  | .polled => .emit [] { hub with emulator := callbacks.polled hub.emulator }
  | .connects fd writes =>
      if hub.readers.keys.card < 5 then
        let notified := notify callbacks.addClient (.clientAdded fd) fd hub.emulator
        .emit (.accepted fd :: notified.1)
          ⟨hub.readers.insert fd (.fresh fd writes), notified.2⟩
      else
        .emit [.accepted fd, .closed fd] hub
  | .receives fd bytes =>
      match hub.readers.lookup fd with
      | none => .emit [] hub
      | some reader => read host callbacks fd bytes reader hub
  | .leaves fd =>
      match hub.readers.lookup fd with
      | none => .emit [] hub
      | some reader =>
          let closed := close callbacks fd reader.phase.holdsBlock hub
          .emit closed.1 closed.2

/-- The actions one after the other. -/
def run (host : Host Emulator) (callbacks : Callbacks Emulator) (hub : Hub Emulator)
    (actions : List Action)
    : Reaction Event Shutdown (Hub Emulator) :=
  actions.foldlM (step host callbacks) hub

section Runs

variable (host : Host Emulator) (callbacks : Callbacks Emulator) (hub : Hub Emulator)

/-- To run one action is one step. -/
theorem run_singleton (action : Action)
    : hub.run host callbacks [action] = hub.step host callbacks action :=
  Reaction.andThen_emit_nil _

/-- Actions are run part by part. -/
theorem run_append (actions more : List Action)
    : hub.run host callbacks (actions ++ more)
      = (hub.run host callbacks actions).andThen (fun next => next.run host callbacks more) :=
  List.foldlM_append

end Runs

end Hub

-----------------------------------------------------------------------------------------
-- Rounds
-----------------------------------------------------------------------------------------

/-- What the answers of `poll` and `read` mean for a connection. -/
def dueAction (revents : Revents) (answer : Option ClientRead) (fd : SOCKET) : Option Action :=
  if revents.pollErr ∨ revents.pollHup then
    some (.leaves fd)
  else if revents.pollIn then
    match answer with
    | none => some (.leaves fd)
    | some read => some (.receives fd read.bytes)
  else
    none

/-- The actions of a round: `poll`, then a new connection, which inherits `writes`, and then in some
order what is due for each of the connections that were open before. `accept` returns a descriptor
that is not in use.
-/
inductive Round.Schedules (round : Round) (writes : Bool) (hub : Hub Emulator)
    : List Action → Prop
  | served {newClient revents} (goesOn : round.stop = false)
    (polled : round.polled = .ready newClient revents)
    (fresh : ∀ fd, round.accepted = some fd → fd ∉ hub.readers)
    (fds : List SOCKET) (once : fds.Nodup) (each : ∀ fd, fd ∈ fds ↔ fd ∈ hub.readers)
    : round.Schedules writes hub
        (.polled
          :: ((if newClient then round.accepted.toList else []).map (Action.connects · writes)
            ++ fds.filterMap (fun fd => dueAction (revents fd) (round.read fd) fd)))

/-- The actions and the events of successive rounds, each with what a connection inherits in it. -/
inductive Hub.Follows (host : Host Emulator) (callbacks : Callbacks Emulator)
    : Hub Emulator → List (Round × Bool) → List Action → List Event → Hub Emulator → Prop
  | nil {hub} : Follows host callbacks hub [] [] [] hub
  | round {hub next last round writes rounds actions log events more}
    (schedules : round.Schedules writes hub actions)
    (runs : hub.run host callbacks actions = .emit events next)
    (later : Follows host callbacks next rounds log more last)
    : Follows host callbacks hub ((round, writes) :: rounds) (actions ++ log) (events ++ more) last

end NetworkAccess
