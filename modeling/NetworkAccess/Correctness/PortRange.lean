import NetworkAccess.Server.Startup

/-! Servers on one machine. Each of them asks for the ports of its range in turn, so several can run
at the same time, and a client that knows the range finds them. What the calls of a start answer is
up to the operating system, which is only relied on not to give a port to two sockets.
-/

namespace NetworkAccess

/-- A server that runs: the port that its callback was told, and the port that it has bound. -/
structure RunningServer where
  told : Nat
  bound : Nat
deriving DecidableEq

-----------------------------------------------------------------------------------------
-- One start
-----------------------------------------------------------------------------------------

/-- The port of a call of `bind`. -/
def StartEvent.boundPort : StartEvent → Option Nat
  | .bound port => some port
  | .serverStarted _ => none

/-- The five ports of the range are ports. -/
def RangeFits (portRange : Option Bytes) : Prop := portRangeStart portRange + 4 < 2 ^ 16

instance : DecidablePred RangeFits := fun portRange =>
  inferInstanceAs (Decidable (portRangeStart portRange + 4 < 2 ^ 16))

namespace StartCalls

/-- A start whose callback keeps what it is told. -/
def run (calls : StartCalls) : Reaction StartEvent Bool (SOCKET × Nat) :=
  startServer calls (some (fun port _ => port)) 0

/-- The port that the server socket gets, which is that of the last call of `bind` if there is one
that succeeds.
-/
def boundTo (calls : StartCalls) : Option Nat :=
  if (firstBound calls.bind).isSome then
    (calls.run.emitted.filterMap StartEvent.boundPort).getLast?
  else
    none

/-- The server of a start, if it comes to its loop. -/
def start (calls : StartCalls) : Option RunningServer :=
  match calls.run.result, calls.boundTo with
  | .ok (_, told), some bound => some ⟨told, bound⟩
  | _, _ => none

/-- The port that a call of `bind` is given. -/
def port (calls : StartCalls) (cpt : Nat) : Nat := (portRangeStart calls.getenv + cpt) % 2 ^ 16

/-- The calls next to `bind` succeed. -/
structure Succeed (calls : StartCalls) : Prop where
  socket : calls.socket.isSome
  setsockopt : calls.setsockopt = true
  listen : calls.listen = true

/-- The first port of the range that `bind` grants, of five. -/
def FirstGranted (calls : StartCalls) (port : Nat) : Prop :=
  ∃ cpt < 5,
    port = portRangeStart calls.getenv + cpt
    ∧ calls.bind cpt = true
    ∧ ∀ earlier < cpt, calls.bind earlier = false

variable {calls : StartCalls}

/-- In a range of ports no port is cut. -/
theorem port_of_fits (fits : RangeFits calls.getenv) {cpt : Nat} (inside : cpt < 5)
    : calls.port cpt = portRangeStart calls.getenv + cpt := by
  have last : portRangeStart calls.getenv + 4 < 2 ^ 16 := fits
  rw [port]
  omega

/-- The call of `bind` that succeeds is the first one that does. -/
theorem firstBound_eq_some {bind : Nat → Bool} {cpt : Nat}
    : firstBound bind = some cpt
      ↔ cpt < 5 ∧ bind cpt = true ∧ ∀ earlier < cpt, bind earlier = false := by
  rw [firstBound, List.find?_range_eq_some, List.mem_range]
  constructor
  · intro first
    obtain ⟨granted, inside, before⟩ := first
    exact ⟨inside, granted, fun earlier less => by simpa using before earlier less⟩
  · intro first
    obtain ⟨inside, granted, before⟩ := first
    exact ⟨granted, inside, fun earlier less => by simpa using before earlier less⟩

/-- None does if all five fail. -/
theorem firstBound_eq_none {bind : Nat → Bool}
    : firstBound bind = none ↔ ∀ cpt < 5, bind cpt = false := by
  rw [firstBound, List.find?_range_eq_none]
  simp only [Bool.not_eq_true']

/-- The port of the first call of `bind` that succeeds is the last one of them. -/
theorem boundEvents_last (start found : Nat) {more : List StartEvent}
    (none_ : more.filterMap StartEvent.boundPort = [])
    : ((boundEvents start (found + 1) ++ more).filterMap StartEvent.boundPort).getLast?
      = some ((start + found) % 2 ^ 16) := by
  rw [List.filterMap_append, none_, List.append_nil, boundEvents_succ, List.filterMap_append]
  exact List.getLast?_concat

/-- What is bound was granted. -/
theorem boundTo_granted {bound : Nat} (binds : calls.boundTo = some bound)
    : ∃ cpt < 5, calls.bind cpt = true ∧ bound = calls.port cpt := by
  have run := startServer_eq calls (some (fun port (_ : Nat) => port)) 0
  rw [boundTo, StartCalls.run, run] at binds
  cases first : firstBound calls.bind with
  | none =>
      rw [first] at binds
      cases binds
  | some found =>
      obtain ⟨inside, granted, -⟩ := firstBound_eq_some.mp first
      refine ⟨found, inside, granted, ?_⟩
      have last := fun more => @boundEvents_last (portRangeStart calls.getenv) found more
      rw [first, Option.isSome_some, if_pos rfl] at binds
      revert binds
      cases calls.socket with
      | none => exact nofun
      | some socket =>
          cases calls.setsockopt with
          | false => exact nofun
          | true =>
              intro binds
              dsimp only at binds
              split at binds
              · have closed := last [] rfl
                rw [List.append_nil] at closed
                exact Option.some.inj (binds.symm.trans closed)
              · exact Option.some.inj (binds.symm.trans (last [_] rfl))

/-- A start comes to its loop exactly if all its calls succeed and one of the five of `bind`, the
first of which decides on its ports.
-/
theorem start_eq_some {server : RunningServer}
    : calls.start = some server
      ↔ calls.Succeed
        ∧ ∃ found,
            firstBound calls.bind = some found
            ∧ server = ⟨portRangeStart calls.getenv + found, calls.port found⟩ := by
  have run := startServer_eq calls (some (fun port (_ : Nat) => port)) 0
  rw [start, boundTo, StartCalls.run, run]
  cases socket : calls.socket with
  | none =>
      refine iff_of_false nofun (fun both => ?_)
      have some_ := both.1.socket
      rw [socket] at some_
      cases some_
  | some fd =>
      cases setsockopt : calls.setsockopt with
      | false =>
          refine iff_of_false nofun (fun both => ?_)
          cases setsockopt.symm.trans both.1.setsockopt
      | true =>
          cases first : firstBound calls.bind with
          | none =>
              refine iff_of_false nofun ?_
              rintro ⟨-, _, ⟨⟩, -⟩
          | some found =>
              cases listen : calls.listen with
              | false =>
                  refine iff_of_false nofun (fun both => ?_)
                  cases listen.symm.trans both.1.listen
              | true =>
                  have last := @boundEvents_last (portRangeStart calls.getenv) found
                    [.serverStarted (portRangeStart calls.getenv + found)] rfl
                  simp only [not_true_eq_false, if_false, Reaction.result_emit,
                    Reaction.emitted_emit, Option.isSome_some, if_true]
                  rw [last]
                  refine ⟨fun same => ?_, ?_⟩
                  · cases same
                    exact ⟨⟨socket ▸ rfl, setsockopt, listen⟩, found, rfl, rfl⟩
                  · rintro ⟨-, _, ⟨⟩, rfl⟩
                    rfl

/-- In a range of ports the callback is told the port that is bound, the first that is granted. -/
theorem start_iff (fits : RangeFits calls.getenv) {server : RunningServer}
    : calls.start = some server
      ↔ calls.Succeed ∧ calls.FirstGranted server.bound ∧ server.told = server.bound := by
  rw [start_eq_some]
  refine and_congr_right (fun _ => ⟨?_, ?_⟩)
  · rintro ⟨found, first, rfl⟩
    obtain ⟨inside, granted, before⟩ := firstBound_eq_some.mp first
    have whole := port_of_fits fits inside
    exact ⟨⟨found, inside, whole, granted, before⟩, whole.symm⟩
  · rintro ⟨⟨found, inside, bound, granted, before⟩, told⟩
    refine ⟨found, firstBound_eq_some.mpr ⟨inside, granted, before⟩, ?_⟩
    rw [port_of_fits fits inside, ← bound]
    obtain ⟨_, _⟩ := server
    exact congrArg (RunningServer.mk · _) told

/-- A start fails exactly if one of its other calls does or all five of `bind`. -/
theorem start_fails_iff
    : calls.start = none ↔ ¬ calls.Succeed ∨ ∀ cpt < 5, calls.bind cpt = false := by
  rw [← firstBound_eq_none]
  cases first : firstBound calls.bind with
  | none =>
      refine iff_of_true ?_ (Or.inr rfl)
      cases starts : calls.start with
      | none => rfl
      | some server =>
          obtain ⟨-, found, granted, -⟩ := start_eq_some.mp starts
          cases first.symm.trans granted
  | some found =>
      rw [or_iff_left nofun]
      constructor
      · intro fails succeed
        cases fails.symm.trans (start_eq_some.mpr ⟨succeed, found, first, rfl⟩)
      · intro other
        cases starts : calls.start with
        | none => rfl
        | some server => exact absurd (start_eq_some.mp starts).1 other

end StartCalls

-----------------------------------------------------------------------------------------
-- Machines
-----------------------------------------------------------------------------------------

/-- The servers of a machine, and the ports that are bound to anything else: to other programs, or
to a socket that a start or a server has left open when it failed.
-/
structure Machine where
  held : List Nat
  servers : List RunningServer
deriving DecidableEq

/-- What happens on a machine. A server that is asked to stop closes its socket, one that fails in
`poll` or `accept` does not.
-/
inductive MachineAction where
  | starts (calls : StartCalls)
  | stops (bound : Nat)
  | fails (bound : Nat)
  | takes (port : Nat)
  | releases (port : Nat)

/-- The ports of a start's range are ports. -/
def MachineAction.Fits : MachineAction → Prop
  | .starts calls => RangeFits calls.getenv
  | _ => True

namespace Machine

/-- Whether a program of the machine holds the port, as one of these servers or otherwise. -/
def InUse (machine : Machine) (port : Nat) : Prop :=
  port ∈ machine.held ∨ port ∈ machine.servers.map RunningServer.bound

instance (machine : Machine) : DecidablePred machine.InUse := fun port =>
  inferInstanceAs (Decidable (port ∈ machine.held ∨ _))

/-- The servers but the one that has bound a port. -/
def without (machine : Machine) (bound : Nat) : List RunningServer :=
  machine.servers.filter (fun server => server.bound ≠ bound)

/-- What one action makes of the ports that are held and the servers that run. -/
def step (machine : Machine) : MachineAction → Machine
  | .starts calls =>
      match calls.start with
      | some server => { machine with servers := machine.servers ++ [server] }
      | none => { machine with held := calls.boundTo.toList ++ machine.held }
  | .stops bound => { machine with servers := machine.without bound }
  | .fails bound =>
      if bound ∈ machine.servers.map RunningServer.bound then
        ⟨bound :: machine.held, machine.without bound⟩
      else
        machine
  | .takes port => { machine with held := port :: machine.held }
  | .releases port => { machine with held := machine.held.erase port }

/-- The machine after a sequence of actions. -/
def run (machine : Machine) (actions : List MachineAction) : Machine := actions.foldl step machine

/-- The operating system gives nobody a port that is in use. -/
def Grants (machine : Machine) : MachineAction → Prop
  | .starts calls => ∀ cpt < 5, calls.bind cpt = true → ¬ machine.InUse (calls.port cpt)
  | .takes port => ¬ machine.InUse port
  | .stops _ | .fails _ | .releases _ => True

/-- Every action of the sequence is granted by the machine that the earlier ones made. -/
def GrantsAlong : Machine → List MachineAction → Prop
  | _, [] => True
  | machine, action :: rest => machine.Grants action ∧ (machine.step action).GrantsAlong rest

/-- `bind` fails for the ports that are in use and for no others. -/
def RefusesInUse (machine : Machine) (calls : StartCalls) : Prop :=
  ∀ cpt < 5, calls.bind cpt = false ↔ machine.InUse (calls.port cpt)

/-- The first port of a range that is free, of five. -/
def FirstFree (machine : Machine) (portRange : Option Bytes) (port : Nat) : Prop :=
  let start := portRangeStart portRange
  start ≤ port
  ∧ port < start + 5
  ∧ ¬ machine.InUse port
  ∧ ∀ earlier, start ≤ earlier → earlier < port → machine.InUse earlier

/-- No port of a range is free. -/
def Full (machine : Machine) (portRange : Option Bytes) : Prop :=
  let start := portRangeStart portRange
  ∀ port, start ≤ port → port < start + 5 → machine.InUse port

/-- Every server was told its own port, which nobody else has bound. -/
structure Apart (machine : Machine) : Prop where
  told : ∀ server ∈ machine.servers, server.told = server.bound
  distinct : (machine.servers.map RunningServer.bound).Nodup
  free : ∀ server ∈ machine.servers, server.bound ∉ machine.held

/-- What comes of a start: a server on the first port that is granted, unless a call fails for good;
and where `bind` fails for the ports in use only, that is the first free one.
-/
structure Decides (machine : Machine) (calls : StartCalls) : Prop where
  starts
    : ∀ server,
        calls.start = some server
        ↔ calls.Succeed ∧ calls.FirstGranted server.bound ∧ server.told = server.bound
  fails : calls.start = none ↔ ¬ calls.Succeed ∨ ∀ cpt < 5, calls.bind cpt = false
  first
    : machine.RefusesInUse calls
      → ∀ port, calls.FirstGranted port ↔ machine.FirstFree calls.getenv port
  full
    : machine.RefusesInUse calls
      → ((∀ cpt < 5, calls.bind cpt = false) ↔ machine.Full calls.getenv)

end Machine

instance : DecidablePred MachineAction.Fits
  | .starts calls => inferInstanceAs (Decidable (RangeFits calls.getenv))
  | .stops _ | .fails _ | .takes _ | .releases _ => inferInstanceAs (Decidable True)

instance (machine : Machine) : DecidablePred machine.Grants
  | .starts calls =>
      inferInstanceAs
        (Decidable (∀ cpt < 5, calls.bind cpt = true → ¬ machine.InUse (calls.port cpt)))
  | .takes port => inferInstanceAs (Decidable (¬ machine.InUse port))
  | .stops _ | .fails _ | .releases _ => inferInstanceAs (Decidable True)

instance Machine.grantsAlongDecidable
    : ∀ (machine : Machine) (actions : List MachineAction), Decidable (machine.GrantsAlong actions)
  | _, [] => isTrue trivial
  | machine, action :: rest =>
      have := (machine.step action).grantsAlongDecidable rest
      inferInstanceAs (Decidable (machine.Grants action ∧ _))

-----------------------------------------------------------------------------------------
-- What comes of a start
-----------------------------------------------------------------------------------------

/-- In a range of ports, the calls of `bind` decide on a start as the ports in use do. -/
theorem Machine.decides (machine : Machine) {calls : StartCalls} (fits : RangeFits calls.getenv)
    : machine.Decides calls := by
  have refused (refuses : machine.RefusesInUse calls) {cpt : Nat} (inside : cpt < 5)
      : calls.bind cpt = false ↔ machine.InUse (portRangeStart calls.getenv + cpt) := by
    rw [refuses cpt inside, StartCalls.port_of_fits fits inside]
  refine ⟨fun _ => StartCalls.start_iff fits, StartCalls.start_fails_iff, ?_, ?_⟩
  · intro refuses port
    constructor
    · rintro ⟨cpt, inside, rfl, granted, before⟩
      refine ⟨Nat.le_add_right _ _, by omega, ?_, fun earlier low high => ?_⟩
      · rw [← refused refuses inside, granted]
        exact Bool.noConfusion
      · obtain ⟨less, rfl⟩ := Nat.exists_eq_add_of_le low
        exact (refused refuses (by omega)).mp (before less (by omega))
    · rintro ⟨low, high, free, before⟩
      obtain ⟨cpt, rfl⟩ := Nat.exists_eq_add_of_le low
      refine ⟨cpt, by omega, rfl, ?_, fun earlier less => ?_⟩
      · rw [← refused refuses (by omega)] at free
        exact Bool.eq_true_of_not_eq_false free
      · exact (refused refuses (by omega)).mpr (before _ (by omega) (by omega))
  · intro refuses
    constructor
    · intro none port low high
      obtain ⟨cpt, rfl⟩ := Nat.exists_eq_add_of_le low
      exact (refused refuses (by omega)).mp (none cpt (by omega))
    · intro full cpt inside
      exact (refused refuses inside).mpr (full _ (by omega) (by omega))

-----------------------------------------------------------------------------------------
-- Runs
-----------------------------------------------------------------------------------------

namespace Machine.Apart

variable {machine : Machine} (apart : machine.Apart)
include apart

/-- A server that is gone leaves the others apart, and nobody else has its port. -/
theorem without (bound : Nat) : Apart ⟨machine.held, machine.without bound⟩ := by
  refine ⟨fun server member => ?_, ?_, fun server member => ?_⟩
  · exact apart.told server (List.mem_of_mem_filter member)
  · exact apart.distinct.sublist (List.filter_sublist.map _)
  · exact apart.free server (List.mem_of_mem_filter member)

/-- A port that no server has is bound. -/
theorem hold {port : Nat} (unused : port ∉ machine.servers.map RunningServer.bound)
    : Apart { machine with held := port :: machine.held } := by
  refine ⟨apart.told, apart.distinct, fun server member held => ?_⟩
  rcases List.mem_cons.mp held with rfl | held
  · exact unused (List.mem_map_of_mem member)
  · exact apart.free server member held

/-- One action. -/
theorem step {action : MachineAction} (fits : action.Fits) (grants : machine.Grants action)
    : (machine.step action).Apart := by
  cases action with
  | starts calls =>
      rw [Machine.step]
      cases starts : calls.start with
      | some server =>
          obtain ⟨-, ⟨cpt, inside, bound, granted, -⟩, told⟩ :=
            (StartCalls.start_iff fits).mp starts
          have free := grants cpt inside granted
          rw [StartCalls.port_of_fits fits inside, ← bound] at free
          obtain ⟨held, other⟩ := not_or.mp free
          refine ⟨?_, ?_, ?_⟩
          · exact List.forall_mem_append.mpr ⟨apart.told, List.forall_mem_singleton.mpr told⟩
          · rw [List.map_append, List.nodup_append]
            refine ⟨apart.distinct, List.pairwise_singleton _ _, ?_⟩
            rintro bound member _ again rfl
            cases List.mem_singleton.mp again
            exact other member
          · exact List.forall_mem_append.mpr ⟨apart.free, List.forall_mem_singleton.mpr held⟩
      | none =>
          cases left : calls.boundTo with
          | none => exact apart
          | some port =>
              obtain ⟨cpt, inside, granted, rfl⟩ := StartCalls.boundTo_granted left
              exact apart.hold (not_or.mp (grants cpt inside granted)).2
  | stops bound => exact apart.without bound
  | fails bound =>
      rw [Machine.step]
      split
      case isTrue =>
        refine (apart.without bound).hold (fun member => ?_)
        obtain ⟨server, still, rfl⟩ := List.mem_map.mp member
        exact absurd rfl (of_decide_eq_true (List.mem_filter.mp still).2)
      case isFalse => exact apart
  | takes port => exact apart.hold (not_or.mp grants).2
  | releases port =>
      refine ⟨apart.told, apart.distinct, fun server member held => ?_⟩
      exact apart.free server member (List.mem_of_mem_erase held)

/-- All actions, by induction on them. -/
theorem run {actions : List MachineAction} (fits : ∀ action ∈ actions, action.Fits)
    (grants : machine.GrantsAlong actions)
    : (machine.run actions).Apart := by
  induction actions generalizing machine with
  | nil => exact apart
  | cons action rest ih =>
      obtain ⟨here, later⟩ := List.forall_mem_cons.mp fits
      exact ih (apart.step here grants.1) later grants.2

end Machine.Apart

/-- Whatever servers and other programs come and go, if the ports of a range are ports at all and
the operating system gives nobody a port that is in use: all servers that run at the same time have
ports of their own, each of which its callback was told. A start is decided by its calls alone.
-/
theorem servers_apart (held : List Nat) (actions : List MachineAction)
    (fits : ∀ action ∈ actions, action.Fits)
    (grants : (Machine.mk held []).GrantsAlong actions)
    : let machine := (Machine.mk held []).run actions
      machine.Apart ∧ ∀ calls, RangeFits calls.getenv → machine.Decides calls := by
  refine ⟨?_, fun calls fits => Machine.decides _ fits⟩
  have nobody : (Machine.mk held []).Apart :=
    ⟨List.forall_mem_nil _, List.nodup_nil, List.forall_mem_nil _⟩
  exact nobody.run fits grants

/-- The calls of a start on a machine where some ports are in use. -/
def callsRefusing (portRange : Option Bytes) (used : List Nat) (listen : Bool) : StartCalls := {
  socket := some 3
  setsockopt := true
  getenv := portRange
  bind := fun cpt => (portRangeStart portRange + cpt) % 2 ^ 16 ∉ used
  listen
}

/-- Witness: two servers with the usual range, a start that fails behind `bind` and a server with a
range of its own; when the first one has stopped, the next one takes its port.
-/
theorem servers_apart_four
    : let actions : List MachineAction :=
        [
          .starts (callsRefusing none [] true),
          .starts (callsRefusing none [48879] true),
          .starts (callsRefusing none [48879, 48880] false),
          .starts (callsRefusing (some (ascii "48880")) [48879, 48880, 48881] true),
          .stops 48879,
          .starts (callsRefusing none [48880, 48881, 48882] true)
        ]
      let machine := (Machine.mk [] []).run actions
      machine.Apart
      ∧ machine = ⟨[48881], [⟨48880, 48880⟩, ⟨48882, 48882⟩, ⟨48879, 48879⟩]⟩ := by
  intro actions machine
  have fits : ∀ action ∈ actions, action.Fits := by decide +kernel
  have grants : (Machine.mk [] []).GrantsAlong actions := by decide +kernel
  exact ⟨(servers_apart [] actions fits grants).1, by decide +kernel⟩

/-- Behind the last port, the number that the callback is told is no port. -/
example : (callsRefusing (some (ascii "65535")) [65535] true).start = some ⟨65536, 0⟩ := by
  decide +kernel

end NetworkAccess
