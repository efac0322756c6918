import NetworkAccess.Dummy.Emulator
import NetworkAccess.Server.PollLoop

/-! `generic_poll_server_start` up to the loop: the server socket, the range of ports and the search
for one that can be bound.
-/

namespace NetworkAccess

variable {Emulator : Type}

/-- What the calls before the loop answer. The answers of `bind` are numbered from 0 on. -/
structure StartCalls where
  socket : Option SOCKET
  setsockopt : Bool
  getenv : Option Bytes
  bind : Nat → Bool
  listen : Bool

/-- What is done before the loop: a port is given to `bind`, and one to the callback. -/
inductive StartEvent where
  | bound (port : Nat)
  | serverStarted (port : Nat)
deriving DecidableEq, Repr

/-- `EMULATOR_NETWORK_ACCESS_STARTING_PORT`. -/
def startingPort : Nat := 0xBEEF

/-- `port_range_start`. The number in `NWA_PORT_RANGE` becomes an `unsigned short`. -/
def portRangeStart (portRange : Option Bytes) : Nat :=
  match portRange with
  | none => startingPort
  | some buffer =>
      let envPort := (atoi buffer % 2 ^ 16).toNat
      if envPort ≠ 0 then envPort else startingPort

/-- The variables of the loop around `bind`; `bound` says that `bind_return` is not negative. -/
structure Binding where
  cpt : Nat
  bound : Bool
deriving DecidableEq

/-- A call of `bind`; `htons` keeps 16 bits of the port. -/
def bindPort (bind : Nat → Bool) (portRangeStart cpt : Nat) : Reaction StartEvent Bool Binding :=
  .emit [.bound ((portRangeStart + cpt) % 2 ^ 16)] ⟨cpt, bind cpt⟩

/-- The condition of the loop. -/
def Binding.running (binding : Binding) : Prop := binding.bound = false ∧ binding.cpt ≠ 4

instance : DecidablePred Binding.running := fun binding =>
  inferInstanceAs (Decidable (binding.bound = false ∧ _))

/-- The first call of `bind` and the loop behind it, which has at most four turns. -/
def bindPorts (bind : Nat → Bool) (portRangeStart : Nat) : Reaction StartEvent Bool Binding := do
  let first ← bindPort bind portRangeStart 0
  Reaction.runWhile (fun binding => bindPort bind portRangeStart (binding.cpt + 1))
    Binding.running (fun _ => false) 5 first

/-- Everything before the loop: the server socket, or `false` to return. -/
def startServer (calls : StartCalls) (serverStarted : Option (Nat → Emulator → Emulator))
    (emulator : Emulator)
    : Reaction StartEvent Bool (SOCKET × Emulator) :=
  match calls.socket with
  | none => .stop [] false
  | some serverSocket =>
      if ¬ calls.setsockopt then
        .stop [] false
      else do
        let start := portRangeStart calls.getenv
        let binding ← bindPorts calls.bind start
        if ¬ binding.bound then
          .stop [] false
        else if ¬ calls.listen then
          .stop [] false
        else
          match serverStarted with
          | none => pure (serverSocket, emulator)
          | some callback =>
              .emit [.serverStarted (start + binding.cpt)]
                (serverSocket, callback (start + binding.cpt) emulator)

-----------------------------------------------------------------------------------------
-- The ports
-----------------------------------------------------------------------------------------

/-- The first call of `bind` that succeeds, of five. -/
def firstBound (bind : Nat → Bool) : Option Nat := (List.range 5).find? bind

/-- The ports of the first calls of `bind`. -/
def boundEvents (start count : Nat) : List StartEvent :=
  (List.range count).map (fun cpt => .bound ((start + cpt) % 2 ^ 16))

/-- One more call is given the next port. -/
theorem boundEvents_succ (start count : Nat)
    : boundEvents start (count + 1)
      = boundEvents start count ++ [.bound ((start + count) % 2 ^ 16)] := by
  rw [boundEvents, List.range_succ, List.map_append]
  rfl

/-- The loop behind a call of `bind`, by induction on the turns that are left. -/
theorem bindLoop_eq (bind : Nat → Bool) (start : Nat) {left cpt : Nat} (count : cpt + left = 4)
    {fuel : Nat} (enough : left < fuel)
    : (Reaction.runWhile (fun binding => bindPort bind start (binding.cpt + 1)) Binding.running
        (fun _ => false) fuel ⟨cpt, bind cpt⟩).prepend (boundEvents start (cpt + 1))
      = match (List.range' cpt (left + 1)).find? bind with
        | some found => .emit (boundEvents start (found + 1)) ⟨found, true⟩
        | none => .emit (boundEvents start 5) ⟨4, false⟩ := by
  rw [List.range'_succ, List.find?_cons]
  induction left generalizing cpt fuel with
  | zero =>
      cases count
      have finished : ¬ Binding.running ⟨4, bind 4⟩ := fun runs => runs.2 rfl
      rw [Reaction.runWhile_of_not_running finished]
      cases bind 4 <;> rfl
  | succ left ih =>
      cases bound : bind cpt with
      | true =>
          have finished : ¬ Binding.running ⟨cpt, true⟩ := fun runs => Bool.noConfusion runs.1
          rw [Reaction.runWhile_of_not_running finished, Reaction.prepend_emit, List.append_nil]
      | false =>
          obtain ⟨fuel, rfl⟩ : ∃ more, fuel = more + 1 := ⟨fuel - 1, by omega⟩
          have runs : Binding.running ⟨cpt, false⟩ := ⟨rfl, by simp only; omega⟩
          have later := @ih (cpt + 1) (by omega) fuel (by omega)
          rw [boundEvents_succ start (cpt + 1), ← Reaction.prepend_prepend] at later
          rw [Reaction.runWhile, if_pos runs]
          rw [List.range'_succ, List.find?_cons]
          exact later

/-- The calls of `bind` try the ports of the range in turn, up to the first that can be bound. -/
theorem bindPorts_eq (bind : Nat → Bool) (start : Nat)
    : bindPorts bind start
      = match firstBound bind with
        | some found => .emit (boundEvents start (found + 1)) ⟨found, true⟩
        | none => .emit (boundEvents start 5) ⟨4, false⟩ := by
  rw [firstBound, List.range_eq_range']
  exact @bindLoop_eq bind start 4 0 rfl 5 (by decide)

/-- A server starts exactly if it has a socket and one of five ports, and can listen; it tells the
callback the first of them.
-/
theorem startServer_eq (calls : StartCalls) (serverStarted : Option (Nat → Emulator → Emulator))
    (emulator : Emulator)
    : let start := portRangeStart calls.getenv
      startServer calls serverStarted emulator
      = match calls.socket, calls.setsockopt, firstBound calls.bind with
        | none, _, _ | _, false, _ => .stop [] false
        | some _, true, none => .stop (boundEvents start 5) false
        | some serverSocket, true, some found =>
            let bound := boundEvents start (found + 1)
            if ¬ calls.listen then
              .stop bound false
            else
              match serverStarted with
              | none => .emit bound (serverSocket, emulator)
              | some callback =>
                  .emit (bound ++ [.serverStarted (start + found)])
                    (serverSocket, callback (start + found) emulator) := by
  intro start
  rw [startServer]
  cases calls.socket with
  | none => rfl
  | some serverSocket =>
      cases calls.setsockopt with
      | false => rfl
      | true =>
          simp only [Reaction.bind_eq, bindPorts_eq]
          cases firstBound calls.bind with
          | none => exact congrArg (Reaction.stop · false) (List.append_nil _)
          | some found =>
              cases calls.listen with
              | false => exact congrArg (Reaction.stop · false) (List.append_nil _)
              | true =>
                  cases serverStarted with
                  | none => exact congrArg (Reaction.emit · _) (List.append_nil _)
                  | some callback => rfl

end NetworkAccess
