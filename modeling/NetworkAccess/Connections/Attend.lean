import NetworkAccess.Connections.Reads
import NetworkAccess.Parser.Lockstep
import NetworkAccess.Server.PollLoop

/-! What the client loop does for one connection, without the client table and the poll set:
its slot and the emulator go in, and it stays, or it leaves, or the loop never comes back.
-/

namespace NetworkAccess

variable {Emulator : Type}

/-- Whether a connection stays, with what is in its slot then. -/
structure Attended (Emulator : Type) where
  stays : Bool
  client : Client
  emulator : Emulator

/-- What follows from a read; a connection whose input was refused is closed and leaves. -/
def settle (fd : SOCKET) (turn : Turn Emulator (Client × Emulator))
    : Reaction Event Shutdown (Attended Emulator) :=
  match turn.result with
  | .ok (client, emulator) => .emit turn.emitted ⟨true, client, emulator⟩
  | .error ⟨.rejected, last⟩ =>
      .emit (turn.emitted ++ [.closed fd]) ⟨false, last.client, last.emulator⟩
  | .error ⟨.undefined fault, _⟩ => .stop turn.emitted (.undefined fault)
  | .error ⟨.spinning, _⟩ => .stop turn.emitted .spinning

/-- One connection is served, given its `revents` and the answer of `read`. -/
def attend (host : Host Emulator) (revents : Revents) (answer : Option ClientRead)
    (state : Client × Emulator)
    : Reaction Event Shutdown (Attended Emulator) :=
  if revents.pollErr ∨ revents.pollHup then
    .emit [] ⟨false, state.1, state.2⟩
  else if revents.pollIn then
    match answer with
    | none => .emit [] ⟨false, state.1, state.2⟩
    | some read => settle state.1.socketFd (feedRead host state read)
  else
    .emit [] ⟨true, state.1, state.2⟩

section Branches

variable (host : Host Emulator) {revents : Revents} (answer : Option ClientRead)
  (state : Client × Emulator)

/-- A connection that hung up leaves as it is. -/
theorem attend_down (down : revents.pollErr ∨ revents.pollHup)
    : attend host revents answer state = .emit [] ⟨false, state.1, state.2⟩ := by
  simp only [attend, if_pos down]

/-- A connection without data stays as it is. -/
theorem attend_quiet (up : ¬ (revents.pollErr ∨ revents.pollHup))
    (quiet : revents.pollIn = false)
    : attend host revents answer state = .emit [] ⟨true, state.1, state.2⟩ := by
  simp only [attend, if_neg up, quiet, Bool.false_eq_true, if_false]

/-- A connection with data leaves at its end, and else a read decides about it. -/
theorem attend_ready (up : ¬ (revents.pollErr ∨ revents.pollHup)) (ready : revents.pollIn)
    : attend host revents none state = .emit [] ⟨false, state.1, state.2⟩
      ∧ ∀ read,
          attend host revents (some read) state
            = settle state.1.socketFd (feedRead host state read) := by
  simp only [attend, if_neg up, ready, if_true, implies_true, and_self]

/-- What is done for an entry: nothing, so that it stays or leaves, or one read. -/
theorem attend_cases (revents : Revents)
    : (∃ stays, attend host revents answer state = .emit [] ⟨stays, state.1, state.2⟩)
      ∨ ∃ read,
          attend host revents answer state
            = settle state.1.socketFd (feedRead host state read) := by
  by_cases down : revents.pollErr ∨ revents.pollHup
  · exact Or.inl ⟨false, attend_down host answer state down⟩
  cases ready : revents.pollIn with
  | false => exact Or.inl ⟨true, attend_quiet host answer state down ready⟩
  | true =>
      cases answer with
      | none => exact Or.inl ⟨false, (attend_ready host state down ready).1⟩
      | some read => exact Or.inr ⟨read, (attend_ready host state down ready).2 read⟩

end Branches

/-- The connection is given up without a word of the server: it failed, it hung up or its read
came to nothing.
-/
def Revents.Abandons (revents : Revents) (answer : Option ClientRead) : Prop :=
  revents.pollErr ∨ revents.pollHup ∨ revents.pollIn ∧ answer.isNone

instance (revents : Revents) (answer : Option ClientRead) : Decidable (revents.Abandons answer) :=
  inferInstanceAs (Decidable (_ ∨ _ ∨ _))

section Outcome

variable {host : Host Emulator} {revents : Revents} {answer : Option ClientRead}
  {state : Client × Emulator} {events : List Event} {client : Client} {emulator : Emulator}

/-- A connection that stays was not given up, and only its requests were worked on. -/
theorem attend_stayed (formed : state.1.WellFormed)
    (attended : attend host revents answer state = .emit events ⟨true, client, emulator⟩)
    : ¬ revents.Abandons answer ∧ ∀ event ∈ events, event.Works state.1.socketFd := by
  by_cases down : revents.pollErr ∨ revents.pollHup
  · rw [attend_down host answer state down] at attended
    cases attended
  have up := not_or.mp down
  cases ready : revents.pollIn with
  | false =>
      rw [attend_quiet host answer state down ready] at attended
      cases attended
      simp [Revents.Abandons, up, ready]
  | true =>
      have reads := attend_ready host state down ready
      cases answer with
      | none =>
          rw [reads.1] at attended
          cases attended
      | some read =>
          have works := feedRead_works host formed read
          rw [reads.2, settle] at attended
          split at attended <;> cases attended
          exact ⟨by simp [Revents.Abandons, up], works⟩

/-- A connection that leaves was given up, or its input was refused and it was closed. -/
theorem attend_left
    (attended : attend host revents answer state = .emit events ⟨false, client, emulator⟩)
    : (revents.Abandons answer ∧ events = [])
      ∨ (¬ revents.Abandons answer
        ∧ ∃ read last,
            answer = some read
            ∧ (feedRead host state read).result = .error ⟨.rejected, last⟩
            ∧ events = (feedRead host state read).emitted ++ [.closed state.1.socketFd]) := by
  by_cases down : revents.pollErr ∨ revents.pollHup
  · rw [attend_down host answer state down] at attended
    cases attended
    exact Or.inl ⟨or_assoc.mp (Or.inl down), rfl⟩
  have up := not_or.mp down
  cases ready : revents.pollIn with
  | false =>
      rw [attend_quiet host answer state down ready] at attended
      cases attended
  | true =>
      have reads := attend_ready host state down ready
      cases answer with
      | none =>
          rw [reads.1] at attended
          cases attended
          exact Or.inl ⟨Or.inr (Or.inr ⟨ready, rfl⟩), rfl⟩
      | some read =>
          rw [reads.2, settle] at attended
          split at attended <;> cases attended
          case h_2 last rejected =>
            exact Or.inr ⟨by simp [Revents.Abandons, up], read, last, rfl, rejected, rfl⟩

end Outcome

/-- A connection that is served keeps its descriptor, and its slot stays well-formed. -/
theorem attend_kept (host : Host Emulator) {revents : Revents} {answer : Option ClientRead}
    {state : Client × Emulator} {attended : Attended Emulator} (formed : state.1.WellFormed)
    (goes : (attend host revents answer state).result = .ok attended)
    : attended.client.socketFd = state.1.socketFd
      ∧ (attended.stays → attended.client.WellFormed) := by
  rcases attend_cases host answer state revents with ⟨stays, turn⟩ | ⟨read, turn⟩
  · rw [turn] at goes
    cases goes
    exact ⟨rfl, fun _ => formed⟩
  · rw [turn, settle] at goes
    split at goes
    case h_1 outcome =>
      cases goes
      exact (feedRead_kept formed outcome).symm.imp_right (fun kept _ => kept)
    case h_2 outcome =>
      cases goes
      rcases feedRead_stops host formed outcome with ⟨-, same⟩ | ⟨_, other, -⟩ | other
      · exact ⟨same, nofun⟩
      · cases other
      · cases other
    case h_3 => cases goes
    case h_4 => cases goes

/-- Everything that is done for a connection carries its descriptor. -/
theorem attend_serves (host : Host Emulator) (revents : Revents) (answer : Option ClientRead)
    {state : Client × Emulator} (formed : state.1.WellFormed)
    : ∀ event ∈ (attend host revents answer state).emitted, event.Serves state.1.socketFd := by
  rcases attend_cases host answer state revents with ⟨stays, turn⟩ | ⟨read, turn⟩
  · rw [turn]
    nofun
  · have serves : ∀ event ∈ (feedRead host state read).emitted, event.Serves state.1.socketFd :=
      fun event member => (feedRead_works host formed read event member).serves
    rw [turn, settle]
    split
    case h_2 =>
      exact List.forall_mem_append.mpr ⟨serves, List.forall_mem_singleton.mpr ⟨rfl, rfl⟩⟩
    all_goals exact serves

/-- An end of the poll loop that the work for a connection can cause. -/
def Shutdown.OfConnection : Shutdown → Prop
  | .returned _ => False
  | .undefined fault => fault.OfConnection
  | .spinning => True

/-- No stop of it is due to the client table or to the poll set. -/
theorem attend_stops (host : Host Emulator) {revents : Revents} {answer : Option ClientRead}
    {state : Client × Emulator} {shutdown : Shutdown} (formed : state.1.WellFormed)
    (stops : (attend host revents answer state).result = .error shutdown)
    : shutdown.OfConnection := by
  rcases attend_cases host answer state revents with ⟨stays, turn⟩ | ⟨read, turn⟩
  · rw [turn] at stops
    cases stops
  · rw [turn, settle] at stops
    split at stops
    case h_1 => cases stops
    case h_2 => cases stops
    case h_3 outcome =>
      cases stops
      rcases feedRead_stops host formed outcome with ⟨other, -⟩ | ⟨_, same, ofConnection⟩ | other
      · cases other
      · cases same
        exact ofConnection
      · cases other
    case h_4 =>
      cases stops
      exact trivial

/-- Both connections leave, or both stay and their slots are alike. -/
structure AttendedAlike (loose : Prop) (alike : Emulator → Emulator → Prop)
    (one other : Attended Emulator)
    : Prop where
  stays : one.stays = other.stays
  slots
    : one.stays
      → SlotsAlike loose alike (one.client, one.emulator) (other.client, other.emulator)

/-- Reads that were handled alike have the same consequences. -/
theorem settle_agree {alike : Emulator → Emulator → Prop} {loose : Prop} (fd : SOCKET)
    {left right : Turn Emulator (Client × Emulator)}
    (agree
      : Reaction.Agree (SlotsAlike loose alike)
          (fun stop final => EndAlike alike (Stopped.final stop) (Stopped.final final)) left right)
    : Reaction.Agree (AttendedAlike loose alike) Eq (settle fd left) (settle fd right) := by
  cases agree with
  | emit events related => exact .emit events ⟨rfl, fun _ => related⟩
  | @stop events last final related =>
      obtain ⟨ending, last⟩ := last
      obtain ⟨_, final⟩ := final
      obtain ⟨same, -⟩ := related
      cases same
      cases ending with
      | rejected => exact .emit _ ⟨rfl, nofun⟩
      | undefined fault => exact .stop events rfl
      | spinning => exact .stop events rfl

/-- Alike connections are served alike. -/
theorem attend_agree {host : Host Emulator} {alike : Emulator → Emulator → Prop} {loose : Prop}
    (respects : host.Respects alike) (catches : loose → host.CatchesBinary)
    (revents : Revents) (answer : Option ClientRead) {one other : Client × Emulator}
    (same : SlotsAlike loose alike one other)
    : Reaction.Agree (AttendedAlike loose alike) Eq (attend host revents answer one)
        (attend host revents answer other) := by
  have socket : one.1.socketFd = other.1.socketFd := same.inStep.1.socket
  simp only [attend]
  split
  case isTrue => exact .emit [] ⟨rfl, nofun⟩
  split
  case isFalse => exact .emit [] ⟨rfl, fun _ => same⟩
  cases answer with
  | none => exact .emit [] ⟨rfl, nofun⟩
  | some read =>
      rw [← socket]
      exact settle_agree _ (feedRead_agree respects catches same read)

section Outcomes

variable {host : Host Emulator} {alike : Emulator → Emulator → Prop} {loose : Prop}
  (respects : host.Respects alike) (catches : loose → host.CatchesBinary)
  {revents : Revents} {answer : Option ClientRead} {one other : Client × Emulator}
  (same : SlotsAlike loose alike one other) {events : List Event} {client : Client}
  {emulator : Emulator}
include respects catches same

/-- An alike connection does the same, and stays or leaves as this one does. -/
theorem attend_alike {stays : Bool}
    (attended : attend host revents answer one = .emit events ⟨stays, client, emulator⟩)
    : ∃ client' emulator',
        attend host revents answer other = .emit events ⟨stays, client', emulator'⟩
        ∧ (stays → SlotsAlike loose alike (client, emulator) (client', emulator')) := by
  have agree := attend_agree respects catches revents answer same
  rw [attended] at agree
  generalize attend host revents answer other = right at agree
  cases agree with
  | @emit _ _ right related =>
      obtain ⟨also, client', emulator'⟩ := right
      obtain ⟨rfl, slots⟩ := related
      exact ⟨client', emulator', rfl, slots⟩

end Outcomes

end NetworkAccess
