import NetworkAccess.Validator.Lines

/-! `get_reply` returns or waits on any bytes, except for ASCII replies with a line that is too long
for its arrays and for those that are cut by the end of the connection.
-/

namespace NetworkAccess

/-- The loop stops at the first line without a colon: it is the empty line, or malformed. -/
def stopLine (lines : List Bytes) : Option Bytes := lines.find? (fun line => !line.contains colon)

/-- The lines of a reply that is malformed, or truncated by the peer. -/
def Broken (peer : Peer) (lines : List Bytes) : Prop :=
  match stopLine lines with
  | some line => line ≠ []
  | none => peer ≠ .silent

/-- The arrays hold every line up to the one at which the loop stops; without such a line, the
connection stays open.
-/
def Readable (peer : Peer) : List Bytes → Prop
  | [] => peer ≠ .closed
  | line :: rest => LineFits line ∧ (colon ∈ line → Readable peer rest)

/-- `get_reply` does not panic, it waits only for an open connection, and it returns an error for a
broken ASCII reply.
-/
structure Answers (connection : Connection) : Prop where
  noPanic : (getReply connection).1 ≠ .error .panics
  waits : (getReply connection).1 = .error .waits → connection.peer = .silent
  broken
    : ∀ behind,
        connection.arrivals.flatten = newline :: behind
        → Broken connection.peer (completeLines behind)
        → ∃ error, (getReply connection).1 = .error (.io error)

-----------------------------------------------------------------------------------------
-- The lines
-----------------------------------------------------------------------------------------

section Lines

variable {peer : Peer} {lines : List Bytes}

/-- A readable reply is decoded without a panic, whatever was decoded before it. -/
theorem Readable.decodeLines (readable : Readable peer lines)
    (closed : ∀ line ∈ lines, newline ∉ line) (map : StringMap)
    : decodeLines peer lines map ≠ .error .panics
      ∧ (decodeLines peer lines map = .error .waits → peer = .silent)
      ∧ (Broken peer lines → ∃ error, decodeLines peer lines map = .error (.io error)) := by
  induction lines generalizing map with
  | nil =>
      cases peer with
      | silent =>
          refine ⟨fun panics => ?_, fun _ => rfl, fun broken => absurd rfl broken⟩
          cases panics
      | closed => exact absurd rfl readable
      | failed error =>
          refine ⟨fun panics => ?_, fun waits => ?_, fun _ => ⟨error, rfl⟩⟩
          · cases panics
          · cases waits
  | cons line rest ih =>
      obtain ⟨fits, goesOn⟩ := readable
      obtain ⟨taken, refused, -⟩ := scanLine_line (closed line List.mem_cons_self)
      rw [NetworkAccess.decodeLines]
      by_cases some_ : colon ∈ line
      · have nonempty : line ≠ [] := List.ne_nil_of_mem some_
        obtain ⟨pair, scanned⟩ := taken fits some_
        have same : Broken peer (line :: rest) ↔ Broken peer rest := by
          rw [Broken, stopLine, List.find?_cons_of_neg (by simpa using some_)]
          rfl
        rw [if_neg nonempty, scanned, same]
        exact ih (goesOn some_) (fun line member => closed line (List.mem_cons_of_mem _ member)) _
      · have stops : stopLine (line :: rest) = some line :=
          List.find?_cons_of_pos (by simpa using some_)
        rw [Broken, stops]
        by_cases empty : line = []
        · rw [if_pos empty]
          refine ⟨fun panics => ?_, fun waits => ?_, fun broken => absurd empty broken⟩
          · cases panics
          · cases waits
        · rw [if_neg empty, refused fits some_]
          refine ⟨fun panics => ?_, fun waits => ?_, fun _ => ⟨_, rfl⟩⟩
          · cases panics
          · cases waits

/-- Any other reply leads to a panic. -/
theorem decodeLines_panics (unreadable : ¬ Readable peer lines)
    (closed : ∀ line ∈ lines, newline ∉ line) (map : StringMap)
    : decodeLines peer lines map = .error .panics := by
  induction lines generalizing map with
  | nil =>
      obtain rfl : peer = .closed := not_not.mp unreadable
      rfl
  | cons line rest ih =>
      obtain ⟨taken, -, tooLong⟩ := scanLine_line (closed line List.mem_cons_self)
      rw [decodeLines]
      by_cases fits : LineFits line
      · obtain ⟨some_, later⟩ : colon ∈ line ∧ ¬ Readable peer rest := by
          simpa [Readable, fits] using unreadable
        have nonempty : line ≠ [] := List.ne_nil_of_mem some_
        obtain ⟨pair, scanned⟩ := taken fits some_
        rw [if_neg nonempty, scanned]
        exact ih later (fun line member => closed line (List.mem_cons_of_mem _ member)) _
      · have nonempty : line ≠ [] := by
          rintro rfl
          exact fits (by decide)
        rw [if_neg nonempty, tooLong fits]

end Lines

-----------------------------------------------------------------------------------------
-- The reply
-----------------------------------------------------------------------------------------

/-- A binary reply never panics, wherever it is cut. -/
theorem binaryReply_failure {reader after : BufReader} {failure : Failure}
    (fails : binaryReply reader = .error failure after)
    : failure = .waits ∧ reader.connection.peer = .silent ∨ ∃ error, failure = .io error := by
  rw [binaryReply] at fails
  cases header : read 4 reader with
  | error first failed =>
      rw [Receiving.bind_error header] at fails
      cases fails
      exact read_failure header
  | ok bytes next =>
      rw [Receiving.bind_ok header] at fails
      cases data : read (headerSize (overlay 4 bytes)) next with
      | error second failed =>
          rw [Receiving.bind_error data] at fails
          cases fails
          rw [← read_peer header]
          exact read_failure data
      | ok =>
          rw [Receiving.bind_ok data] at fails
          cases fails

/-- Anything else is answered in any case. -/
theorem getReply_other {connection : Connection}
    (other : ∀ behind, connection.arrivals.flatten ≠ newline :: behind) {failure : Failure}
    (fails : (getReply connection).1 = .error failure)
    : failure = .waits ∧ connection.peer = .silent ∨ ∃ error, failure = .io error := by
  rw [getReply] at fails
  cases stream : connection.arrivals.flatten with
  | nil =>
      have none_ : Buffered.filled connection.arrivals = [] := by
        have flat := (Buffered.filled_flatten connection.arrivals).trans stream
        by_contra some_
        obtain ⟨piece, rest, split⟩ := List.exists_cons_of_ne_nil some_
        rw [split, List.flatten_cons, List.append_eq_nil_iff] at flat
        exact Buffered.filled_ne_nil split flat.1
      have reads := read_nothing none_ 1
      rw [readReply, BufReader.new] at fails
      cases peer : connection.peer <;> rw [peer] at reads <;> dsimp only at reads
      case silent =>
        rw [Receiving.bind_error reads] at fails
        cases fails
        exact Or.inl ⟨rfl, rfl⟩
      case closed =>
        rw [Receiving.bind_ok reads] at fails
        cases fails
        exact Or.inr ⟨_, rfl⟩
      case failed error =>
        rw [Receiving.bind_error reads] at fails
        cases fails
        exact Or.inr ⟨_, rfl⟩
  | cons first behind =>
      obtain ⟨next, advances, -, reply⟩ := readReply_first stream
      have differs : first ≠ newline := by
        rintro rfl
        exact other behind stream
      rw [reply, if_neg differs] at fails
      by_cases zero : first = 0
      · rw [if_pos zero] at fails
        cases binary : binaryReply next with
        | ok => rw [binary] at fails; cases fails
        | error cause after =>
            rw [binary] at fails
            cases fails
            have meets := binaryReply_failure binary
            rwa [advances.peer] at meets
      · rw [if_neg zero] at fails
        cases fails
        exact Or.inr ⟨_, rfl⟩

/-- For all bytes that a server may send, however they arrive and whatever is behind them. -/
theorem answers_iff (connection : Connection)
    : Answers connection
      ↔ ∀ behind,
          connection.arrivals.flatten = newline :: behind
          → Readable connection.peer (completeLines behind) := by
  have closed (behind : Bytes) : ∀ line ∈ completeLines behind, newline ∉ line :=
    fun _ member => completeLines_closed member
  constructor
  · intro answers behind arrives
    by_contra unreadable
    refine answers.noPanic ?_
    rw [getReply_lines arrives]
    exact decodeLines_panics unreadable (closed behind) ∅
  · intro readable
    by_cases other : ∀ behind, connection.arrivals.flatten ≠ newline :: behind
    · refine ⟨?_, ?_, fun behind arrives => absurd arrives (other behind)⟩
      · intro panics
        rcases getReply_other other panics with ⟨waits, -⟩ | ⟨_, failed⟩
        · cases waits
        · cases failed
      · intro waits
        rcases getReply_other other waits with ⟨-, silent⟩ | ⟨_, failed⟩
        · exact silent
        · cases failed
    · simp only [not_forall, not_not] at other
      obtain ⟨behind, arrives⟩ := other
      obtain ⟨noPanic, waits, broken⟩ := (readable behind arrives).decodeLines (closed behind) ∅
      rw [← getReply_lines arrives] at noPanic waits broken
      refine ⟨noPanic, waits, ?_⟩
      intro again same
      obtain rfl : again = behind := (List.cons.inj (same.symm.trans arrives)).2
      exact broken

/-- The connection ends behind the first newline. -/
theorem getReply_panics_truncated : ¬ Answers ⟨[[newline]], .closed⟩ := by
  intro answers
  exact (answers_iff _).mp answers [] rfl rfl

end NetworkAccess
