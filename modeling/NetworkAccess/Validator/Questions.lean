import NetworkAccess.Library.Dialogue
import NetworkAccess.Validator.Judgements

/-! One question of the validator: what is written and read for it, and what it adds to the
interview and to the checks.
-/

namespace NetworkAccess

variable {Value Next : Type} {overflowChecks : Bool}

-----------------------------------------------------------------------------------------
-- Calls
-----------------------------------------------------------------------------------------

namespace Validator

/-- One part of the program after the other. -/
@[simp] theorem bind_apply (first : Validator Value) (next : Value → Validator Next)
    (session : Session)
    : (first >>= next) session = (first session).andThen (fun result => next result.1 result.2) :=
  rfl

/-- A part of the program that does nothing. -/
@[simp] theorem pure_apply (value : Value) (session : Session)
    : (Pure.pure value : Validator Value) session = .emit [] (value, session) := rfl

/-- A judgement that does not panic makes no call. -/
theorem judge_ok {judging : Judging Value} {session : Session} {value : Value}
    {checker : NWAChecker} (judges : judging session.checker = .ok (value, checker))
    : judge judging session = .emit [] (value, { session with checker }) := by
  rw [judge, judges]

/-- A write makes its call and changes no check. -/
theorem write_runs (bytes : Bytes) (session : Session)
    : ∃ outcome after,
        after.checker = session.checker
        ∧ write bytes session = .emit [.write bytes] (outcome, after) := by
  refine ⟨_, { session with socket := { session.socket with writes := _ } }, ?_, rfl⟩
  rfl

/-- Two writes that are not looked at. -/
theorem sendBlock_runs (data : Bytes) (session : Session)
    : ∃ after : Session,
        after.checker = session.checker
        ∧ sendBlock data session
          = .emit [.write (blockHeader data.length), .write data] ((), after) := by
  obtain ⟨first, middle, checker, header⟩ := write_runs (blockHeader data.length) session
  obtain ⟨second, after, same, block⟩ := write_runs data middle
  refine ⟨after, same.trans checker, ?_⟩
  simp only [sendBlock, bind_apply, header, block, Reaction.emit_andThen, pure_apply,
    Reaction.prepend_emit]
  rfl

/-- A raw command makes its call and changes no check, whatever the write returns. -/
theorem executeRaw_runs (cmd : Bytes) (argString : Option Bytes) (session : Session)
    : ∃ after : Session,
        after.checker = session.checker
        ∧ executeRaw cmd argString session
          = .emit [.write (executeRawCommand cmd argString)] ((), after) := by
  obtain ⟨outcome, after, checker, line⟩ := write_runs (executeRawCommand cmd argString) session
  refine ⟨after, checker, ?_⟩
  simp only [executeRaw, bind_apply, line, Reaction.emit_andThen, pure_apply,
    Reaction.prepend_emit]
  rfl

/-- How `get_reply` ends. No call on the connection changes the checks. -/
inductive Received (session : Session)
    : Reaction NetworkCall Halt (Except IoError EmulatorReply × Session) → Prop
  | replied (reply after) (decoded : reply.Decoded) (checker : after.checker = session.checker)
    : Received session (.emit [.getReply (.ok reply)] (.ok reply, after))
  | failed (error after) (checker : after.checker = session.checker)
    : Received session (.emit [.getReply (.error (.io error))] (.error error, after))
  | stopped (failure) (final : ∀ error, failure ≠ .io error)
    : Received session (.stop [.getReply (.error failure)] (.fails failure))

/-- `get_reply` ends in one of these ways. -/
theorem getReply_received (session : Session) : Received session (getReply session) := by
  cases gets : NetworkAccess.getReply session.socket.connection with
  | mk answer connection =>
      cases answer with
      | ok reply =>
          have decoded : reply.Decoded := getReply_decoded (congrArg Prod.fst gets)
          simp only [getReply, gets]
          exact .replied reply _ decoded rfl
      | error failure =>
          cases failure with
          | io error =>
              simp only [getReply, gets]
              exact .failed error _ rfl
          | waits =>
              simp only [getReply, gets]
              exact .stopped .waits (fun error same => by cases same)
          | panics =>
              simp only [getReply, gets]
              exact .stopped .panics (fun error same => by cases same)

/-- How a question ends: with a reply, or with the program. -/
inductive Questioned (overflowChecks : Bool) (ask : Ask) (session : Session)
    : Reaction NetworkCall Halt (EmulatorReply × Session) → Prop
  | replied (reply after) (decoded : reply.Decoded) (checker : after.checker = session.checker)
    : Questioned overflowChecks ask session
        (.emit (Inquiry.asked ask (.replied reply)).calls (reply, after))
  | stopped (answer reason) (sent : ∀ error, answer = .unsent error → ask.block = none)
      (silent : ∀ reply, answer ≠ .replied reply)
      (halts : (Inquiry.asked ask answer).halts overflowChecks = some reason)
    : Questioned overflowChecks ask session (.stop (Inquiry.asked ask answer).calls reason)

/-- An error of the connection ends an ordinary question with a panic. -/
theorem halts_failed {ask : Ask} (ordinary : ask.Ordinary) (error : IoError)
    : (Inquiry.asked ask (.failed (.io error))).halts overflowChecks = some (.fails .panics)
      ∧ (Inquiry.asked ask (.unsent error)).halts overflowChecks = some (.fails .panics) := by
  cases ask with
  | behindBlock reply => exact absurd rfl (ordinary reply)
  | _ => exact ⟨rfl, rfl⟩

/-- Where `get_reply` itself does not return, the program ends so. -/
theorem halts_stopped (ask : Ask) {failure : Failure} (final : ∀ error, failure ≠ .io error)
    : (Inquiry.asked ask (.failed failure)).halts overflowChecks = some (.fails failure) := by
  cases failure with
  | io error => exact absurd rfl (final error)
  | waits => rfl
  | panics => rfl

/-- A question whose reply is expected, behind what is written for it. -/
theorem Received.questioned {session before : Session}
    {reaction : Reaction NetworkCall Halt (Except IoError EmulatorReply × Session)}
    (received : Received session reaction) (checker : session.checker = before.checker)
    {ask : Ask} (ordinary : ask.Ordinary)
    : Questioned overflowChecks ask before
        ((reaction.andThen (fun result => expectReply result.1 result.2)).prepend
          (ask.writes.map .write)) := by
  cases received with
  | replied reply after decoded same =>
      have calls
          : (Inquiry.asked ask (.replied reply)).calls
            = ask.writes.map .write ++ [.getReply (.ok reply)] := by
        cases ask with
        | behindBlock earlier => exact absurd rfl (ordinary earlier)
        | _ => rfl
      have questioned : Questioned overflowChecks ask before _ :=
        .replied reply after decoded (same.trans checker)
      simpa [calls, expectReply] using questioned
  | failed error after same =>
      have questioned : Questioned overflowChecks ask before _ :=
        .stopped (.failed (.io error)) _ (fun _ same => by cases same) (fun _ same => by cases same)
          (halts_failed ordinary error).1
      simpa [Inquiry.calls, expectReply, panic, halt] using questioned
  | stopped failure final =>
      have questioned : Questioned overflowChecks ask before _ :=
        .stopped (.failed failure) _ (fun _ same => by cases same) (fun _ same => by cases same)
          (halts_stopped ask final)
      simpa [Inquiry.calls] using questioned

/-- `ask` puts a question that is a line only. -/
theorem ask_questioned {ask : Ask} (ordinary : ask.Ordinary) {cmd : Bytes}
    {argString : Option Bytes} (line : ask.line = some (executeRawCommand cmd argString))
    (plain : ask.block = none) (session : Session)
    : Questioned overflowChecks ask session (Validator.ask cmd argString session) := by
  have writes : ask.writes = [executeRawCommand cmd argString] := by
    simp [Ask.writes, line, plain]
  have evaluates
      : Validator.ask cmd argString session
        = (executeCommand cmd argString session).andThen (fun result =>
          expectReply result.1 result.2) := rfl
  rw [evaluates]
  obtain ⟨outcome, after, checker, written⟩ :=
    write_runs (executeRawCommand cmd argString) session
  simp only [executeCommand, bind_apply, written, Reaction.emit_andThen]
  cases outcome with
  | some error =>
      have questioned : Questioned overflowChecks ask session _ :=
        .stopped (.unsent error) _ (fun _ _ => plain) (fun _ same => by cases same)
          (halts_failed ordinary error).2
      simpa [Inquiry.calls, writes, expectReply, panic, halt] using questioned
  | none =>
      have questioned : Questioned overflowChecks ask session _ :=
        (getReply_received after).questioned checker ordinary
      simpa [writes] using questioned

/-- The question about the unexpected block. -/
theorem unexpectedBlock_questioned (session : Session)
    : Questioned overflowChecks .unexpectedBlock session
        ((do
          sendBlock [1, 2, 3]
          expectReply (← getReply) : Validator EmulatorReply) session) := by
  obtain ⟨after, checker, sends⟩ := sendBlock_runs [1, 2, 3] session
  have questioned : Questioned overflowChecks .unexpectedBlock session _ :=
    (getReply_received after).questioned checker (fun _ same => by cases same)
  rw [bind_apply, sends, Reaction.emit_andThen]
  exact questioned

/-- A question with a block of zeros. -/
theorem write_questioned (trial : Trial) (memory : AvailableMemory) (session : Session)
    : Questioned overflowChecks (.write trial memory) session
        ((do
          executeRaw (ascii "bCORE_WRITE") (some (trial.argString memory))
          sendBlock (List.replicate (trial.size memory) 0)
          expectReply (← getReply) : Validator EmulatorReply) session) := by
  obtain ⟨middle, checker, line⟩ :=
    executeRaw_runs (ascii "bCORE_WRITE") (some (trial.argString memory)) session
  obtain ⟨after, same, block⟩ := sendBlock_runs (List.replicate (trial.size memory) 0) middle
  have questioned : Questioned overflowChecks (.write trial memory) session _ :=
    (getReply_received after).questioned (same.trans checker) (fun _ same => by cases same)
  simpa [line, block, Ask.writes, Ask.line, Ask.block] using questioned

end Validator
end NetworkAccess
