import NetworkAccess.Library.Numerals
import NetworkAccess.Validator.GetReply

/-! The checks of the validator and the report about them. The progress that it prints before the
report is left out.
-/

namespace NetworkAccess

open Numerals

/-- A check with its sub-checks, which have none of their own. -/
structure NWACheck where
  name : Bytes
  description : Bytes
  passed : Bool
  subChecks : List NWACheck

/-- All checks in the order in which they began. The last one is the current check. -/
structure NWAChecker where
  allChecks : List NWACheck

namespace NWAChecker

/-- A checker without checks. -/
def new : NWAChecker := ⟨[]⟩

/-- A new check has not passed yet. -/
def newCheck (shortDescription description : Bytes) (checker : NWAChecker) : NWAChecker :=
  ⟨checker.allChecks ++ [⟨shortDescription, description, false, []⟩]⟩

/-- Change the current check, which is the last one; `last_mut().unwrap()` panics without one. -/
def updateCurrent (change : NWACheck → NWACheck) (checker : NWAChecker)
    : Except Failure NWAChecker :=
  match checker.allChecks.getLast? with
  | none => .error .panics
  | some current => .ok ⟨checker.allChecks.dropLast ++ [change current]⟩

/-- Decide the current check. -/
def setPassed (passed : Bool) (checker : NWAChecker) : Except Failure NWAChecker :=
  checker.updateCurrent (fun check => { check with passed })

/-- The functions that decide the current check, and return how. -/
def expect (passed : Bool) (checker : NWAChecker) : Except Failure (Bool × NWAChecker) := do
  let checker ← checker.setPassed passed
  pure (passed, checker)

/-- The current check passes if the reply is a map. -/
def currentCheckExpectAsciiHash (reply : EmulatorReply)
    : NWAChecker → Except Failure (Bool × NWAChecker) :=
  expect
    (match reply with
    | .ascii (.hash _) => true
    | _ => false)

/-- The current check passes if the reply is the empty one. -/
def currentCheckExpectAsciiOk (reply : EmulatorReply)
    : NWAChecker → Except Failure (Bool × NWAChecker) :=
  expect
    (match reply with
    | .ascii .ok => true
    | _ => false)

/-- The current check passes if the reply is a block of this size. -/
def currentCheckExpectBinaryBlock (reply : EmulatorReply) (size : Nat)
    : NWAChecker → Except Failure (Bool × NWAChecker) :=
  expect
    (match reply with
    | .binary data => data.length = size
    | _ => false)

/-- The current check passes if the reply is an error of this kind. -/
def currentCheckExpectError (reply : EmulatorReply) (kind : NWAErrorKind)
    : NWAChecker → Except Failure (Bool × NWAChecker) :=
  expect
    (match reply with
    | .error error => error.kind = kind
    | _ => false)

/-- Whether a key check passes: the key of a list is never found. -/
def keyPassed (reply : EmulatorReply) (key : Bytes) (value : Option Bytes) : Bool :=
  match reply with
  | .ascii (.hash map) =>
      match value with
      | none => (map.lookup key).isSome
      | some value => map.lookup key = some value
  | _ => false

/-- The value that a key check returns. -/
def keyValue (reply : EmulatorReply) (key : Bytes) : Option Bytes :=
  match reply with
  | .ascii (.hash map) => map.lookup key
  | _ => none

/-- The sub-check about a key. -/
def keyCheck (reply : EmulatorReply) (key : Bytes) (value : Option Bytes) : NWACheck := {
  name := ascii "Checking for mandatory key " ++ key
  description := ascii "no desc"
  passed := keyPassed reply key value
  subChecks := []
}

/-- Add the sub-check about a key, and return the value of the key. -/
def currentCheckAddKeyCheck (reply : EmulatorReply) (key : Bytes) (value : Option Bytes)
    (checker : NWAChecker)
    : Except Failure (Option Bytes × NWAChecker) := do
  let checker ← checker.updateCurrent (fun check =>
    { check with subChecks := check.subChecks ++ [keyCheck reply key value] })
  pure (keyValue reply key, checker)

/-- Add a sub-check that is already decided. -/
def currentCheckAddSubcheck (name description : Bytes) (passed : Bool) (checker : NWAChecker)
    : Except Failure NWAChecker :=
  checker.updateCurrent (fun check =>
    { check with subChecks := check.subChecks ++ [⟨name, description, passed, []⟩] })

end NWAChecker

/-- What `repport` counts, and the lines that it prints. -/
structure Report where
  passedCount : Nat
  totalCheck : Nat
  lines : List Bytes

/-- `c_passed` behind its loop over the sub-checks. -/
def NWACheck.cPassed (check : NWACheck) : Bool :=
  check.subChecks.foldl
    (fun cPassed subCheck => if subCheck.passed = false then false else cPassed) true

/-- Whether `repport` counts the check as passed. -/
def NWACheck.counts (check : NWACheck) : Bool := check.cPassed && check.passed

/-- The lines about a check that failed. -/
def NWACheck.failureLines (check : NWACheck) : List Bytes :=
  (ascii "Check failed : " ++ check.name ++ ascii "\n\t" ++ check.description)
    :: (check.subChecks.filter (fun subCheck => subCheck.passed = false)).map
      (fun subCheck => ascii "Sub check failed : " ++ subCheck.name)

/-- One turn of the loop of `repport`. -/
def Report.add (report : Report) (check : NWACheck) : Report :=
  if check.counts then
    { report with passedCount := report.passedCount + 1 }
  else
    { report with lines := report.lines ++ check.failureLines }

/-- `repport`: one pass over the checks, with a line for each. -/
def NWAChecker.repport (checker : NWAChecker) : Report :=
  let begun := {
    passedCount := 0
    totalCheck := checker.allChecks.length
    lines := [ascii "\n\nRepport for the run:\n"]
  }
  let report := checker.allChecks.foldl Report.add begun
  {
    report with
    lines := report.lines
      ++ [ascii "Check passed : " ++ decimal report.passedCount ++ ascii " / "
        ++ decimal report.totalCheck]
  }

/-- The calls that `main` makes one after the other. -/
inductive CheckerCall where
  | newCheck (shortDescription description : Bytes)
  | setPassed (passed : Bool)
  | expectAsciiHash (reply : EmulatorReply)
  | expectAsciiOk (reply : EmulatorReply)
  | expectBinaryBlock (reply : EmulatorReply) (size : Nat)
  | expectError (reply : EmulatorReply) (kind : NWAErrorKind)
  | addKeyCheck (reply : EmulatorReply) (key : Bytes) (value : Option Bytes)
  | addSubcheck (name description : Bytes) (passed : Bool)

/-- One call of the program on its checker. -/
def NWAChecker.perform (checker : NWAChecker) : CheckerCall → Except Failure NWAChecker
  | .newCheck shortDescription description => .ok (checker.newCheck shortDescription description)
  | .setPassed passed => checker.setPassed passed
  | .expectAsciiHash reply => (checker.currentCheckExpectAsciiHash reply).map Prod.snd
  | .expectAsciiOk reply => (checker.currentCheckExpectAsciiOk reply).map Prod.snd
  | .expectBinaryBlock reply size =>
      (checker.currentCheckExpectBinaryBlock reply size).map Prod.snd
  | .expectError reply kind => (checker.currentCheckExpectError reply kind).map Prod.snd
  | .addKeyCheck reply key value => (checker.currentCheckAddKeyCheck reply key value).map Prod.snd
  | .addSubcheck name description passed =>
      checker.currentCheckAddSubcheck name description passed

-----------------------------------------------------------------------------------------
-- Which checks a call changes
-----------------------------------------------------------------------------------------

/-- These checks are behind the current one, so no call can change them. -/
def NWAChecker.Begins (checker : NWAChecker) (checks : List NWACheck) : Prop :=
  ∃ rest, rest ≠ [] ∧ checker.allChecks = checks ++ rest

/-- The current check is changed, and the ones before it stay. -/
theorem NWAChecker.updateCurrent_concat (change : NWACheck → NWACheck) (before : List NWACheck)
    (current : NWACheck)
    : updateCurrent change ⟨before ++ [current]⟩ = .ok ⟨before ++ [change current]⟩ := by
  simp only [updateCurrent, List.getLast?_concat, List.dropLast_concat]

section Calls

variable {checker after : NWAChecker} {checks : List NWACheck}

/-- Changing the current check keeps the checks at the beginning. -/
theorem NWAChecker.Begins.updateCurrent (begins : checker.Begins checks)
    {change : NWACheck → NWACheck} (runs : checker.updateCurrent change = .ok after)
    : after.Begins checks := by
  obtain ⟨all⟩ := checker
  obtain ⟨rest, some_, rfl⟩ := begins
  obtain rfl | ⟨front, current, rfl⟩ := List.eq_nil_or_concat' rest
  · exact absurd rfl some_
  · rw [← List.append_assoc, NWAChecker.updateCurrent_concat] at runs
    cases runs
    exact ⟨front ++ [change current], List.concat_ne_nil _ _, List.append_assoc _ _ _⟩

/-- Deciding the current check keeps the checks at the beginning. -/
theorem NWAChecker.Begins.expect (begins : checker.Begins checks) {passed : Bool}
    (runs : (checker.expect passed).map Prod.snd = .ok after)
    : after.Begins checks := by
  rw [NWAChecker.expect] at runs
  cases sets : checker.setPassed passed with
  | error failure =>
      rw [sets] at runs
      cases runs
  | ok next =>
      rw [sets] at runs
      cases runs
      exact begins.updateCurrent sets

/-- No call of a run changes a check that has another one behind it. -/
theorem NWAChecker.Begins.perform (begins : checker.Begins checks) {call : CheckerCall}
    (runs : checker.perform call = .ok after)
    : after.Begins checks := by
  cases call with
  | newCheck shortDescription description =>
      obtain ⟨rest, -, all⟩ := begins
      cases runs
      refine ⟨rest ++ [⟨shortDescription, description, false, []⟩], List.concat_ne_nil _ _, ?_⟩
      rw [NWAChecker.newCheck, all, List.append_assoc]
  | setPassed passed => exact begins.updateCurrent runs
  | expectAsciiHash reply => exact begins.expect runs
  | expectAsciiOk reply => exact begins.expect runs
  | expectBinaryBlock reply size => exact begins.expect runs
  | expectError reply kind => exact begins.expect runs
  | addKeyCheck reply key value =>
      rw [NWAChecker.perform, NWAChecker.currentCheckAddKeyCheck] at runs
      generalize adds : checker.updateCurrent _ = added at runs
      cases added with
      | error failure => cases runs
      | ok next =>
          cases runs
          exact begins.updateCurrent adds
  | addSubcheck name description passed => exact begins.updateCurrent runs

/-- All calls keep the checks at the beginning, by induction on the calls. -/
theorem NWAChecker.Begins.foldlM_perform (begins : checker.Begins checks)
    {calls : List CheckerCall} (runs : calls.foldlM NWAChecker.perform checker = .ok after)
    : after.Begins checks := by
  induction calls generalizing checker with
  | nil =>
      cases runs
      exact begins
  | cons call rest ih =>
      rw [List.foldlM_cons] at runs
      cases step : checker.perform call with
      | error failure =>
          rw [step] at runs
          cases runs
      | ok next =>
          rw [step] at runs
          exact ih (begins.perform step) runs

end Calls

-----------------------------------------------------------------------------------------
-- The report
-----------------------------------------------------------------------------------------

/-- A report counts the checks that count, by induction on the checks. -/
theorem Report.foldl_add (checks : List NWACheck) (report : Report)
    : checks.foldl add report
      = {
        report with
        passedCount := report.passedCount + checks.countP NWACheck.counts
        lines := report.lines
          ++ (checks.filter (fun check => ¬ check.counts)).flatMap NWACheck.failureLines
      } := by
  induction checks generalizing report with
  | nil => simp
  | cons check rest ih =>
      rw [List.foldl_cons, ih, add]
      cases counts : check.counts with
      | true => simp [counts, Nat.add_assoc, Nat.add_comm 1]
      | false => simp [counts]

/-- The count is the number of checks that have passed with all their sub-checks. -/
theorem NWAChecker.repport_passedCount (checker : NWAChecker)
    : checker.repport.passedCount = checker.allChecks.countP NWACheck.counts := by
  simp only [repport, Report.foldl_add, Nat.zero_add]

/-- `c_passed` is true exactly if every sub-check passed. -/
theorem NWACheck.cPassed_iff (check : NWACheck)
    : check.cPassed ↔ ∀ subCheck ∈ check.subChecks, subCheck.passed := by
  rw [cPassed]
  generalize check.subChecks = subChecks
  suffices general
      : ∀ before : Bool,
          subChecks.foldl
            (fun cPassed subCheck => if subCheck.passed = false then false else cPassed) before
          ↔ before ∧ ∀ subCheck ∈ subChecks, subCheck.passed by
    simpa using general true
  induction subChecks with
  | nil => simp
  | cons subCheck rest ih =>
      intro before
      rw [List.foldl_cons, ih, List.forall_mem_cons]
      cases subCheck.passed <;> simp

end NetworkAccess
