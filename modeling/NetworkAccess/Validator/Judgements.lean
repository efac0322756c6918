import NetworkAccess.Validator.Interview

/-! The check that the validator makes of a reply counts exactly if the reply is what was demanded.
-/

namespace NetworkAccess

variable {Value Next : Type}

-----------------------------------------------------------------------------------------
-- What changes the current check
-----------------------------------------------------------------------------------------

namespace Judging

variable (before : List NWACheck) (check : NWACheck)

/-- One judgement after the other. -/
@[simp] theorem bind_apply (judging : Judging Value) (next : Value → Judging Next)
    (checker : NWAChecker)
    : (judging >>= next) checker
      = (judging checker).bind (fun result => next result.1 result.2) := rfl

/-- A judgement that changes no check. -/
@[simp] theorem pure_apply (value : Value) (checker : NWAChecker)
    : (Pure.pure value : Judging Value) checker = .ok (value, checker) := rfl

/-- Changing the value of a judgement changes no check. -/
@[simp] theorem map_apply (change : Value → Next) (judging : Judging Value) (checker : NWAChecker)
    : (change <$> judging) checker
      = (judging checker).map (fun result => (change result.1, result.2)) := by
  simp only [Functor.map, StateT.map, Bind.bind, Pure.pure]
  cases judging checker <;> rfl

/-- Deciding the current check. -/
@[simp] theorem setPassed_apply (passed : Bool)
    : setPassed passed ⟨before ++ [check]⟩ = .ok ((), ⟨before ++ [{ check with passed }]⟩) := by
  simp [setPassed, setPassed_concat, Except.map]

/-- Deciding the current check and returning how. -/
theorem expect_apply (passed : Bool)
    : NWAChecker.expect passed ⟨before ++ [check]⟩
      = .ok (passed, ⟨before ++ [{ check with passed }]⟩) := by
  simp [NWAChecker.expect, setPassed_concat, Bind.bind, Except.bind, Pure.pure, Except.pure]

/-- A key check returns what the reply reports for the key. -/
@[simp] theorem addKeyCheck_apply (reply : EmulatorReply) (key : Bytes) (value : Option Bytes)
    : addKeyCheck reply key value ⟨before ++ [check]⟩
      = .ok (
        (Answer.replied reply).report key,
        ⟨before
          ++ [{ check with
            subChecks := check.subChecks ++ [NWAChecker.keyCheck reply key value] }]⟩
      ) := by
  rw [addKeyCheck, addKeyCheck_concat]
  cases reply with
  | ascii text => cases text <;> rfl
  | error error => rfl
  | binary data => rfl

/-- A sub-check stands behind the ones before it. -/
@[simp] theorem addSubcheck_apply (name description : Bytes) (passed : Bool)
    : addSubcheck name description passed ⟨before ++ [check]⟩
      = .ok (
        (),
        ⟨before
          ++ [{ check with
            subChecks := check.subChecks ++ [⟨name, description, passed, []⟩] }]⟩
      ) := by
  simp [addSubcheck, NWAChecker.currentCheckAddSubcheck, NWAChecker.updateCurrent_concat,
    Except.map]

/-- One sub-check for each of a list of commands, by induction on it. -/
@[simp] theorem mandatory_apply (available commands : List Bytes)
    : forM commands (judgeMandatory available) ⟨before ++ [check]⟩
      = .ok (
        (),
        ⟨before
          ++ [{ check with
            subChecks := check.subChecks ++ commands.map (fun command =>
              ⟨ascii "Mandatory command " ++ command, ascii "Plop", available.contains command,
                []⟩) }]⟩
      ) := by
  induction commands generalizing check with
  | nil =>
      cases check
      simp
  | cons command rest ih => simp [judgeMandatory, Except.bind, ih]

end Judging

-----------------------------------------------------------------------------------------
-- When a check passes
-----------------------------------------------------------------------------------------

/-- The judgement of a new check: it counts exactly if the reply is accepted. -/
def Judging.Settles (judging : Judging Value) (value : Value) (accepted : Prop) : Prop :=
  ∀ before name description,
    ∃ check,
      judging ⟨before ++ [⟨name, description, false, []⟩]⟩ = .ok (value, ⟨before ++ [check]⟩)
      ∧ (check.counts ↔ accepted)

/-- A check counts exactly if it passed and all its sub-checks did. -/
theorem NWACheck.counts_iff (check : NWACheck)
    : check.counts ↔ check.passed ∧ ∀ subCheck ∈ check.subChecks, subCheck.passed := by
  rw [counts, Bool.and_eq_true, cPassed_iff, and_comm]

/-- A key check without a value passes exactly if the reply reports the key. -/
@[simp] theorem keyCheck_passed (reply : EmulatorReply) (key : Bytes)
    : (NWAChecker.keyCheck reply key none).passed
      = ((Answer.replied reply).report key).isSome := by
  cases reply with
  | ascii text => cases text <;> rfl
  | error error => rfl
  | binary data => rfl

/-- A key check with a value passes exactly if the reply reports the value. -/
@[simp] theorem keyCheck_matches (reply : EmulatorReply) (key value : Bytes)
    : (NWAChecker.keyCheck reply key (some value)).passed
      = decide ((Answer.replied reply).report key = some value) := by
  cases reply with
  | ascii text =>
      cases text with
      | hash map => exact decide_eq_decide.mpr .rfl
      | ok => rfl
      | listHash maps => rfl
  | error error => rfl
  | binary data => rfl

/-- Whether a reply is a map. -/
def EmulatorReply.isHash : EmulatorReply → Bool
  | .ascii (.hash _) => true
  | _ => false

/-- Only a map reports anything. -/
theorem hash_of_report {reply : EmulatorReply} {key value : Bytes}
    (reports : (Answer.replied reply).report key = some value)
    : ∃ map, reply = .ascii (.hash map) := by
  cases reply with
  | ascii text =>
      cases text with
      | ok => cases reports
      | hash map => exact ⟨map, rfl⟩
      | listHash maps => cases reports
  | error error => cases reports
  | binary data => cases reports

/-- Only a map reports anything. -/
theorem isHash_of_report {reply : EmulatorReply} {key value : Bytes}
    (reports : (Answer.replied reply).report key = some value)
    : reply.isHash = true := by
  obtain ⟨map, rfl⟩ := hash_of_report reports
  rfl

/-- Expecting a map decides the current check by it. -/
@[simp] theorem Judging.expectAsciiHash_apply (reply : EmulatorReply) (before : List NWACheck)
    (check : NWACheck)
    : Judging.expectAsciiHash reply ⟨before ++ [check]⟩
      = .ok (reply.isHash, ⟨before ++ [{ check with passed := reply.isHash }]⟩) :=
  Judging.expect_apply before check _

-----------------------------------------------------------------------------------------
-- The judgements
-----------------------------------------------------------------------------------------

/-- What `available_commands` is made of. -/
def Answer.commands (answer : Answer) : List Bytes :=
  ((answer.report (ascii "commands")).map (fun commands => commands.splitOn comma)).getD []

/-- EMULATOR_INFO counts exactly if its reply is accepted, and its commands are kept. -/
theorem judgeEmulatorInfo_settles (reply : EmulatorReply)
    : (judgeEmulatorInfo reply).Settles (Answer.replied reply).commands
        (Ask.emulatorInfo.Accepts (.replied reply)) := by
  intro before name description
  cases hash : reply.isHash with
  | false =>
      have silent (key : Bytes) : (Answer.replied reply).report key = none := by
        cases reports : (Answer.replied reply).report key with
        | none => rfl
        | some value => rw [isHash_of_report reports] at hash; cases hash
      simp [judgeEmulatorInfo, Except.bind, hash, silent, Answer.commands, Ask.Accepts,
        NWACheck.counts_iff]
  | true =>
      cases commands : (Answer.replied reply).report (ascii "commands") with
      | none =>
          simp [judgeEmulatorInfo, Except.bind, hash, commands, Answer.commands, Ask.Accepts,
            NWACheck.counts_iff]
      | some text =>
          simp [judgeEmulatorInfo, Except.bind, hash, commands, Answer.commands, Ask.Accepts,
            NWACheck.counts_iff, Except.map]

/-- EMULATION_STATUS counts exactly if its reply is accepted. -/
theorem judgeStatus_settles (reply : EmulatorReply)
    : (judgeStatus reply).Settles () (Ask.status.Accepts (.replied reply)) := by
  intro before name description
  cases state : (Answer.replied reply).report (ascii "state") with
  | none =>
      simp [judgeStatus, Except.bind, state, Ask.Accepts, NWACheck.counts_iff]
  | some text =>
      by_cases plays : text = ascii "running" ∨ text = ascii "paused" <;>
        simp [judgeStatus, Except.bind, Except.map, state, plays, Ask.Accepts, NWACheck.counts_iff,
          isHash_of_report state]

/-- CORE_INFO counts exactly if its reply is accepted. -/
theorem judgeCoreInfo_settles (core platform : Bytes) (reply : EmulatorReply)
    : (judgeCoreInfo core platform reply).Settles ()
        ((Ask.coreInfo core platform).Accepts (.replied reply)) := by
  intro before name description
  simp only [judgeCoreInfo, Judging.bind_apply, Judging.expectAsciiHash_apply, Except.bind,
    Judging.addKeyCheck_apply, Judging.pure_apply]
  refine ⟨_, rfl, ?_⟩
  have hash (accepted : (Ask.coreInfo core platform).Accepts (.replied reply)) :=
    isHash_of_report accepted.1
  rw [← and_iff_right_of_imp hash]
  simp [NWACheck.counts_iff, Ask.Accepts]

/-- MY_NAME_IS counts exactly if its reply is accepted. -/
theorem judgeMyName_settles (reply : EmulatorReply)
    : (judgeMyName reply).Settles () (Ask.myName.Accepts (.replied reply)) := by
  intro before name description
  simp only [judgeMyName, Judging.bind_apply, Judging.expectAsciiHash_apply, Except.bind,
    Judging.addKeyCheck_apply, Judging.pure_apply]
  refine ⟨_, rfl, ?_⟩
  simp only [NWACheck.counts_iff, List.nil_append, List.forall_mem_singleton, keyCheck_passed,
    Ask.Accepts, Option.isSome_iff_exists]
  exact and_iff_right_of_imp (fun ⟨_, reports⟩ => isHash_of_report reports)

/-- Expecting the empty reply counts exactly if it is one. -/
theorem expectAsciiOk_settles (reply : EmulatorReply)
    : ∃ passed,
        (Judging.expectAsciiOk reply).Settles passed
          (Answer.replied reply = .replied (.ascii .ok)) := by
  refine ⟨_, fun before name description => ⟨_, Judging.expect_apply before _ _, ?_⟩⟩
  cases reply with
  | ascii text => cases text <;> simp [NWACheck.counts_iff]
  | error error => simp [NWACheck.counts_iff]
  | binary data => simp [NWACheck.counts_iff]

/-- Expecting a block counts exactly if the reply is one of this size. -/
theorem expectBinaryBlock_settles (reply : EmulatorReply) (size : Nat)
    : ∃ passed,
        (Judging.expectBinaryBlock reply size).Settles passed
          (∃ data, Answer.replied reply = .replied (.binary data) ∧ data.length = size) := by
  refine ⟨_, fun before name description => ⟨_, Judging.expect_apply before _ _, ?_⟩⟩
  cases reply <;> simp [NWACheck.counts_iff]

/-- Expecting an error counts exactly if the reply refuses with this kind. -/
theorem expectError_settles (reply : EmulatorReply) (kind : NWAErrorKind)
    : ∃ passed,
        (Judging.expectError reply kind).Settles passed ((Answer.replied reply).Refuses kind) := by
  refine ⟨_, fun before name description => ⟨_, Judging.expect_apply before _ _, ?_⟩⟩
  cases reply with
  | ascii text => simp [NWACheck.counts_iff, Answer.Refuses]
  | error error =>
      obtain ⟨kind', reason⟩ := error
      simp [NWACheck.counts_iff, Answer.Refuses]
  | binary data => simp [NWACheck.counts_iff, Answer.Refuses]

/-- The platform behind the filter section. -/
theorem judgePlatform_settles {reply : EmulatorReply} (decoded : reply.Decoded) (platform : Bytes)
    : (judgePlatform reply platform).Settles
        (((Answer.replied reply).report (ascii "platform")).getD platform)
        ((Ask.coresListOf platform).Accepts (.replied reply)) := by
  intro before name description
  cases reply with
  | ascii text =>
      cases text with
      | ok => simp [judgePlatform, Answer.report, Ask.Accepts, NWACheck.counts_iff]
      | hash map =>
          simp [judgePlatform, Except.bind, Except.map, Answer.report, Ask.Accepts,
            NWACheck.counts_iff]
      | listHash maps => exact decoded.elim
  | error error => simp [judgePlatform, Answer.report, Ask.Accepts, NWACheck.counts_iff]
  | binary data => simp [judgePlatform, Answer.report, Ask.Accepts, NWACheck.counts_iff]

/-- The section about `CORES_LIST` begins its check itself. -/
theorem coresList_settles {reply : EmulatorReply} (decoded : reply.Decoded) (checks : List NWACheck)
    : ∃ check,
        coresList reply ⟨checks⟩
        = .ok (
          ⟨
            ((Answer.replied reply).report (ascii "platform")).getD noPlatform,
            (Answer.replied reply).report (ascii "name")
          ⟩,
          ⟨checks ++ [check]⟩
        )
        ∧ (check.counts ↔ Ask.coresList.Accepts (.replied reply)) := by
  cases reply with
  | ascii text =>
      cases text with
      | ok => simp [coresList, NWAChecker.newCheck, Answer.report, Ask.Accepts, NWACheck.counts_iff]
      | hash map =>
          simp [coresList, NWAChecker.newCheck, coresListHash_eq, recordChecked, Answer.report,
            Ask.Accepts, NWACheck.counts_iff]
      | listHash maps => exact decoded.elim
  | error error =>
      simp [coresList, NWAChecker.newCheck, Answer.report, Ask.Accepts, NWACheck.counts_iff]
  | binary data =>
      simp [coresList, NWAChecker.newCheck, Answer.report, Ask.Accepts, NWACheck.counts_iff]

/-- The three key checks of a record stand behind the ones before them. -/
@[simp] theorem Judging.judgeMemoryKeys_apply (reply : EmulatorReply) (before : List NWACheck)
    (check : NWACheck)
    : judgeMemoryKeys reply ⟨before ++ [check]⟩
      = .ok (
        (),
        ⟨before
          ++ [{
            check with
            subChecks := check.subChecks
              ++ [NWAChecker.keyCheck reply (ascii "name") none,
                NWAChecker.keyCheck reply (ascii "access") none,
                NWAChecker.keyCheck reply (ascii "size") none]
          }]⟩
      ) := by
  simp [judgeMemoryKeys, Except.bind, Except.map]

/-- A result that no check is about changes none. -/
@[simp] theorem Judging.lift_apply (result : Except Failure Value) (checker : NWAChecker)
    : (liftM result : Judging Value) checker = result.map (fun value => (value, checker)) := by
  cases result <;> rfl

/-- A number that was parsed fits into 32 bits. -/
theorem parseU32_fits {text : Bytes} {value : Nat} (parses : parseU32 text = some value)
    : value < 2 ^ 32 := by
  simp only [parseU32, Option.ite_none_right_eq_some, Option.some.injEq] at parses
  obtain ⟨⟨-, -, fits⟩, same⟩ := parses
  rwa [same] at fits

/-- A record that is taken, with a size that is a number. -/
theorem takeMemory_offers {map : StringMap} (access : accessible map)
    (number : ¬ (map.lookup (ascii "size")).any (fun size => (parseU32 size).isNone))
    : ∃ memory, takeMemory map ⟨noPlatform, 0⟩ = .ok memory ∧ map.Offers memory := by
  simp only [accessible, Option.isSome_iff_exists, decide_eq_true_eq, Option.any_eq_true] at access
  obtain ⟨⟨name, named⟩, writable⟩ := access
  cases size : map.lookup (ascii "size") with
  | none =>
      refine ⟨⟨name, 0⟩, by simp [takeMemory, named, size], named, writable, ?_, Nat.two_pow_pos 32⟩
      rw [size]
  | some text =>
      cases parses : parseU32 text with
      | none => simp [size, parses] at number
      | some value =>
          refine ⟨⟨name, value⟩, by simp [takeMemory, named, size, parses], named, writable, ?_,
            parseU32_fits parses⟩
          rw [size]
          exact parses

/-- A memory whose size is no number panics. -/
theorem judgeMemories_breaks {overflowChecks : Bool} {reply : EmulatorReply}
    (breaks : Ask.memories.breaks overflowChecks reply) (before : List NWACheck) (check : NWACheck)
    : judgeMemories reply ⟨before ++ [check]⟩ = .error .panics := by
  cases reply with
  | ascii text =>
      cases text with
      | ok => cases breaks
      | hash map =>
          simp only [Ask.breaks, Bool.and_eq_true, Option.any_eq_true, Option.isNone_iff_eq_none]
            at breaks
          obtain ⟨access, text, size, wrong⟩ := breaks
          simp [judgeMemories, Except.bind, access, takeMemory, size, wrong, Except.map]
      | listHash maps => cases breaks
  | error error => cases breaks
  | binary data => cases breaks

/-- Unless it panics, and the memory that is taken was offered. -/
theorem judgeMemories_settles {overflowChecks : Bool} {reply : EmulatorReply}
    (decoded : reply.Decoded) (goesOn : ¬ Ask.memories.breaks overflowChecks reply)
    : ∃ memory,
        (judgeMemories reply).Settles memory (Ask.memories.Accepts (.replied reply))
        ∧ (memory.name ≠ noPlatform
          → ∃ map : StringMap, reply = .ascii (.hash map) ∧ map.Offers memory) := by
  have none_ : (⟨noPlatform, 0⟩ : AvailableMemory).name ≠ noPlatform → False := (· rfl)
  cases reply with
  | ascii text =>
      cases text with
      | ok =>
          refine
            ⟨⟨noPlatform, 0⟩, fun before name description => ?_, fun some_ => (none_ some_).elim⟩
          simp [judgeMemories, Answer.report, Ask.Accepts, NWACheck.counts_iff]
      | hash map =>
          by_cases access : accessible map
          · have number
                : ¬ (map.lookup (ascii "size")).any (fun size => (parseU32 size).isNone) := by
              simpa [Ask.breaks, access] using goesOn
            obtain ⟨memory, takes, offers⟩ := takeMemory_offers access number
            refine ⟨memory, fun before name description => ?_, fun _ => ⟨map, rfl, offers⟩⟩
            simp [judgeMemories, Except.bind, access, takes, Except.map, Answer.report, Ask.Accepts,
              NWACheck.counts_iff]
          · refine ⟨⟨noPlatform, 0⟩, fun before name description => ?_,
              fun some_ => (none_ some_).elim⟩
            simp [judgeMemories, Except.bind, Except.map, access, Answer.report, Ask.Accepts,
              NWACheck.counts_iff]
      | listHash maps => exact decoded.elim
  | error error =>
      refine ⟨⟨noPlatform, 0⟩, fun before name description => ?_, fun some_ => (none_ some_).elim⟩
      simp [judgeMemories, Except.map, Answer.report, Ask.Accepts, NWACheck.counts_iff]
  | binary data =>
      refine ⟨⟨noPlatform, 0⟩, fun before name description => ?_, fun some_ => (none_ some_).elim⟩
      simp [judgeMemories, Answer.report, Ask.Accepts, NWACheck.counts_iff]

end NetworkAccess
