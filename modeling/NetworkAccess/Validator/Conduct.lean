import NetworkAccess.Validator.Sections

/-! The sections of the validator that may end it in other places than behind a question without a
reply, and `main` as a whole.
-/

namespace NetworkAccess

variable {overflowChecks : Bool} {first : NWACheck} {known : List Inquiry}

-----------------------------------------------------------------------------------------
-- The unexpected block
-----------------------------------------------------------------------------------------

/-- The block was answered, and the check about it is open for what comes behind. -/
def Unexpected (overflowChecks : Bool) (first : NWACheck) (known : List Inquiry)
    (reply : EmulatorReply) (history : List Inquiry) (session : Session)
    : Prop :=
  ∃ check,
    Begun overflowChecks first known check history session
    ∧ history.getLast? = some (.asked .unexpectedBlock (.replied reply))
    ∧ (check.counts ↔ (Answer.replied reply).Refuses .protocolError)

/-- With one more sub-check, a check counts exactly if it did and the new one passed. -/
theorem NWACheck.counts_addSubcheck (check : NWACheck) (name description : Bytes) (passed : Bool)
    : NWACheck.counts {
        check with
        subChecks := check.subChecks ++ [⟨name, description, passed, []⟩]
      }
      ↔ check.counts ∧ passed := by
  simp [NWACheck.counts_iff, or_imp, forall_and, and_assoc]

/-- The question behind the block closes the check. -/
theorem Unexpected.closes {reply : EmulatorReply} {history : List Inquiry} {session after : Session}
    (unexpected : Unexpected overflowChecks first known reply history session)
    (checker : after.checker = session.checker) (answer : Answer) (closed : Bool)
    (name description : Bytes) (aborted : closed ↔ answer.Aborted)
    (decoded : ∀ later, answer = .replied later → later.Decoded)
    (goesOn : (Inquiry.asked (.behindBlock reply) answer).halts overflowChecks = none)
    : ∃ last,
        Validator.judge (Judging.addSubcheck name description closed) after = .emit [] ((), last)
        ∧ Going overflowChecks first known (history ++ [.asked (.behindBlock reply) answer]) last
    := by
  obtain ⟨check, ⟨started, going, all⟩, ends, counts⟩ := unexpected
  have adds := Judging.addSubcheck_apply started.checker.allChecks check name description closed
  rw [← all, ← checker] at adds
  refine ⟨_, Validator.judge_ok adds, Going.forget (going.concat ⟨ends, ?_⟩ goesOn ?_)
    (fun _ member => List.mem_cons_of_mem _ member)⟩
  · cases answer with
    | unsent error => rfl
    | replied later => exact decoded later rfl
    | failed failure => trivial
  · refine going.agrees.check rfl rfl ?_
    rw [NWACheck.counts_addSubcheck, counts, aborted]
    exact .rfl

/-- The question behind the block has any answer, or ends the validator. -/
theorem closedBehind_runs (reply : EmulatorReply) (session : Session)
    : (∃ answer closed after,
        Validator.closedBehind session
          = .emit (Inquiry.asked (.behindBlock reply) answer).calls (closed, after)
        ∧ after.checker = session.checker
        ∧ (closed ↔ answer.Aborted)
        ∧ (∀ later, answer = .replied later → later.Decoded)
        ∧ (Inquiry.asked (.behindBlock reply) answer).halts overflowChecks = none)
      ∨ ∃ failure,
          (∀ error, failure ≠ .io error)
          ∧ Validator.closedBehind session
            = .stop (Inquiry.asked (.behindBlock reply) (.failed failure)).calls
              (.fails failure) := by
  obtain ⟨outcome, middle, checker, written⟩ :=
    Validator.write_runs (executeRawCommand (ascii "EMULATOR_INFO") none) session
  simp only [Validator.closedBehind, Validator.executeCommand, Validator.bind_apply, written,
    Reaction.emit_andThen]
  cases outcome with
  | some error =>
      exact Or.inl ⟨.unsent error, _, middle, rfl, checker, decide_eq_true_iff,
        (fun _ same => by cases same), rfl⟩
  | none =>
      dsimp only
      have received := Validator.getReply_received middle
      generalize Validator.getReply middle = reaction at received
      cases received with
      | replied later after decoded same =>
          refine Or.inl ⟨.replied later, false, _, rfl, same.trans checker, ?_, ?_, rfl⟩
          · exact iff_of_false (by decide) id
          · intro other eq
            cases eq
            exact decoded
      | failed error after same =>
          exact Or.inl ⟨.failed (.io error), _, after, rfl, same.trans checker, decide_eq_true_iff,
            (fun _ same => by cases same), rfl⟩
      | stopped failure final => exact Or.inr ⟨failure, final, rfl⟩

/-- The question behind the block, with the end of its check. -/
theorem behindBlock_conducted (reply : EmulatorReply) (name description : Bytes)
    : Conducted overflowChecks (Unexpected overflowChecks first known reply)
        (do
          let closed ← Validator.closedBehind
          Validator.judge (Judging.addSubcheck name description closed))
        (fun _ => Going overflowChecks first known) := by
  intro history session unexpected
  rcases @closedBehind_runs overflowChecks reply session with
    ⟨answer, closed, after, runs, checker, aborted, decoded, goesOn⟩ | ⟨failure, final, runs⟩
  · obtain ⟨last, closes, going⟩ :=
      unexpected.closes checker answer closed name description aborted decoded goesOn
    rw [Validator.bind_apply, runs, Reaction.emit_andThen, closes]
    exact ⟨history ++ [.asked (.behindBlock reply) answer], by simp, going⟩
  · obtain ⟨-, ⟨started, going, -⟩, ends, -⟩ := unexpected
    have justified : (Ask.behindBlock reply).Justified history := ends
    rw [Validator.bind_apply, runs, Reaction.stop_andThen]
    exact ⟨history ++ [.asked (.behindBlock reply) (.failed failure)], by simp,
      going.interview.ended going.goesOn justified (fun _ same => by cases same)
        (fun _ same => by cases same) (Validator.halts_stopped _ final)⟩

/-- The reply to the block is judged by the same check as what comes behind. -/
theorem expectUnexpected_conducted (name description : Bytes) (reply : EmulatorReply)
    : Conducted overflowChecks
        (Asked (Begun overflowChecks first known ⟨name, description, false, []⟩) .unexpectedBlock
          reply)
        (Validator.judge (Judging.expectError reply .protocolError))
        (fun _ => Unexpected overflowChecks first known reply) := by
  refine .silent ?_
  rintro history session ⟨earlier, begun, ⟨started, going, all⟩, rfl, justified, decoded, same⟩
  obtain ⟨value, decides⟩ := expectError_settles reply .protocolError
  obtain ⟨check, judges, counts⟩ := decides started.checker.allChecks name description
  rw [← all, ← same] at judges
  refine ⟨value, _, Validator.judge_ok judges, check, ⟨started, ?_, rfl⟩, by simp, counts⟩
  have goes
      : Going overflowChecks first (.asked .unexpectedBlock (.replied reply) :: known)
        (earlier ++ [.asked .unexpectedBlock (.replied reply)]) started :=
    going.concat ⟨justified, decoded⟩ rfl (going.agrees.skip rfl)
  exact goes.forget (fun _ member => List.mem_cons_of_mem _ member)

/-- The section about a block that comes unexpectedly goes on with its interview, or ends with it.
-/
theorem checkUnexpectedBlock_conducted
    : Conducted overflowChecks (Going overflowChecks first known) Validator.checkUnexpectedBlock
        (fun _ => Going overflowChecks first known) := by
  have grouped
      : Validator.checkUnexpectedBlock
        = (do
          Validator.judge (Judging.newCheck (ascii "Unexpected binary block")
            (ascii ("Test how the emulator react when giving a binary block when expecting a "
              ++ "command, we expect a protocol error and a closed connection")))
          let reply ← (do
            Validator.sendBlock [1, 2, 3]
            Validator.expectReply (← Validator.getReply))
          let _ ← Validator.judge (Judging.expectError reply .protocolError)
          let closed ← Validator.closedBehind
          Validator.judge (Judging.addSubcheck (ascii "The emulator closed the connection")
            (ascii "After a protocol error the emulator should close the connection") closed)) := by
    simp only [Validator.checkUnexpectedBlock, bind_assoc]
    rfl
  rw [grouped]
  refine (conducted_newCheck _ _).bind (fun _ => ?_)
  refine (conducted_asking _ Validator.unexpectedBlock_questioned ?_).bind (fun reply => ?_)
  · rintro history session ⟨started, going, -⟩
    exact ⟨⟨going.interview, going.goesOn⟩, trivial⟩
  · exact (expectUnexpected_conducted _ _ reply).bind (fun _ => behindBlock_conducted reply _ _)

-----------------------------------------------------------------------------------------
-- Requests without a check
-----------------------------------------------------------------------------------------

/-- Connecting again goes on with the interview, or ends with it. -/
theorem reconnected_conducted
    : Conducted overflowChecks (Going overflowChecks first known) Validator.reconnected
        (fun _ => Going overflowChecks first known) := by
  intro history session going
  have goes
      : Going overflowChecks first (.reconnected session.again.isSome :: known)
        (history ++ [.reconnected session.again.isSome])
        { session with socket := session.again.getD session.socket } :=
    going.concat trivial rfl (going.agrees.skip rfl)
  exact ⟨history ++ [.reconnected session.again.isSome],
    by simp [Inquiry.calls, Validator.reconnected],
    goes.forget (fun _ member => List.mem_cons_of_mem _ member)⟩

/-- A reply behind which the validator panics. -/
theorem Asked.ended {before : List Inquiry → Session → Prop} {ask : Ask} {reply : EmulatorReply}
    {history : List Inquiry} {session : Session} (asked : Asked before ask reply history session)
    (went
      : ∀ history session,
          before history session
          → Interview overflowChecks history ∧ halts overflowChecks history = none)
    (breaks : ask.breaks overflowChecks reply)
    : Ended overflowChecks history (.fails .panics) := by
  obtain ⟨earlier, started, holds, rfl, justified, decoded, -⟩ := asked
  obtain ⟨interview, goesOn⟩ := went earlier started holds
  refine ⟨interview.concat goesOn ⟨justified, decoded⟩, ?_⟩
  simp [halts_concat, Inquiry.halts, breaks]

/-- A reply to a question that no check is about goes on with the interview. -/
theorem Going.unjudged {history : List Inquiry} {session after : Session}
    (going : Going overflowChecks first known history session) {ask : Ask} {reply : EmulatorReply}
    (justified : ask.Justified history) (decoded : reply.Decoded) (judged : ask.judged = false)
    (goesOn : ask.breaks overflowChecks reply = false) (same : after.checker = session.checker)
    : Going overflowChecks first (.asked ask (.replied reply) :: known)
        (history ++ [.asked ask (.replied reply)]) after := by
  refine going.concat ⟨justified, decoded⟩ ?_ ?_
  · simp [Inquiry.halts, goesOn]
  · rw [same]
    exact going.agrees.skip judged

/-- Telling the name again goes on with the interview, or ends with it. -/
theorem askName_conducted
    : Conducted overflowChecks (Going overflowChecks first known)
        (Validator.ask (ascii "MY_NAME_IS") (some (ascii "NWA validator")))
        (fun _ => Going overflowChecks first known) := by
  have ordinary : Ask.myNameAgain.Ordinary := fun _ same => by cases same
  refine (conducted_asking _ (Validator.ask_questioned ordinary rfl rfl) ?_).imp (fun _ _ => id) ?_
  · exact fun history session going => ⟨⟨going.interview, going.goesOn⟩, trivial⟩
  · rintro reply history session ⟨earlier, started, going, rfl, justified, decoded, same⟩
    exact (going.unjudged justified decoded rfl rfl same).forget
      (fun _ member => List.mem_cons_of_mem _ member)

/-- The state is missing, and the validator panics, or it goes on. -/
theorem readState_conducted
    : Conducted overflowChecks (Going overflowChecks first known) Validator.readState
        (fun _ => Going overflowChecks first known) := by
  have ordinary : Ask.statusAgain.Ordinary := fun _ same => by cases same
  refine (conducted_asking _ (Validator.ask_questioned ordinary rfl rfl) ?_).bind (fun reply => ?_)
  · exact fun history session going => ⟨⟨going.interview, going.goesOn⟩, trivial⟩
  · refine .quiet ?_
    rintro history session asked
    have ends (breaks : Ask.statusAgain.breaks overflowChecks reply) :=
      asked.ended (fun _ _ going => ⟨going.interview, going.goesOn⟩) breaks
    obtain ⟨earlier, started, going, rfl, justified, decoded, same⟩ := asked
    have goes (goesOn : Ask.statusAgain.breaks overflowChecks reply = false) :=
      (going.unjudged justified decoded rfl goesOn same).forget
        (fun _ member => List.mem_cons_of_mem _ member)
    cases reply with
    | ascii text =>
        cases text with
        | ok => exact Or.inl ⟨_, _, rfl, goes rfl⟩
        | hash map =>
            cases state : map.lookup (ascii "state") with
            | none =>
                refine Or.inr ⟨_, ?_, ends (by simp [Ask.breaks, state])⟩
                simp [state, Validator.panic, Validator.halt]
            | some text =>
                refine Or.inl ⟨text, session, ?_, goes (by simp [Ask.breaks, state])⟩
                simp [state]
        | listHash maps => exact decoded.elim
    | error error => exact Or.inl ⟨_, _, rfl, goes rfl⟩
    | binary data => exact Or.inl ⟨_, _, rfl, goes rfl⟩

-----------------------------------------------------------------------------------------
-- Memories
-----------------------------------------------------------------------------------------

/-- The memory that is tested was offered. -/
theorem checkMemories_conducted (justified : Ask.memories.Justified known)
    : Conducted overflowChecks (Going overflowChecks first known) Validator.checkMemories
        (fun memory history session =>
          ∃ more,
            (memory.name ≠ noPlatform → Offered more memory)
            ∧ Going overflowChecks first more history session) := by
  have ordinary : Ask.memories.Ordinary := fun _ same => by cases same
  refine (conducted_newCheck _ _).bind (fun _ => ?_)
  refine (conducted_asking _ (Validator.ask_questioned ordinary rfl rfl) ?_).bind (fun reply => ?_)
  · rintro history session ⟨started, going, -⟩
    exact ⟨⟨going.interview, going.goesOn⟩, justified.mono ordinary going.known⟩
  · cases breaks : Ask.memories.breaks overflowChecks reply with
    | true =>
        refine .quiet ?_
        rintro history session asked
        refine Or.inr
          ⟨_, ?_, asked.ended (fun _ _ ⟨_, going, _⟩ => ⟨going.interview, going.goesOn⟩) breaks⟩
        obtain ⟨earlier, begun, ⟨started, going, all⟩, rfl, -, -, same⟩ := asked
        have panics := judgeMemories_breaks breaks started.checker.allChecks
          ⟨ascii "Checking CORE_MEMORIES command",
            ascii "Checking if CORE_MEMORIES behave correctly", false, []⟩
        rw [← all, ← same] at panics
        rw [Validator.judge, panics]
    | false =>
        refine (conducted_judging rfl breaks (fun decoded =>
          judgeMemories_settles decoded (by rw [breaks]; decide))).imp (fun _ _ => id) ?_
        rintro memory history session ⟨offers, going⟩
        refine ⟨_, fun some_ => ?_, going⟩
        obtain ⟨map, rfl, record⟩ := offers some_
        exact ⟨map, List.mem_cons_self, record⟩

/-- Where a subtraction stays above zero, it is a subtraction of numbers. -/
theorem wrapped_of_le {left right : Nat} (inside : right ≤ left) (fits : left < 2 ^ 32)
    : wrapped left right = left - right := by
  rw [wrapped]
  omega

/-- A subtraction below zero panics where overflow is checked, and wraps where it is not. -/
theorem subtract_runs {left right : Nat} (fits : left < 2 ^ 32) (_ : right ≤ 2 ^ 32)
    (session : Session)
    : Validator.subtract overflowChecks left right session
      = if overflowChecks && decide (left < right) then
          .stop [] (.fails .panics)
        else
          .emit [] (wrapped left right, session) := by
  by_cases inside : right ≤ left
  · simp [Validator.subtract, inside, wrapped_of_le inside fits, Nat.not_lt.mpr inside]
  · have below : wrapped left right = left + 2 ^ 32 - right := by
      rw [wrapped]
      omega
    cases overflowChecks <;>
      simp [Validator.subtract, inside, below, Nat.not_le.mp inside, Validator.panic,
        Validator.halt]

/-- Overflow is not checked, or the memory has 20 bytes at least. -/
def Subtractable (overflowChecks : Bool) (memory : AvailableMemory) : Prop :=
  overflowChecks = true → 20 ≤ memory.size

/-- A subtraction that does not go below zero, where that matters, goes on with its value. -/
theorem subtract_conducted {before : List Inquiry → Session → Prop} {left right : Nat}
    (fits : left < 2 ^ 32) (_ : right ≤ 2 ^ 32) (inside : overflowChecks = true → right ≤ left)
    : Conducted overflowChecks before (Validator.subtract overflowChecks left right)
        (fun value history session => value = wrapped left right ∧ before history session) := by
  refine .silent (fun history session holds => ⟨wrapped left right, session, ?_, rfl, holds⟩)
  rw [subtract_runs fits ‹_›, if_neg]
  simpa using inside

/-- The read behind an offset goes on only if the size of the memory could be subtracted from. -/
theorem checkReadBehind_conducted {memory : AvailableMemory} (offered : Offered known memory)
    : Conducted overflowChecks (Going overflowChecks first known)
        (Validator.checkReadBehind overflowChecks memory)
        (fun _ history session =>
          Subtractable overflowChecks memory
          ∧ Going overflowChecks first known history session) := by
  have ordinary : (Ask.read .behind memory).Ordinary := fun _ same => by cases same
  have justified : (Ask.read .behind memory).Justified known := offered
  refine (conducted_newCheck _ _).bind (fun _ => ?_)
  refine (conducted_asking (.read .behind memory)
    (Validator.ask_questioned ordinary rfl rfl) ?_).bind (fun reply => ?_)
  · rintro history session ⟨started, going, -⟩
    exact ⟨⟨going.interview, going.goesOn⟩, justified.mono ordinary going.known⟩
  · by_cases breaks : (overflowChecks && decide (memory.size < 20)) = true
    · refine .quiet (fun history session asked => Or.inr ⟨.fails .panics, ?_, ?_⟩)
      · rw [Validator.bind_apply, subtract_runs offered.fits (by decide), if_pos breaks,
          Reaction.stop_andThen]
      · exact asked.ended (fun _ _ ⟨_, going, _⟩ => ⟨going.interview, going.goesOn⟩) breaks
    · have inside : Subtractable overflowChecks memory := by simpa [Subtractable] using breaks
      refine (subtract_conducted offered.fits (by decide) inside).bind
        (fun size => .given (fun same => ?_))
      have goesOn : (Ask.read .behind memory).breaks overflowChecks reply = false :=
        Bool.eq_false_iff.mpr breaks
      have settled (_ : reply.Decoded)
          : ∃ value,
              (Judging.expectBinaryBlock reply (wrapped memory.size 20)).Settles value
                ((Ask.read .behind memory).Accepts (.replied reply))
              ∧ True :=
        (expectBinaryBlock_settles reply _).imp (fun _ settles => ⟨settles, trivial⟩)
      rw [same]
      refine (conducted_judging rfl goesOn settled).bind (fun _ => .pure ?_)
      rintro history session ⟨-, going⟩
      exact ⟨inside, going.forget (fun _ member => List.mem_cons_of_mem _ member)⟩

/-- The reads of a memory that was offered go on only if its size could be subtracted from. -/
theorem checkReads_conducted {memory : AvailableMemory} (offered : Offered known memory)
    : Conducted overflowChecks (Going overflowChecks first known)
        (Validator.checkReads overflowChecks memory)
        (fun _ history session =>
          Subtractable overflowChecks memory
          ∧ Going overflowChecks first known history session) := by
  refine (checkCoreRead_conducted .first _ _ offered (by decide)
    (expectBinaryBlock_settles · 5)).bind (fun _ => ?_)
  refine (checkCoreRead_conducted .hexadecimal _ _ offered (by decide)
    (expectBinaryBlock_settles · 5)).bind (fun _ => ?_)
  refine (checkCoreRead_conducted .whole _ _ offered (by decide)
    (expectBinaryBlock_settles · memory.size)).bind (fun _ => ?_)
  refine (checkReadBehind_conducted offered).bind (fun _ => .given (fun inside => ?_))
  refine (checkCoreRead_conducted .several _ _ offered (by decide)
    (expectBinaryBlock_settles · 10)).bind (fun _ => ?_)
  refine (subtract_conducted offered.fits (by decide) (fun checks => ?_)).bind
    (fun last => .given (fun same => ?_))
  · exact le_trans (by decide) (inside checks)
  · rw [same]
    refine (checkCoreRead_conducted .unfinished _ _ offered (by decide)
      (expectError_settles · .invalidArgument)).imp (fun _ _ => id) ?_
    exact fun _ _ _ going => ⟨inside, going⟩

/-- The writes to a memory that was offered go on with the interview, or end with it. -/
theorem checkWrites_conducted {memory : AvailableMemory} (offered : Offered known memory)
    (inside : Subtractable overflowChecks memory)
    : Conducted overflowChecks (Going overflowChecks first known)
        (Validator.checkWrites overflowChecks memory)
        (fun _ => Going overflowChecks first known) := by
  have accepted := expectAsciiOk_settles
  refine (checkCoreWrite_conducted .first _ _ offered (by decide) accepted).bind (fun _ => ?_)
  refine (checkCoreWrite_conducted .hexadecimal _ _ offered (by decide) accepted).bind
    (fun _ => ?_)
  refine (checkCoreWrite_conducted .whole _ _ offered (by decide) accepted).bind (fun _ => ?_)
  refine (checkCoreWrite_conducted .several _ _ offered (by decide) accepted).bind (fun _ => ?_)
  refine (subtract_conducted offered.fits (by decide) (fun checks => ?_)).bind
    (fun last => .given ?_)
  · exact le_trans (by decide) (inside checks)
  · intro same
    rw [same]
    exact checkCoreWrite_conducted .unfinished _ _ offered (by decide)
      (expectError_settles · .invalidArgument)

-----------------------------------------------------------------------------------------
-- The program
-----------------------------------------------------------------------------------------

/-- The platform is one that was reported, or none was. -/
def PlatformKnown (known : List Inquiry) (platform : Bytes) : Prop :=
  platform = noPlatform
  ∨ Told known .coresList (ascii "platform") platform
  ∨ ∃ earlier, Told known (.coresListOf earlier) (ascii "platform") platform

/-- What the last answer reports has been told. -/
theorem told_of_report {ask : Ask} {reply : EmulatorReply} {key value : Bytes}
    (reports : (Answer.replied reply).report key = some value)
    : Told (.asked ask (.replied reply) :: known) ask key value :=
  ⟨.replied reply, List.mem_cons_self, reports⟩

/-- What `CORES_LIST` has reported, with a platform or without. -/
theorem checkKnownPlatform_conducted {reply : EmulatorReply} {platform : Bytes}
    (reported
      : platform = ((Answer.replied reply).report (ascii "platform")).getD noPlatform)
    : Conducted overflowChecks
        (Going overflowChecks first (.asked .coresList (.replied reply) :: known))
        (Validator.checkKnownPlatform platform)
        (fun later history session =>
          ∃ more,
            ((∀ inquiry ∈ .asked .coresList (.replied reply) :: known, inquiry ∈ more)
              ∧ PlatformKnown more later)
            ∧ Going overflowChecks first more history session) := by
  rw [Validator.checkKnownPlatform]
  by_cases none_ : platform = noPlatform
  · rw [if_neg (not_not.mpr none_)]
    exact .pure (fun history session going => ⟨_, ⟨fun _ => id, Or.inl none_⟩, going⟩)
  · rw [if_pos none_]
    cases reports : (Answer.replied reply).report (ascii "platform") with
    | none =>
        rw [reports] at reported
        exact absurd reported none_
    | some found =>
        rw [reports, Option.getD_some] at reported
        rw [← reported] at reports
        have told : Told (.asked .coresList (.replied reply) :: known) .coresList
            (ascii "platform") platform :=
          told_of_report reports
        refine (checkCoresListFilter_conducted told).imp (fun _ _ => id) ?_
        rintro later history session ⟨filtered, is, going⟩
        refine ⟨_, ⟨fun _ member => List.mem_cons_of_mem _ member, Or.inr ?_⟩, going⟩
        cases again : (Answer.replied filtered).report (ascii "platform") with
        | none =>
            rw [again, Option.getD_none] at is
            rw [is]
            exact Or.inl (told.mono (fun _ member => List.mem_cons_of_mem _ member))
        | some other =>
            rw [again, Option.getD_some] at is
            rw [is]
            exact Or.inr ⟨platform, told_of_report again⟩

/-- The sections about memories go on with the interview, whether or not the command is known. -/
theorem checkKnownMemories_conducted {commands : List Bytes}
    (lists
      : commands.contains (ascii "CORE_MEMORIES") → Ask.memories.Justified known)
    : Conducted overflowChecks (Going overflowChecks first known)
        (Validator.checkKnownMemories overflowChecks commands)
        (fun _ history session => ∃ more, Going overflowChecks first more history session) := by
  rw [Validator.checkKnownMemories]
  split
  case isFalse => exact .pure (fun history session going => ⟨known, going⟩)
  case isTrue listed =>
    refine (checkMemories_conducted (lists listed)).bind
      (fun memory => .choose (fun more => .given (fun offers => ?_)))
    rw [Validator.checkMemory]
    split
    case isFalse => exact .pure (fun history session going => ⟨more, going⟩)
    case isTrue some_ =>
      refine (checkReads_conducted (offers some_)).bind (fun _ => .given (fun inside => ?_))
      refine (checkWrites_conducted (offers some_) inside).imp (fun _ _ => id) ?_
      exact fun _ _ _ going => ⟨more, going⟩

/-- `main` behind its first check. -/
theorem checks_conducted
    : Conducted overflowChecks (Going overflowChecks first known)
        (Validator.checks overflowChecks)
        (fun _ history session => ∃ more, Going overflowChecks first more history session) := by
  refine checkEmulatorInfo_conducted.bind
    (fun commands => .choose (fun info => .given (fun commandsAre => ?_)))
  refine checkCoresList_conducted.bind
    (fun available => .choose (fun cores => .given (fun availableIs => ?_)))
  have reported
      : available.platform
        = ((Answer.replied cores).report (ascii "platform")).getD noPlatform := by
    rw [availableIs]
  refine (checkKnownPlatform_conducted reported).bind
    (fun platform => .choose (fun more => .given (fun known_ => ?_)))
  obtain ⟨there, platformKnown⟩ := known_
  refine checkInvalidPlatform_conducted.bind (fun _ => ?_)
  refine checkStatus_conducted.bind (fun _ => ?_)
  have coreInfo
      : Conducted overflowChecks (Going overflowChecks first more)
        (Validator.checkKnownCore available.core platform)
        (fun _ => Going overflowChecks first more) := by
    have named : available.core = (Answer.replied cores).report (ascii "name") := by
      rw [availableIs]
    cases core : available.core with
    | none => exact .pure (fun _ _ => id)
    | some name =>
        rw [core] at named
        have told : Told more .coresList (ascii "name") name :=
          ⟨.replied cores, there _ List.mem_cons_self, named.symm⟩
        exact checkCoreInfo_conducted ⟨told, platformKnown⟩
  refine coreInfo.bind (fun _ => ?_)
  refine checkInvalidCore_conducted.bind (fun _ => ?_)
  refine checkMyName_conducted.bind (fun _ => ?_)
  refine checkUnexpectedBlock_conducted.bind (fun _ => ?_)
  refine reconnected_conducted.bind (fun _ => ?_)
  refine askName_conducted.bind (fun _ => ?_)
  refine readState_conducted.bind (fun _ => ?_)
  refine checkKnownMemories_conducted (fun listed => ?_)
  cases reports : (Answer.replied info).report (ascii "commands") with
  | none =>
      rw [commandsAre, Answer.commands, reports] at listed
      cases listed
  | some text =>
      have told : Told more .emulatorInfo (ascii "commands") text :=
        ⟨.replied info, there _ (List.mem_cons_of_mem _ List.mem_cons_self), reports⟩
      rw [commandsAre, Answer.commands, reports] at listed
      exact ⟨text, told, List.contains_iff_mem.mp listed⟩

end NetworkAccess
