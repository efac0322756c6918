import NetworkAccess.Validator.Questions

/-! The sections of the validator. Each of them adds its question to the interview, and the checks
keep agreeing with the interview.
-/

namespace NetworkAccess

variable {Value Next : Type} {overflowChecks : Bool}

/-- Behind the first check there is one for each judged question of a history, which counts exactly
if the answer was accepted.
-/
def NWAChecker.Agrees (checker : NWAChecker) (first : NWACheck) (history : List Inquiry) : Prop :=
  ∃ checks,
    checker.allChecks = first :: checks
    ∧ List.Forall₂ (fun check inquiry => check.counts ↔ inquiry.Accepted) checks
      (history.filter Inquiry.judged)

/-- The validator goes on, and these inquiries are known to be in its interview. -/
structure Going (overflowChecks : Bool) (first : NWACheck) (known history : List Inquiry)
    (session : Session)
    : Prop where
  interview : Interview overflowChecks history
  goesOn : halts overflowChecks history = none
  agrees : session.checker.Agrees first history
  known : ∀ inquiry ∈ known, inquiry ∈ history

/-- The validator has ended behind an interview. -/
structure Ended (overflowChecks : Bool) (history : List Inquiry) (reason : Halt) : Prop where
  interview : Interview overflowChecks history
  halts : halts overflowChecks history = some reason

/-- Whether an interview ends the program depends on its last inquiry. -/
theorem halts_concat (history : List Inquiry) (inquiry : Inquiry)
    : halts overflowChecks (history ++ [inquiry]) = inquiry.halts overflowChecks := by
  simp [halts]

/-- One more check agrees with one more inquiry that it counts for. -/
theorem NWAChecker.Agrees.check {checker after : NWAChecker} {first : NWACheck}
    {history : List Inquiry} (agrees : checker.Agrees first history) {check : NWACheck}
    (checks : after.allChecks = checker.allChecks ++ [check]) {inquiry : Inquiry}
    (judged : inquiry.judged) (counts : check.counts ↔ inquiry.Accepted)
    : after.Agrees first (history ++ [inquiry]) := by
  obtain ⟨earlier, all, verdicts⟩ := agrees
  refine ⟨earlier ++ [check], by rw [checks, all, List.cons_append], ?_⟩
  rw [List.filter_append, List.filter_cons_of_pos judged, List.filter_nil]
  exact List.rel_append verdicts (.cons counts .nil)

/-- An inquiry that no check is about keeps the agreement. -/
theorem NWAChecker.Agrees.skip {checker : NWAChecker} {first : NWACheck} {history : List Inquiry}
    (agrees : checker.Agrees first history) {inquiry : Inquiry} (judged : inquiry.judged = false)
    : checker.Agrees first (history ++ [inquiry]) := by
  obtain ⟨checks, all, verdicts⟩ := agrees
  refine ⟨checks, all, ?_⟩
  rw [List.filter_append, List.filter_cons_of_neg (by simp [judged]), List.filter_nil,
    List.append_nil]
  exact verdicts

/-- What was told is told in every longer interview. -/
theorem Told.mono {known history : List Inquiry} {ask : Ask} {key value : Bytes}
    (told : Told known ask key value) (there : ∀ inquiry ∈ known, inquiry ∈ history)
    : Told history ask key value := by
  obtain ⟨answer, member, reports⟩ := told
  exact ⟨answer, there _ member, reports⟩

/-- What gives reason to ask goes on giving it. -/
theorem Ask.Justified.mono {known history : List Inquiry} {ask : Ask}
    (justified : ask.Justified known) (ordinary : ask.Ordinary)
    (there : ∀ inquiry ∈ known, inquiry ∈ history)
    : ask.Justified history := by
  have offered {memory : AvailableMemory} (offers : Offered known memory)
      : Offered history memory := by
    obtain ⟨map, member, record⟩ := offers
    exact ⟨map, there _ member, record⟩
  cases ask with
  | coresListOf platform => exact Told.mono justified there
  | coreInfo core platform =>
      obtain ⟨named, unknown | told | ⟨earlier, told⟩⟩ := justified
      · exact ⟨named.mono there, Or.inl unknown⟩
      · exact ⟨named.mono there, Or.inr (Or.inl (told.mono there))⟩
      · exact ⟨named.mono there, Or.inr (Or.inr ⟨earlier, told.mono there⟩)⟩
  | behindBlock reply => exact absurd rfl (ordinary reply)
  | memories =>
      obtain ⟨commands, told, lists⟩ := justified
      exact ⟨commands, told.mono there, lists⟩
  | read trial memory => exact offered justified
  | write trial memory => exact ⟨justified.1, offered justified.2⟩
  | _ => trivial

section Steps

variable {first : NWACheck} {known history : List Inquiry} {session after : Session}

/-- One more inquiry behind which the validator goes on. -/
theorem Going.concat (going : Going overflowChecks first known history session) {inquiry : Inquiry}
    (justified : inquiry.Justified history) (goesOn : inquiry.halts overflowChecks = none)
    (agrees : after.checker.Agrees first (history ++ [inquiry]))
    : Going overflowChecks first (inquiry :: known) (history ++ [inquiry]) after where
  interview := going.interview.concat going.goesOn justified
  goesOn := (halts_concat history inquiry).trans goesOn
  agrees := agrees
  known := by
    intro other member
    rcases List.mem_cons.mp member with rfl | member
    · exact List.mem_append_right _ List.mem_cons_self
    · exact List.mem_append_left _ (going.known other member)

/-- Less is known. -/
theorem Going.forget {more : List Inquiry} (going : Going overflowChecks first more history session)
    (fewer : ∀ inquiry ∈ known, inquiry ∈ more)
    : Going overflowChecks first known history session :=
  ⟨going.interview, going.goesOn, going.agrees, fun other member =>
    going.known other (fewer other member)⟩

/-- A question without a reply ends the validator. -/
theorem Interview.ended (interview : Interview overflowChecks history)
    (goesOn : NetworkAccess.halts overflowChecks history = none) {ask : Ask} {answer : Answer}
    {reason : Halt} (justified : ask.Justified history)
    (sent : ∀ error, answer = .unsent error → ask.block = none)
    (silent : ∀ reply, answer ≠ .replied reply)
    (halts : (Inquiry.asked ask answer).halts overflowChecks = some reason)
    : Ended overflowChecks (history ++ [.asked ask answer]) reason where
  interview := by
    refine interview.concat goesOn ⟨justified, ?_⟩
    cases answer with
    | unsent error => exact sent error rfl
    | replied reply => exact absurd rfl (silent reply)
    | failed failure => trivial
  halts := (halts_concat history _).trans halts

end Steps

/-- Programs of the validator, as they continue an interview. -/
abbrev Conducted (overflowChecks : Bool) (before : List Inquiry → Session → Prop)
    (program : Validator Value) (after : Value → List Inquiry → Session → Prop)
    : Prop :=
  Conducts Inquiry.calls (Ended overflowChecks) before program after

/-- A check has begun. -/
def Begun (overflowChecks : Bool) (first : NWACheck) (known : List Inquiry) (fresh : NWACheck)
    (history : List Inquiry) (session : Session)
    : Prop :=
  ∃ started,
    Going overflowChecks first known history started
    ∧ session.checker.allChecks = started.checker.allChecks ++ [fresh]

/-- A question that could be asked has its reply. -/
def Asked (before : List Inquiry → Session → Prop) (ask : Ask) (reply : EmulatorReply)
    (history : List Inquiry) (session : Session)
    : Prop :=
  ∃ earlier started,
    before earlier started
    ∧ history = earlier ++ [.asked ask (.replied reply)]
    ∧ ask.Justified earlier
    ∧ reply.Decoded
    ∧ session.checker = started.checker

section Questions

variable {first fresh : NWACheck} {known : List Inquiry} {ask : Ask}
  {asking : Validator EmulatorReply} {before : List Inquiry → Session → Prop}

/-- A question ends the validator, or has a reply. -/
theorem conducted_asking (ask : Ask)
    (asks : ∀ session, Validator.Questioned overflowChecks ask session (asking session))
    (reason
      : ∀ history session,
          before history session
          → (Interview overflowChecks history ∧ halts overflowChecks history = none)
            ∧ ask.Justified history)
    : Conducted overflowChecks before asking (Asked before ask) := by
  intro history session holds
  obtain ⟨⟨interview, goesOn⟩, justified⟩ := reason history session holds
  have questioned := asks session
  generalize asking session = reaction at questioned
  cases questioned with
  | replied reply after decoded checker =>
      exact ⟨history ++ [.asked ask (.replied reply)], by simp, history, session, holds, rfl,
        justified, decoded, checker⟩
  | stopped answer reason sent silent halts =>
      exact ⟨history ++ [.asked ask answer], by simp,
        interview.ended goesOn justified sent silent halts⟩

/-- A section begins with a new check. -/
theorem conducted_newCheck (name description : Bytes)
    : Conducted overflowChecks (Going overflowChecks first known)
        (Validator.judge (Judging.newCheck name description))
        (fun _ => Begun overflowChecks first known ⟨name, description, false, []⟩) := by
  refine .silent (fun history session going => ?_)
  exact ⟨(), _, rfl, session, going, rfl⟩

/-- The judgement of a reply behind which the validator goes on. -/
theorem conducted_judging {name description : Bytes} {reply : EmulatorReply} (judged : ask.judged)
    (goesOn : ask.breaks overflowChecks reply = false) {judging : Judging Value}
    {good : Value → Prop}
    (settles
      : reply.Decoded
        → ∃ value, judging.Settles value (ask.Accepts (.replied reply)) ∧ good value)
    : Conducted overflowChecks
        (Asked (Begun overflowChecks first known ⟨name, description, false, []⟩) ask reply)
        (Validator.judge judging)
        (fun value history session =>
          good value
          ∧ Going overflowChecks first (.asked ask (.replied reply) :: known) history session) := by
  refine .silent ?_
  rintro history session ⟨earlier, begun, ⟨started, going, all⟩, rfl, justified, decoded, same⟩
  obtain ⟨value, decides, known_⟩ := settles decoded
  obtain ⟨check, judges, counts⟩ := decides started.checker.allChecks name description
  rw [← all, ← same] at judges
  refine ⟨value, _, Validator.judge_ok judges, known_, going.concat ⟨justified, decoded⟩ ?_ ?_⟩
  · simp [Inquiry.halts, goesOn]
  · exact going.agrees.check rfl judged counts

/-- A section with one question. -/
theorem conducted_question (name description : Bytes)
    (asks : ∀ session, Validator.Questioned overflowChecks ask session (asking session))
    (ordinary : ask.Ordinary) (justified : ask.Justified known)
    (judged : ask.judged) (goesOn : ∀ reply, ask.breaks overflowChecks reply = false)
    {judging : EmulatorReply → Judging Value} {good : EmulatorReply → Value → Prop}
    (settles
      : ∀ reply,
          reply.Decoded
          → ∃ value,
              (judging reply).Settles value (ask.Accepts (.replied reply)) ∧ good reply value)
    : Conducted overflowChecks (Going overflowChecks first known)
        (do
          Validator.judge (Judging.newCheck name description)
          let reply ← asking
          Validator.judge (judging reply))
        (fun value history session =>
          ∃ reply,
            good reply value
            ∧ Going overflowChecks first (.asked ask (.replied reply) :: known) history
              session) := by
  refine (conducted_newCheck name description).bind (fun _ => ?_)
  refine (conducted_asking ask asks ?_).bind (fun reply => ?_)
  · rintro history session ⟨started, going, -⟩
    exact ⟨⟨going.interview, going.goesOn⟩, justified.mono ordinary going.known⟩
  · refine (conducted_judging judged (goesOn reply) (settles reply)).imp (fun _ _ => id) ?_
    intro value history session going
    exact ⟨reply, going⟩

/-- A section whose judgement is not looked at. -/
theorem conducted_check (name description : Bytes)
    (asks : ∀ session, Validator.Questioned overflowChecks ask session (asking session))
    (ordinary : ask.Ordinary) (justified : ask.Justified known)
    (judged : ask.judged) (goesOn : ∀ reply, ask.breaks overflowChecks reply = false)
    {judging : EmulatorReply → Judging Value}
    (settles
      : ∀ reply, ∃ value, (judging reply).Settles value (ask.Accepts (.replied reply)))
    : Conducted overflowChecks (Going overflowChecks first known)
        (do
          Validator.judge (Judging.newCheck name description)
          let reply ← asking
          let _ ← Validator.judge (judging reply))
        (fun _ => Going overflowChecks first known) := by
  have grouped
      : (do
          Validator.judge (Judging.newCheck name description)
          let reply ← asking
          let _ ← Validator.judge (judging reply))
        = (do
          Validator.judge (Judging.newCheck name description)
          let reply ← asking
          Validator.judge (judging reply)) >>= fun _ => pure () := by
    simp only [bind_assoc]
  rw [grouped]
  refine (conducted_question name description asks ordinary justified judged goesOn
    (fun reply _ => (settles reply).imp (fun _ decides => ⟨decides, trivial⟩))).bind
    (fun value => .pure ?_)
  rintro history session ⟨reply, -, going⟩
  exact going.forget (fun _ member => List.mem_cons_of_mem _ member)

/-- A section whose judgement returns nothing. -/
theorem conducted_unit (name description : Bytes)
    (asks : ∀ session, Validator.Questioned overflowChecks ask session (asking session))
    (ordinary : ask.Ordinary) (justified : ask.Justified known)
    (judged : ask.judged) (goesOn : ∀ reply, ask.breaks overflowChecks reply = false)
    {judging : EmulatorReply → Judging Unit}
    (settles : ∀ reply, (judging reply).Settles () (ask.Accepts (.replied reply)))
    : Conducted overflowChecks (Going overflowChecks first known)
        (do
          Validator.judge (Judging.newCheck name description)
          let reply ← asking
          Validator.judge (judging reply))
        (fun _ => Going overflowChecks first known) := by
  have settled (reply : EmulatorReply) (_ : reply.Decoded)
      : ∃ value, (judging reply).Settles value (ask.Accepts (.replied reply)) ∧ True :=
    ⟨(), settles reply, trivial⟩
  refine (conducted_question name description asks ordinary justified judged goesOn settled).imp
    (fun _ _ => id) ?_
  rintro - history session ⟨reply, -, going⟩
  exact going.forget (fun _ member => List.mem_cons_of_mem _ member)

end Questions

-----------------------------------------------------------------------------------------
-- The sections
-----------------------------------------------------------------------------------------

section Sections

variable {first : NWACheck} {known : List Inquiry}

/-- The section about EMULATOR_INFO goes on with the commands of its reply, or ends. -/
theorem checkEmulatorInfo_conducted
    : Conducted overflowChecks (Going overflowChecks first known) Validator.checkEmulatorInfo
        (fun available history session =>
          ∃ reply,
            available = (Answer.replied reply).commands
            ∧ Going overflowChecks first (.asked .emulatorInfo (.replied reply) :: known) history
              session) := by
  have ordinary : Ask.emulatorInfo.Ordinary := fun _ same => by cases same
  exact conducted_question _ _ (Validator.ask_questioned ordinary rfl rfl) ordinary trivial rfl
    (fun _ => rfl) (fun reply _ => ⟨_, judgeEmulatorInfo_settles reply, rfl⟩)

/-- The section about an invalid platform goes on with its interview, or ends with it. -/
theorem checkInvalidPlatform_conducted
    : Conducted overflowChecks (Going overflowChecks first known) Validator.checkInvalidPlatform
        (fun _ => Going overflowChecks first known) := by
  have ordinary : Ask.invalidPlatform.Ordinary := fun _ same => by cases same
  exact conducted_check _ _ (Validator.ask_questioned ordinary rfl rfl) ordinary trivial rfl
    (fun _ => rfl) expectAsciiOk_settles

/-- `CORES_LIST` begins its check with its judgement. -/
theorem checkCoresList_conducted
    : Conducted overflowChecks (Going overflowChecks first known) Validator.checkCoresList
        (fun available history session =>
          ∃ reply,
            available
              = ⟨
                ((Answer.replied reply).report (ascii "platform")).getD noPlatform,
                (Answer.replied reply).report (ascii "name")
              ⟩
            ∧ Going overflowChecks first (.asked .coresList (.replied reply) :: known) history
              session) := by
  have ordinary : Ask.coresList.Ordinary := fun _ same => by cases same
  refine (conducted_asking _ (Validator.ask_questioned ordinary rfl rfl) ?_).bind
    (fun reply => .silent ?_)
  · exact fun history session going => ⟨⟨going.interview, going.goesOn⟩, trivial⟩
  · rintro history session ⟨earlier, started, going, rfl, justified, decoded, same⟩
    obtain ⟨check, judges, counts⟩ := coresList_settles decoded session.checker.allChecks
    refine ⟨_, _, Validator.judge_ok judges, reply, rfl, going.concat ⟨justified, decoded⟩ rfl ?_⟩
    exact going.agrees.check (by rw [same]) rfl counts

/-- The section about the filter asks for a platform that was told, and goes on with that of the
reply.
-/
theorem checkCoresListFilter_conducted {platform : Bytes}
    (told : Told known .coresList (ascii "platform") platform)
    : Conducted overflowChecks (Going overflowChecks first known)
        (Validator.checkCoresListFilter platform)
        (fun later history session =>
          ∃ reply,
            later = ((Answer.replied reply).report (ascii "platform")).getD platform
            ∧ Going overflowChecks first (.asked (.coresListOf platform) (.replied reply) :: known)
              history session) := by
  have ordinary : (Ask.coresListOf platform).Ordinary := fun _ same => by cases same
  exact conducted_question _ _ (Validator.ask_questioned ordinary rfl rfl) ordinary told rfl
    (fun _ => rfl) (fun reply decoded => ⟨_, judgePlatform_settles decoded platform, rfl⟩)

/-- The section about EMULATION_STATUS goes on with its interview, or ends with it. -/
theorem checkStatus_conducted
    : Conducted overflowChecks (Going overflowChecks first known) Validator.checkStatus
        (fun _ => Going overflowChecks first known) := by
  have ordinary : Ask.status.Ordinary := fun _ same => by cases same
  exact conducted_unit _ _ (Validator.ask_questioned ordinary rfl rfl) ordinary trivial rfl
    (fun _ => rfl) judgeStatus_settles

/-- The section about CORE_INFO goes on with its interview, or ends with it. -/
theorem checkCoreInfo_conducted {core platform : Bytes}
    (justified : (Ask.coreInfo core platform).Justified known)
    : Conducted overflowChecks (Going overflowChecks first known)
        (Validator.checkCoreInfo core platform) (fun _ => Going overflowChecks first known) := by
  have ordinary : (Ask.coreInfo core platform).Ordinary := fun _ same => by cases same
  exact conducted_unit _ _ (Validator.ask_questioned ordinary rfl rfl) ordinary justified rfl
    (fun _ => rfl) (judgeCoreInfo_settles core platform)

/-- The section about an invalid core goes on with its interview, or ends with it. -/
theorem checkInvalidCore_conducted
    : Conducted overflowChecks (Going overflowChecks first known) Validator.checkInvalidCore
        (fun _ => Going overflowChecks first known) := by
  have ordinary : Ask.invalidCore.Ordinary := fun _ same => by cases same
  exact conducted_check _ _ (Validator.ask_questioned ordinary rfl rfl) ordinary trivial rfl
    (fun _ => rfl) (expectError_settles · .invalidArgument)

/-- The section about MY_NAME_IS goes on with its interview, or ends with it. -/
theorem checkMyName_conducted
    : Conducted overflowChecks (Going overflowChecks first known) Validator.checkMyName
        (fun _ => Going overflowChecks first known) := by
  have ordinary : Ask.myName.Ordinary := fun _ same => by cases same
  exact conducted_unit _ _ (Validator.ask_questioned ordinary rfl rfl) ordinary trivial rfl
    (fun _ => rfl) judgeMyName_settles

/-- `checkCoreRead`, for all parts of a memory but the one whose size may be below zero. -/
theorem checkCoreRead_conducted (trial : Trial) (name description : Bytes)
    {memory : AvailableMemory} (offered : Offered known memory) (inside : trial ≠ .behind)
    {expect : EmulatorReply → Judging Bool}
    (settles
      : ∀ reply,
          ∃ value, (expect reply).Settles value ((Ask.read trial memory).Accepts (.replied reply)))
    : Conducted overflowChecks (Going overflowChecks first known)
        (Validator.checkCoreRead name description (trial.argString memory) expect)
        (fun _ => Going overflowChecks first known) := by
  have ordinary : (Ask.read trial memory).Ordinary := fun _ same => by cases same
  refine conducted_check _ _ (Validator.ask_questioned ordinary rfl rfl) ordinary offered rfl
    (fun _ => ?_) settles
  cases trial with
  | behind => exact absurd rfl inside
  | _ => rfl

/-- A write to a memory that was offered goes on with its interview, or ends with it. -/
theorem checkCoreWrite_conducted (trial : Trial) (name description : Bytes)
    {memory : AvailableMemory} (offered : Offered known memory) (inside : trial ≠ .behind)
    {expect : EmulatorReply → Judging Bool}
    (settles
      : ∀ reply,
          ∃ value, (expect reply).Settles value ((Ask.write trial memory).Accepts (.replied reply)))
    : Conducted overflowChecks (Going overflowChecks first known)
        (Validator.checkCoreWrite name description (trial.argString memory) (trial.size memory)
          expect)
        (fun _ => Going overflowChecks first known) := by
  have ordinary : (Ask.write trial memory).Ordinary := fun _ same => by cases same
  have checks := @conducted_check _ overflowChecks first known (.write trial memory) _ name
    description (Validator.write_questioned trial memory) ordinary ⟨inside, offered⟩ rfl
    (fun _ => rfl) _ settles
  simpa only [Validator.checkCoreWrite, bind_assoc] using checks

end Sections
end NetworkAccess
