import NetworkAccess.Validator.Conduct

/-! The validator as a whole, on any network: it asks one question at a time, of which the emulator
has given it reason to ask each, it ends early in known places only, and its report is right about
the answers that it got.
-/

namespace NetworkAccess

open Numerals

variable {overflowChecks : Bool}

-----------------------------------------------------------------------------------------
-- Whole runs
-----------------------------------------------------------------------------------------

/-- Connecting either stops the program or goes on with the socket that was opened. -/
theorem Network.connect_cases (network : Network)
    : (∃ reason, network.connect = .stop [] reason)
      ∨ ∃ socket, network.connect = .emit [] (network.opened network.localhost.isSome socket) := by
  rw [Network.connect]
  split
  case h_1 => exact Or.inl ⟨_, rfl⟩
  case h_2 => exact Or.inl ⟨_, rfl⟩
  case h_3 others =>
    cases localhost : network.localhost with
    | some socket => exact Or.inr ⟨socket, rfl⟩
    | none =>
        dsimp only
        split
        case isTrue =>
          cases explicit : network.explicit with
          | some socket => exact Or.inr ⟨socket, rfl⟩
          | none => exact Or.inl ⟨_, rfl⟩
        case isFalse => exact Or.inl ⟨_, rfl⟩

/-- What is known of a run behind its interview. -/
def RunEnds (overflowChecks : Bool) (network : Network) (history : List Inquiry)
    : Except Halt Report → Prop
  | .ok report =>
      (∀ reason, network.connect.result ≠ .error reason)
      ∧ halts overflowChecks history = none
      ∧ ∃ first checker,
          NWAChecker.Agrees checker first history
          ∧ (first.counts ↔ network.localhost.isSome)
          ∧ report = checker.repport
  | .error reason =>
      (∀ other, network.connect.result ≠ .error other) ∧ halts overflowChecks history = some reason
      ∨ network.connect.result = .error reason ∧ history = []

/-- What the program sends and receives is an interview, and the program ends as its history makes
it end.
-/
theorem validatorMain_ends (overflowChecks : Bool) (network : Network)
    : ∃ history,
        (validatorMain overflowChecks network).emitted = history.flatMap Inquiry.calls
        ∧ Interview overflowChecks history
        ∧ RunEnds overflowChecks network history (validatorMain overflowChecks network).result := by
  rcases network.connect_cases with ⟨reason, connects⟩ | ⟨socket, connects⟩
  · refine ⟨[], ?_, .nil, ?_⟩
    · simp [validatorMain, connects]
    · simp [validatorMain, connects, RunEnds]
  · have connected : ∀ reason, network.connect.result ≠ .error reason := by
      rw [connects]
      exact fun _ same => by cases same
    have start
        : Going overflowChecks (localhostCheck network.localhost.isSome) [] []
          (network.opened network.localhost.isSome socket) :=
      ⟨.nil, rfl, ⟨[], rfl, .nil⟩, List.forall_mem_nil _⟩
    obtain ⟨history, emitted, ends⟩ := checks_conducted.run start
    generalize network.opened network.localhost.isSome socket = opened at connects emitted ends
    refine ⟨history, ?_⟩
    rcases (Validator.checks overflowChecks opened).cases_eq with
      ⟨outputs, ⟨value, last⟩, eq⟩ | ⟨outputs, reason, eq⟩
    · rw [eq] at emitted ends
      obtain ⟨known, going⟩ := ends
      have runs : validatorMain overflowChecks network = .emit outputs last.checker.repport := by
        simp [validatorMain, connects, eq]
      rw [runs]
      refine ⟨emitted, going.interview, connected, going.goesOn, _, _, going.agrees, ?_, rfl⟩
      simp [localhostCheck, NWACheck.counts_iff]
    · rw [eq] at emitted ends
      have runs : validatorMain overflowChecks network = .stop outputs reason := by
        simp [validatorMain, connects, eq]
      rw [runs]
      exact ⟨emitted, ends.interview, Or.inl ⟨connected, ends.halts⟩⟩

/-- The report counts every check of the checker. -/
theorem NWAChecker.repport_totalCheck (checker : NWAChecker)
    : checker.repport.totalCheck = checker.allChecks.length := by
  simp only [repport, Report.foldl_add]

/-- Checks that are right about their answers pass together if all answers are right. -/
theorem forall_counts_iff {checks : List NWACheck} {rights : List Prop}
    (agree : List.Forall₂ (fun check right => check.counts ↔ right) checks rights)
    : (∀ check ∈ checks, check.counts) ↔ ∀ right ∈ rights, right := by
  induction agree with
  | nil => simp
  | cons here _ ih => rw [List.forall_mem_cons, List.forall_mem_cons, here, ih]

-----------------------------------------------------------------------------------------
-- Questions
-----------------------------------------------------------------------------------------

/-- A request on one line. -/
def OneLine (line : Bytes) : Prop := ∃ body, line = body ++ [newline] ∧ newline ∉ body

/-- Every reply of an interview was decoded from bytes. By induction on the interview. -/
theorem Interview.decoded {history : List Inquiry} (interview : Interview overflowChecks history)
    {ask : Ask} {reply : EmulatorReply} (member : .asked ask (.replied reply) ∈ history)
    : reply.Decoded := by
  induction interview with
  | nil => cases member
  | concat interview goesOn justified ih =>
      rcases List.mem_append.mp member with earlier | last
      · exact ih earlier
      · cases List.mem_singleton.mp last
        exact justified.2

/-- What was reported is on one line. -/
theorem Told.singleLine {history : List Inquiry} {ask : Ask} {key value : Bytes}
    (told : Told history ask key value) (interview : Interview overflowChecks history)
    : newline ∉ value := by
  obtain ⟨answer, member, reports⟩ := told
  cases answer with
  | unsent error => cases reports
  | failed failure => cases reports
  | replied reply =>
      obtain ⟨map, rfl⟩ := hash_of_report reports
      exact interview.decoded member key value reports

/-- A memory that the emulator offered has a name without newlines. -/
theorem Offered.singleLine {history : List Inquiry} {memory : AvailableMemory}
    (offered : Offered history memory) (interview : Interview overflowChecks history)
    : newline ∉ memory.name := by
  obtain ⟨map, member, record⟩ := offered
  exact interview.decoded member _ _ record.name

/-- A decimal number has no newline. -/
theorem newline_notMem_decimal (value : Nat) : newline ∉ decimal value := by
  intro member
  have digit := decimal_digits value newline member
  rw [IsDigit] at digit
  exact absurd digit (by decide)

/-- The arguments of a trial have no newline if the name of its memory has none. -/
theorem Trial.argString_singleLine {memory : AvailableMemory} (open_ : newline ∉ memory.name)
    (trial : Trial)
    : newline ∉ trial.argString memory := by
  have ends : newline ∉ ascii ";0;5" ∧ newline ∉ ascii ";$0;$5" ∧ newline ∉ ascii ";20"
      ∧ newline ∉ ascii ";8;5;25;4;30;1" ∧ newline ∉ ascii ";20;2;" := by decide
  obtain ⟨first, hexadecimal, behind, several, unfinished⟩ := ends
  cases trial with
  | first => exact List.not_mem_append open_ first
  | hexadecimal => exact List.not_mem_append open_ hexadecimal
  | whole => exact open_
  | behind => exact List.not_mem_append open_ behind
  | several => exact List.not_mem_append open_ several
  | unfinished =>
      exact List.not_mem_append (List.not_mem_append open_ unfinished) (newline_notMem_decimal _)

/-- A command whose name and arguments have no newline is sent as one line. -/
theorem executeRawCommand_oneLine {cmd : Bytes} (name : newline ∉ cmd) {argString : Option Bytes}
    (args : ∀ text, argString = some text → newline ∉ text)
    : OneLine (executeRawCommand cmd argString) := by
  cases argString with
  | none => exact ⟨cmd, rfl, name⟩
  | some text =>
      refine ⟨cmd ++ space :: text, rfl, List.not_mem_append name ?_⟩
      exact List.not_mem_cons_of_ne_of_not_mem (by decide) (args text rfl)

/-- A question that there is reason to ask is one line, whatever names were reported. -/
theorem Ask.Justified.oneLine {history : List Inquiry} {ask : Ask}
    (justified : ask.Justified history) (interview : Interview overflowChecks history)
    {line : Bytes} (writes : ask.line = some line)
    : OneLine line := by
  have plain {cmd : Bytes} (name : newline ∉ cmd) : OneLine (executeRawCommand cmd none) :=
    executeRawCommand_oneLine name (fun _ same => by cases same)
  have argument {cmd text : Bytes} (name : newline ∉ cmd) (open_ : newline ∉ text)
      : OneLine (executeRawCommand cmd (some text)) :=
    executeRawCommand_oneLine name (fun _ same => Option.some.inj same ▸ open_)
  cases ask with
  | unexpectedBlock => cases writes
  | coresListOf platform =>
      cases writes
      exact argument (by decide) (justified.singleLine interview)
  | coreInfo core platform =>
      cases writes
      exact argument (by decide) (justified.1.singleLine interview)
  | read trial memory =>
      cases writes
      exact argument (by decide) (trial.argString_singleLine (justified.singleLine interview))
  | write trial memory =>
      cases writes
      exact argument (by decide) (trial.argString_singleLine (justified.2.singleLine interview))
  | _ =>
      cases writes
      exact plain (by decide)

/-- Every question of an interview is justified by the part of the interview before it. -/
theorem Interview.justified {history : List Inquiry} (interview : Interview overflowChecks history)
    {ask : Ask} {answer : Answer} (member : .asked ask answer ∈ history)
    : ∃ before after,
        history = before ++ .asked ask answer :: after
        ∧ Interview overflowChecks before
        ∧ ask.Justified before := by
  induction interview with
  | nil => cases member
  | concat interview goesOn justified ih =>
      rename_i earlier last
      rcases List.mem_append.mp member with there | here
      · obtain ⟨before, after, rfl, first, reasons⟩ := ih there
        exact ⟨before, after ++ [last], by simp, first, reasons⟩
      · cases List.mem_singleton.mp here
        exact ⟨earlier, [], by simp, interview, justified.1⟩

/-- The size of a block that there is reason to send can be written. -/
theorem Ask.Justified.blockFits {history : List Inquiry} {ask : Ask}
    (justified : ask.Justified history) {data : Bytes} (block : ask.block = some data)
    : data.length < 2 ^ 32 := by
  cases ask with
  | unexpectedBlock =>
      cases block
      decide
  | write trial memory =>
      cases block
      rw [List.length_replicate]
      cases trial with
      | whole => exact justified.2.fits
      | behind => exact Nat.mod_lt _ (Nat.two_pow_pos 32)
      | _ => exact Nat.lt_of_le_of_lt (by simp [Trial.size]) (show 10 < 2 ^ 32 by decide)
  | _ => cases block

-----------------------------------------------------------------------------------------
-- The validator
-----------------------------------------------------------------------------------------

/-- In any run the calls on the connection are those of an interview: a question is only asked with
a reason in the replies so far, and when the ones before it have their replies. Every request is
one line, whatever names were reported, and the size of every block is the one that is announced.
-/
theorem validatorMain_interviews (overflowChecks : Bool) (network : Network)
    : ∃ history,
        (validatorMain overflowChecks network).emitted = history.flatMap Inquiry.calls
        ∧ Interview overflowChecks history
        ∧ ∀ ask answer,
            .asked ask answer ∈ history
            → (∀ line, ask.line = some line → OneLine line)
              ∧ ∀ data, ask.block = some data → networkSize (blockHeader data.length) = data.length
    := by
  obtain ⟨history, emitted, interview, -⟩ := validatorMain_ends overflowChecks network
  refine ⟨history, emitted, interview, fun ask answer member => ?_⟩
  obtain ⟨before, after, -, earlier, justified⟩ := interview.justified member
  exact ⟨fun line writes => justified.oneLine earlier writes,
    fun data block => networkSize_blockHeader (justified.blockFits block)⟩

/-- The validator ends early exactly if it cannot connect, or the last thing that it did is a
question without a reply, or one of the three replies that it cannot go on from: a state that is
missing, a size that is not a number, and a memory that is too small.
-/
theorem validatorMain_halts (overflowChecks : Bool) (network : Network)
    : ∃ history,
        (validatorMain overflowChecks network).emitted = history.flatMap Inquiry.calls
        ∧ Interview overflowChecks history
        ∧ ∀ reason,
            (validatorMain overflowChecks network).result = .error reason
            ↔ halts overflowChecks history = some reason
              ∨ network.connect.result = .error reason := by
  obtain ⟨history, emitted, interview, ends⟩ := validatorMain_ends overflowChecks network
  refine ⟨history, emitted, interview, fun reason => ?_⟩
  cases result : (validatorMain overflowChecks network).result with
  | ok report =>
      rw [result] at ends
      obtain ⟨connected, goesOn, -⟩ := ends
      simp [goesOn, connected reason]
  | error other =>
      rw [result] at ends
      rcases ends with ⟨connected, stops⟩ | ⟨refused, rfl⟩
      · simp [stops, connected reason]
      · simp [refused, halts]

/-- The report has one check for the connection and one for each judged question, in their order,
and counts exactly those whose answer was what the question demands.
-/
theorem validatorMain_judges {overflowChecks : Bool} {network : Network} {report : Report}
    (returns : (validatorMain overflowChecks network).result = .ok report)
    : ∃ history checks,
        (validatorMain overflowChecks network).emitted = history.flatMap Inquiry.calls
        ∧ Interview overflowChecks history
        ∧ report = NWAChecker.repport ⟨checks⟩
        ∧ List.Forall₂ (fun check right => check.counts ↔ right) checks
          (network.localhost.isSome :: (history.filter Inquiry.judged).map Inquiry.Accepted)
        ∧ (report.passedCount = report.totalCheck
          ↔ network.localhost.isSome
            ∧ ∀ inquiry ∈ history, inquiry.judged → inquiry.Accepted) := by
  obtain ⟨history, emitted, interview, ends⟩ := validatorMain_ends overflowChecks network
  rw [returns] at ends
  obtain ⟨-, -, first, checker, ⟨checks, all, verdicts⟩, connected, rfl⟩ := ends
  have same : checker = ⟨first :: checks⟩ := by rw [← all]
  have right
      : List.Forall₂ (fun check right => check.counts ↔ right) (first :: checks)
        (network.localhost.isSome :: (history.filter Inquiry.judged).map Inquiry.Accepted) :=
    .cons connected (List.forall₂_map_right_iff.mpr verdicts)
  refine ⟨history, first :: checks, emitted, interview, by rw [same], right, ?_⟩
  rw [same, NWAChecker.repport_passedCount, NWAChecker.repport_totalCheck, List.countP_eq_length,
    forall_counts_iff right, List.forall_mem_cons, List.forall_mem_map]
  simp only [List.mem_filter, and_imp]

/-- An emulator without cores that closes the connection when it should. -/
def coreless : Network :=
  let socket (replies : List Bytes) (peer : Peer) : Socket := ⟨⟨replies, peer⟩, [], none⟩
  let first : List Bytes := [
    ascii "\nname:A\nversion:1\nid:A\nnwa_version:1.0\ncommands:CORES_LIST\n\n",
    ascii "\n\n",
    ascii "\n\n",
    ascii "\nstate:no_game\n\n",
    ascii "\nerror:invalid_argument\nreason:A\n\n",
    ascii "\nname:B\n\n",
    ascii "\nerror:protocol_error\nreason:A\n\n"
  ]
  let second : List Bytes := [ascii "\nname:B\n\n", ascii "\nstate:no_game\n\n"]
  ⟨some 1, some (socket first .closed), none, some (socket second .silent)⟩

/-- Witness: six of eight checks pass, and the run ends behind the state. -/
theorem validatorMain_judges_coreless
    : ∃ (report : Report) (history : List Inquiry),
        (validatorMain true coreless).result = .ok report
        ∧ report.passedCount = 6
        ∧ report.totalCheck = 8
        ∧ (validatorMain true coreless).emitted = history.flatMap Inquiry.calls
        ∧ ¬ ∀ inquiry ∈ history, inquiry.judged → inquiry.Accepted := by
  have counts
      : (validatorMain true coreless).result.toOption.map
          (fun report => (report.passedCount, report.totalCheck))
        = some (6, 8) := by
    decide +kernel
  cases returns : (validatorMain true coreless).result with
  | error reason =>
      rw [returns] at counts
      cases counts
  | ok report =>
      rw [returns] at counts
      obtain ⟨passed, total⟩ := Prod.mk.inj (Option.some.inj counts)
      obtain ⟨history, checks, emitted, -, -, -, verdict⟩ := validatorMain_judges returns
      refine ⟨report, history, rfl, passed, total, emitted, fun accepted => ?_⟩
      have all := verdict.mpr ⟨rfl, accepted⟩
      omega

end NetworkAccess
