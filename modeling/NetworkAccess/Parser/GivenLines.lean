import NetworkAccess.Parser.Iterations
import NetworkAccess.Parser.Phases
import NetworkAccess.Parser.Refusals
import NetworkAccess.Server.Arguments

/-! The command lines that a stream gives to the byte reader. Where a line is too long or has too
many arguments, or where bytes follow a block that cannot be finished, the reader does not come back
in a defined way; everywhere else it does.
-/

namespace NetworkAccess

variable {Emulator : Type}

/-- The line that some bytes begin with has no newline before its last byte. -/
theorem lineBytes_split (bytes : Bytes)
    : ∃ rest, bytes = lineBytes bytes ++ rest ∧ newline ∉ (lineBytes bytes).dropLast := by
  by_cases ended : newline ∈ bytes
  · obtain ⟨line, rest, rfl, open_⟩ := List.eq_append_cons_of_mem ended
    refine ⟨rest, ?_, ?_⟩
    · rw [lineBytes_complete rest open_, List.append_assoc, List.singleton_append]
    · rw [lineBytes_complete rest open_, List.dropLast_concat]
      exact open_
  · refine ⟨[], ?_, ?_⟩
    · rw [lineBytes_open ended, List.append_nil]
    · rw [lineBytes_open ended]
      exact fun member => ended (List.dropLast_sublist bytes |>.subset member)

namespace Parser

variable (host : Host Emulator)

/-- The stream gives the reader a command line: between two requests comes a byte that begins a
command, and the line goes on to the first newline or to the end of the stream.
-/
inductive GivenLine (start : Parser × Emulator) (stream : Bytes) : Bytes → Prop
  | intro {front back events reader emulator} (split : stream = front ++ back)
    (stands : completes host start front = .emit events (reader, emulator))
    (idle : reader.phase = .idle) (begins : startsCommand (back.headD 0))
    : GivenLine start stream (lineBytes back)

/-- A byte comes behind a block that is complete and can neither be swallowed nor written. -/
def BehindStuck (start : Parser × Emulator) (stream : Bytes) : Prop :=
  ∃ front byte rest events reader emulator ticket data,
    stream = front ++ byte :: rest
    ∧ readBytes host start front = .emit events (reader, emulator)
    ∧ reader.phase = .block ticket data.length data
    ∧ ¬ (ticket.swallow ∨ reader.writes)

-----------------------------------------------------------------------------------------
-- What a line or a stuck block causes
-----------------------------------------------------------------------------------------

section Causes

variable {host} {start : Parser × Emulator} {stream line : Bytes}

/-- A given line is read from its first byte on. -/
theorem GivenLine.reads (given : GivenLine host start stream line)
    : ∃ events reader emulator rest,
        newline ∉ line.dropLast
        ∧ startsCommand (line.headD 0)
        ∧ readBytes host start stream
          = (readLine host reader emulator [] (line ++ rest)).prepend events := by
  obtain @⟨front, back, events, reader, emulator, rfl, stands, idle, begins⟩ := given
  obtain ⟨byte, more, rfl⟩ : ∃ byte more, back = byte :: more := by
    cases back with
    | nil => exact absurd begins (by decide)
    | cons byte more => exact ⟨byte, more, rfl⟩
  obtain ⟨rest, split, open_⟩ := lineBytes_split (byte :: more)
  refine ⟨events, reader, emulator, rest, open_, ?_, ?_⟩
  · rw [lineBytes]
    split <;> exact begins
  · have starts : startsCommand byte := begins
    rw [← split, readBytes_completes, stands, Reaction.emit_andThen]
    simp only [consume, idle, starts, if_true]
    rfl

/-- A line that is longer than the command buffer is stored behind it. -/
theorem GivenLine.overflows (given : GivenLine host start stream line) (long : 2048 < line.length)
    : ∃ events emulator,
        readBytes host start stream = .stop events (.undefined .commandOverflow, emulator) := by
  obtain ⟨events, reader, emulator, rest, open_, -, reads⟩ := given.reads
  refine ⟨events, emulator, ?_⟩
  rw [reads, readLine_overflow host reader emulator [] line rest open_ (Nat.zero_le _)
    (by rwa [List.length_nil, Nat.zero_add]), Reaction.prepend_stop, List.append_nil]

/-- A complete line with too many arguments leaves the argument vector. -/
theorem GivenLine.faults (given : GivenLine host start stream line) (complete : newline ∈ line)
    (fits : line.length ≤ 2048) (many : ¬ ArgumentsFit line)
    : ∃ events fault emulator,
        readBytes host start stream = .stop events (.undefined fault, emulator) := by
  obtain ⟨events, reader, emulator, rest, open_, -, reads⟩ := given.reads
  obtain ⟨body, last, rfl⟩ : ∃ body last, line = body ++ [last] :=
    ⟨_, _, (List.dropLast_append_getLast (List.ne_nil_of_mem complete)).symm⟩
  rw [List.dropLast_concat] at open_
  have ends : last = newline := by
    rcases List.mem_append.mp complete with inside | ends
    · exact absurd inside open_
    · exact (List.mem_singleton.mp ends).symm
  subst ends
  have short : ([] : Bytes).length + body.length < 2048 := by
    rw [List.length_append, List.length_singleton] at fits
    rw [List.length_nil]
    omega
  have line := readLine_complete host reader emulator [] body rest open_ short
  rw [List.nil_append, dispatch] at line
  cases tokens : tokenize (body ++ [newline]) with
  | ok command => exact absurd ((tokenize_ok_iff open_ fits).mp ⟨command, tokens⟩) many
  | error fault =>
      rw [tokens] at line
      refine ⟨events, fault, emulator, ?_⟩
      rw [reads, List.append_assoc, List.singleton_append, line, Reaction.stop_andThen,
        Reaction.prepend_stop, List.append_nil]

/-- Behind a stuck block nothing is read: there is no room for a byte, or it is tried for ever. -/
theorem BehindStuck.stops (stuck : BehindStuck host start stream)
    : ∃ events ending emulator,
        readBytes host start stream = .stop events (ending, emulator) ∧ ending ≠ .rejected := by
  obtain ⟨front, byte, rest, events, reader, emulator, ticket, data, rfl, reads, phase, stuck⟩ :=
    stuck
  have here : reader = { reader with phase := .block ticket data.length data } := by rw [← phase]
  rw [readBytes_append, reads, Reaction.emit_andThen]
  by_cases empty : data = []
  · subst empty
    refine ⟨events, .spinning, emulator, ?_, fun same => by cases same⟩
    rw [here, List.length_nil, readBytes_cons, step, settle_stuck host reader emulator stuck,
      Reaction.stop_andThen, Reaction.stop_andThen, Reaction.prepend_stop, List.append_nil]
  · refine ⟨events, .undefined .blockOverflow, emulator, ?_, fun same => by cases same⟩
    rw [here, readBytes_fullBlock host reader emulator ticket data empty byte rest,
      Reaction.prepend_stop, List.append_nil]

end Causes

-----------------------------------------------------------------------------------------
-- Where a phase comes from
-----------------------------------------------------------------------------------------

/-- A complete empty block is finished without a line. -/
theorem settle_to_line {parser next : Parser} {emulator later : Emulator} {events : List Event}
    {stored : Bytes} (run : settle host parser emulator = .emit events (next, later))
    (inside : next.phase = .line stored)
    : parser = next ∧ emulator = later ∧ events = [] := by
  have settled := settle_case host parser emulator
  rw [run] at settled
  cases settled with
  | still => exact ⟨rfl, rfl, rfl⟩
  | finished => cases inside

/-- A byte that leads into a line begins it or is stored behind it. -/
theorem consume_to_line {parser next : Parser} {emulator later : Emulator} {byte : UInt8}
    {events : List Event} {stored : Bytes}
    (run : consume host byte (parser, emulator) = .emit events (next, later))
    (inside : next.phase = .line stored)
    : byte ≠ newline
      ∧ ∃ before,
          stored = before ++ [byte]
          ∧ before.length < 2048
          ∧ events = []
          ∧ next = { parser with phase := .line stored }
          ∧ later = emulator
          ∧ parser.LineAhead byte before := by
  have cases := consume_case host parser emulator byte
  rw [run] at cases
  cases cases with
  | line ahead extended =>
      cases extended with
      | stored room ordinary =>
          cases inside
          exact ⟨ordinary, _, rfl, room, rfl, rfl, rfl, ahead⟩
      | executed _ _ behind =>
          rcases behind with phase | ⟨ticket, phase⟩ <;> cases phase.symm.trans inside
  | header | opened | stored | finished => cases inside

/-- The last byte is consumed once everything before it is carried out. -/
theorem readBytes_concat (start : Parser × Emulator) (front : Bytes) (byte : UInt8)
    : readBytes host start (front ++ [byte])
      = (completes host start front).andThen (consume host byte) := by
  rw [readBytes_completes]
  exact congrArg _ (funext (fun settled => Reaction.andThen_emit_nil _))

/-- A line that the reader is in began between two requests. Witness: the bytes without those of the
line, by induction from their end.
-/
theorem line_begins {start : Parser × Emulator} {reader : Parser} {emulator : Emulator}
    {bytes stored : Bytes} {events : List Event} (idle : start.1.phase = .idle)
    (run : completes host start bytes = .emit events (reader, emulator))
    (inside : reader.phase = .line stored)
    : newline ∉ stored
      ∧ stored.length ≤ 2048
      ∧ ∃ front,
          bytes = front ++ stored
          ∧ startsCommand (stored.headD 0)
          ∧ completes host start front
            = .emit events ({ reader with phase := .idle }, emulator) := by
  induction bytes using List.reverseRecOn generalizing reader emulator events stored with
  | nil =>
      obtain ⟨parser, first⟩ := start
      obtain ⟨rfl, -, -⟩ := settle_to_line host run inside
      rw [idle] at inside
      cases inside
  | append_singleton front byte ih =>
      rw [completes, readBytes_concat] at run
      obtain ⟨early, ⟨parser, last⟩, late, reads, settles, rfl⟩ := Reaction.andThen_eq_emit.mp run
      obtain ⟨before, ⟨middle, between⟩, more, stands, consumes, rfl⟩ :=
        Reaction.andThen_eq_emit.mp reads
      obtain ⟨rfl, rfl, rfl⟩ := settle_to_line host settles inside
      obtain ⟨ordinary, line, rfl, room, rfl, rfl, rfl, began⟩ :=
        consume_to_line host consumes inside
      rw [List.append_nil, List.append_nil]
      rcases began with ⟨idle, rfl, starts⟩ | within
      · refine ⟨?_, Nat.succ_le_of_lt room, front, rfl, starts, ?_⟩
        · exact fun member => ordinary (List.mem_singleton.mp member).symm
        · rw [stands, ← idle]
      · obtain ⟨open_, -, early, rfl, starts, stood⟩ := ih stands within
        refine ⟨?_, ?_, early, (List.append_assoc _ _ _), ?_, ?_⟩
        · rw [List.mem_append, List.mem_singleton]
          exact fun either => either.elim open_ (fun same => ordinary same.symm)
        · rw [List.length_append, List.length_singleton]
          exact room
        · cases line with
          | nil => exact absurd starts (by decide)
          | cons first rest => exact starts
        · exact stood

/-- A byte at a line belongs to one that the stream gives. -/
theorem line_ahead {start : Parser × Emulator} {reader : Parser} {emulator : Emulator}
    {front before rest : Bytes} {byte : UInt8} {events : List Event}
    (idle : start.1.phase = .idle)
    (stands : completes host start front = .emit events (reader, emulator))
    (ahead : reader.LineAhead byte before)
    : newline ∉ before
      ∧ before.length ≤ 2048
      ∧ GivenLine host start (front ++ byte :: rest) (lineBytes (before ++ byte :: rest)) := by
  rcases ahead with ⟨between, rfl, starts⟩ | within
  · exact ⟨List.not_mem_nil, Nat.zero_le _, .intro rfl stands between starts⟩
  · obtain ⟨open_, fits, early, rfl, starts, stood⟩ := line_begins host idle stands within
    refine ⟨open_, fits, .intro (List.append_assoc _ _ _) stood rfl ?_⟩
    cases before with
    | nil => exact absurd starts (by decide)
    | cons first more => exact starts

/-- A block that the reader is in and that has bytes is open, or it cannot be finished. -/
theorem block_stuck {start : Parser × Emulator} {reader : Parser} {emulator : Emulator}
    {bytes data : Bytes} {events : List Event} {ticket : Ticket} {size : Nat}
    (idle : start.1.phase = .idle)
    (run : readBytes host start bytes = .emit events (reader, emulator))
    (inside : reader.phase = .block ticket size data)
    : data = []
      ∨ data.length < size
      ∨ data.length = size ∧ ¬ (ticket.swallow ∨ reader.writes) := by
  induction bytes using List.reverseRecOn with
  | nil =>
      cases run
      rw [idle] at inside
      cases inside
  | append_singleton front byte _ =>
      rw [readBytes_concat] at run
      obtain ⟨early, ⟨middle, between⟩, late, stands, consumes, -⟩ :=
        Reaction.andThen_eq_emit.mp run
      obtain ⟨_, ⟨parser, first⟩, _, -, settles, -⟩ := Reaction.andThen_eq_emit.mp stands
      rcases consume_to_block host consumes inside with empty | ⟨stored, rfl, -, same, -, waits⟩
      · exact Or.inl empty
      · have settled := settle_case host parser first
        rw [settles] at settled
        cases settled with
        | still open_ =>
            rw [same] at open_
            have room : stored.length < size := open_
            rw [List.length_append, List.length_singleton] at waits ⊢
            rcases Nat.lt_or_eq_of_le (Nat.succ_le_of_lt room) with short | full
            · exact Or.inr (Or.inl short)
            · exact Or.inr (Or.inr ⟨full, waits full⟩)
        | finished => cases congrArg Parser.phase same

-----------------------------------------------------------------------------------------
-- Where the reader stops
-----------------------------------------------------------------------------------------

/-- A complete block that stops the next byte cannot be finished. -/
theorem settle_stops {parser : Parser} {emulator : Emulator} {events : List Event}
    {reason : Ending × Emulator} (stops : settle host parser emulator = .stop events reason)
    : ∃ ticket size data,
        parser.phase = .block ticket size data
        ∧ size ≤ data.length
        ∧ (size = 0 ∧ reason.1 = .spinning ∧ ¬ (ticket.swallow ∨ parser.writes)
          ∨ 0 < size ∧ reason.1 = .undefined .blockOverflow) := by
  have settled := settle_case host parser emulator
  rw [stops] at settled
  cases settled with
  | spins phase stuck => exact ⟨_, _, _, phase, Nat.zero_le _, Or.inl ⟨rfl, rfl, stuck⟩⟩
  | overflows phase full some_ => exact ⟨_, _, _, phase, full, Or.inr ⟨some_, rfl⟩⟩

/-- A byte that stops the reader is refused, or it belongs to a line that is too long or has too
many arguments.
-/
theorem consume_stops {parser : Parser} {emulator : Emulator} {byte : UInt8}
    {events : List Event} {reason : Ending × Emulator}
    (stops : consume host byte (parser, emulator) = .stop events reason)
    : reason.1 = .rejected
      ∨ ∃ before,
          parser.LineAhead byte before
          ∧ (2048 ≤ before.length ∧ reason.1 = .undefined .commandOverflow
            ∨ before.length < 2048
              ∧ byte = newline
              ∧ ∃ fault,
                  tokenize (before ++ [newline]) = .error fault
                  ∧ reason.1 = .undefined fault) := by
  have cases := consume_case host parser emulator byte
  rw [stops] at cases
  cases cases with
  | line ahead extended =>
      cases extended with
      | faults room ends tokens =>
          exact Or.inr ⟨_, ahead, Or.inr ⟨room, ends, _, tokens, rfl⟩⟩
      | overflows full => exact Or.inr ⟨_, ahead, Or.inl ⟨full, rfl⟩⟩
  | refuseCommand | refuseBlock | refuseSize => exact Or.inl rfl

/-- Why the reader stops: it refuses a byte, a given line is too long or has too many arguments, or
a byte follows a block that cannot be finished.
-/
inductive StopsFor (start : Parser × Emulator) (stream : Bytes) : Ending → Prop
  | refused : StopsFor start stream .rejected
  | long {line} (given : GivenLine host start stream line) (long : 2048 < line.length)
    : StopsFor start stream (.undefined .commandOverflow)
  | many {line fault} (given : GivenLine host start stream line) (complete : newline ∈ line)
    (fits : line.length ≤ 2048) (many : ¬ ArgumentsFit line)
    (other : fault ≠ .commandOverflow)
    : StopsFor start stream (.undefined fault)
  | stuck {ending} (behind : BehindStuck host start stream)
    (other : ending ≠ .undefined .commandOverflow)
    : StopsFor start stream ending

/-- Whatever stops the reader has one of these causes, by the byte at which it stops. -/
theorem stopsFor {start : Parser × Emulator} {stream : Bytes} {reason : Ending × Emulator}
    (idle : start.1.phase = .idle) (stops : (readBytes host start stream).result = .error reason)
    : StopsFor host start stream reason.1 := by
  obtain ⟨front, byte, rest, outputs, ⟨parser, emulator⟩, rfl, reads, stopped⟩ :=
    Reaction.foldlM_stops stops
  have reads : readBytes host start front = .emit outputs (parser, emulator) := reads
  rw [step] at stopped
  rcases (settle host parser emulator).cases_eq with
    ⟨events, ⟨middle, between⟩, settled⟩ | ⟨events, other, settled⟩
  · have stands : completes host start front = .emit (outputs ++ events) (middle, between) := by
      rw [completes, reads, Reaction.emit_andThen, settled, Reaction.prepend_emit]
    rw [settled, Reaction.emit_andThen, Reaction.result_prepend] at stopped
    rcases (consume host byte (middle, between)).cases_eq with
      ⟨more, next, consumed⟩ | ⟨more, other, consumed⟩
    · rw [consumed] at stopped
      cases stopped
    · rw [consumed] at stopped
      cases stopped
      rcases consume_stops host consumed with refused | ⟨before, atLine, cause⟩
      · rw [refused]
        exact .refused
      · obtain ⟨open_, fits, given⟩ := @line_ahead _ host _ _ _ _ _ rest _ _ idle stands atLine
        rcases cause with ⟨long, ending⟩ | ⟨short, rfl, fault, tokens, ending⟩
        · rw [ending]
          refine .long given ?_
          have within : newline ∉ (before ++ [byte]).dropLast := by rwa [List.dropLast_concat]
          have least := length_le_lineBytes rest within
          rw [List.append_assoc, List.singleton_append, List.length_append,
            List.length_singleton] at least
          omega
        · rw [lineBytes_complete rest open_] at given
          have whole : (before ++ [newline]).length ≤ 2048 := by
            rw [List.length_append, List.length_singleton]
            exact short
          rw [ending]
          refine .many given (List.mem_append_right _ List.mem_cons_self) whole ?_ ?_
          · intro many
            obtain ⟨command, fine⟩ := (tokenize_ok_iff open_ whole).mpr many
            rw [fine] at tokens
            cases tokens
          · rintro rfl
            rcases tokenize_fault tokens with other | other | other <;> cases other
  · rw [settled, Reaction.stop_andThen] at stopped
    cases stopped
    obtain ⟨ticket, size, data, phase, full, cause⟩ := settle_stops host settled
    have size_eq : data.length = size ∧ ¬ (ticket.swallow ∨ parser.writes) := by
      rcases block_stuck host idle reads phase with rfl | open_ | ⟨complete, stuck⟩
      · rcases cause with ⟨rfl, -, stuck⟩ | ⟨some_, -⟩
        · exact ⟨rfl, stuck⟩
        · exact absurd full (Nat.not_le.mpr some_)
      · exact absurd full (Nat.not_le.mpr open_)
      · exact ⟨complete, stuck⟩
    obtain ⟨rfl, stuck⟩ := size_eq
    refine .stuck
      ⟨front, byte, rest, outputs, parser, emulator, ticket, data, rfl, reads, phase, stuck⟩ ?_
    intro same
    rcases cause with ⟨-, ending, -⟩ | ⟨-, ending⟩
    · cases ending.symm.trans same
    · cases ending.symm.trans same

/-- The reader stores behind the command buffer exactly if it is given a line that is too long. -/
theorem readBytes_commandOverflow_iff {start : Parser × Emulator} {stream : Bytes}
    (idle : start.1.phase = .idle)
    : (∃ emulator,
        (readBytes host start stream).result = .error (.undefined .commandOverflow, emulator))
      ↔ ∃ line, GivenLine host start stream line ∧ 2048 < line.length := by
  constructor
  · rintro ⟨emulator, stops⟩
    have cause := stopsFor host idle stops
    generalize ending : Ending.undefined .commandOverflow = reason at cause
    cases cause with
    | refused => cases ending
    | long given long => exact ⟨_, given, long⟩
    | many _ _ _ _ other =>
        cases ending
        exact absurd rfl other
    | stuck _ other => exact absurd ending.symm other
  · rintro ⟨line, given, long⟩
    obtain ⟨events, emulator, reads⟩ := given.overflows long
    exact ⟨emulator, by rw [reads]; rfl⟩

/-- A stream that the reader can take: its lines fit the command buffer and the argument vector, and
nothing follows a block that cannot be finished.
-/
structure Orderly (start : Parser × Emulator) (stream : Bytes) : Prop where
  lines : ∀ line, GivenLine host start stream line → line.length ≤ 2048
  arguments
    : ∀ line, GivenLine host start stream line → newline ∈ line → ArgumentsFit line
  blocks : ¬ BehindStuck host start stream

/-- The reader reads on or refuses a byte exactly on the streams that it can take. -/
theorem readBytes_orderly_iff {start : Parser × Emulator} {stream : Bytes}
    (idle : start.1.phase = .idle)
    : (∀ reason, (readBytes host start stream).result = .error reason → reason.1 = .rejected)
      ↔ Orderly host start stream := by
  constructor
  · intro returns
    have bounded (line : Bytes) (given : GivenLine host start stream line)
        : line.length ≤ 2048 := by
      by_contra long
      obtain ⟨events, emulator, reads⟩ := given.overflows (Nat.not_le.mp long)
      have refused := returns _ (by rw [reads]; rfl)
      cases refused
    refine ⟨bounded, fun line given complete => ?_, fun stuck => ?_⟩
    · by_contra many
      obtain ⟨events, fault, emulator, reads⟩ := given.faults complete (bounded line given) many
      have refused := returns _ (by rw [reads]; rfl)
      cases refused
    · obtain ⟨events, ending, emulator, reads, other⟩ := stuck.stops
      exact other (returns _ (by rw [reads]; rfl))
  · intro orderly reason stops
    have cause := stopsFor host idle stops
    generalize reason.1 = ending at cause ⊢
    cases cause with
    | refused => rfl
    | long given long => exact absurd (orderly.lines _ given) (Nat.not_le.mpr long)
    | many given complete _ many => exact absurd (orderly.arguments _ given complete) many
    | stuck behind => exact absurd behind orderly.blocks

end Parser
end NetworkAccess
