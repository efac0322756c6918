import NetworkAccess.Correctness.BlockAccounting
import NetworkAccess.Parser.Observations
import NetworkAccess.Parser.Phases

/-! How far the observable trace depends on the cuts of a stream into reads: it is the one
of the byte reader up to the first surplus read, and a surplus read ends it inside its
block.
-/

namespace NetworkAccess

variable {Emulator : Type}

instance (config : Config Emulator) : Decidable config.Surplus :=
  decidable_of_iff
    (config.client.state = .gettingBinaryData
      ∧ config.client.binaryHeaderSize = 5
      ∧ 0 < config.client.binaryBlockSize
      ∧ config.client.binaryBlockSize < config.client.binaryBlockDefinedSize
      ∧ config.client.binaryBlockDefinedSize
        < config.client.binaryBlockSize + config.unread.length
      ∧ config.client.deliverable)
    ⟨
      fun ⟨state, header, begun, unfinished, behind, deliverable⟩ =>
        ⟨state, header, begun, unfinished, behind, deliverable⟩,
      fun ⟨state, header, begun, unfinished, behind, deliverable⟩ =>
        ⟨state, header, begun, unfinished, behind, deliverable⟩
    ⟩

/-- Where the data of the block begin that the first surplus read of a run ends, counted
from `offset`, if the run comes to a surplus read.
-/
def surplusAt (host : Host Emulator) : Nat → Client × Emulator → List ClientRead → Option Nat
  | _, _, [] => none
  | offset, state, read :: rest =>
      if (Config.enter state.1 state.2 read).Surplus then
        some (offset - state.1.binaryBlockSize)
      else
        match (feedRead host state read).result with
        | .ok next => surplusAt host (offset + read.bytes.length) next rest
        | .error _ => none

/-- A run without a surplus read is calm. -/
theorem calm_of_surplusAt {host : Host Emulator} {offset : Nat} {state : Client × Emulator}
    {reads : List ClientRead} (without : surplusAt host offset state reads = none)
    : Reaction.CalmAlong (feedRead host) Calm state reads := by
  induction reads generalizing offset state with
  | nil => trivial
  | cons read rest ih =>
      rw [surplusAt] at without
      split at without
      case isTrue => cases without
      case isFalse calm =>
        refine ⟨calm, fun next continues => ?_⟩
        rw [continues] at without
        exact ih without

/-- A run with a surplus read ends in the block that the read would have ended. -/
theorem surplusAt_spec {host : Host Emulator} {offset place : Nat}
    {state : Client × Emulator} {reads : List ClientRead} (wellFormed : state.1.WellFormed)
    (found : surplusAt host offset state reads = some place)
    : ∃ done back events parser emulator ticket size data,
        reads.flatMap ClientRead.bytes = done ++ back
        ∧ Parser.readBytes host (readerOf state) done = .emit events (parser, emulator)
        ∧ parser.phase = .block ticket size data
        ∧ (ticket.swallow ∨ parser.writes)
        ∧ (0 < data.length ∧ data.length < size ∧ size < data.length + back.length)
        ∧ place = offset + done.length - data.length
        ∧ observed (feedReads host state reads)
          = (events.filter Event.observable, some (.undefined .blockOverflow)) := by
  induction reads generalizing offset state with
  | nil => cases found
  | cons read rest ih =>
      rw [surplusAt] at found
      split at found
      case isTrue surplus =>
        cases found
        have formed := Config.wellFormed_enter wellFormed state.2 read
        have filling := Config.Filling.resumed surplus.state surplus.header
        have length : state.1.blockData.length = state.1.binaryBlockSize :=
          (filling.facts formed read.nonempty).reader.length
        have begun : 0 < state.1.binaryBlockSize := surplus.begun
        have unfinished : state.1.binaryBlockSize < state.1.binaryBlockDefinedSize :=
          surplus.unfinished
        have behind
            : state.1.binaryBlockDefinedSize < state.1.binaryBlockSize + read.bytes.length :=
          surplus.behind
        refine ⟨[], read.bytes ++ rest.flatMap ClientRead.bytes, [], state.1.parser, state.2,
          state.1.ticket, _, state.1.blockData, List.flatMap_cons, rfl,
          Client.phase_of_header surplus.state surplus.header,
          state.1.deliverable_iff.mp surplus.deliverable, ?_, ?_, ?_⟩
        · rw [List.length_append, length]
          omega
        · rw [length, List.length_nil, Nat.add_zero]
        · rw [feedReads_cons, feedRead_of_surplus host wellFormed surplus]
          rfl
      case isFalse calm =>
        rcases (feedRead host state read).cases_eq with
          ⟨before, next, same⟩ | ⟨before, reason, same⟩
        · have continues : (feedRead host state read).result = .ok next := by rw [same]; rfl
          rw [continues] at found
          obtain ⟨done, back, events, parser, emulator, ticket, size, data, split, reached,
            inside, finishes, sizes, at_, trace⟩ := ih (feedRead_kept wellFormed continues).1 found
          refine ⟨read.bytes ++ done, back, before ++ events, parser, emulator, ticket, size, data,
            ?_, ?_, inside, finishes, sizes, ?_, ?_⟩
          · rw [List.flatMap_cons, split, List.append_assoc]
          · rw [Parser.readBytes_append, feedRead_reads wellFormed calm continues, same,
              Reaction.emitted_emit, Reaction.emit_andThen, reached, Reaction.prepend_emit]
          · rw [at_, List.length_append]
            omega
          · rw [feedReads_cons, same, Reaction.emit_andThen, observed_prepend, trace,
              List.filter_append]
        · rw [same] at found
          cases found

/-- The data of a block that can be finished begin behind `front`, and the stream goes on
to its end.
-/
inductive Parser.BlockBegins (host : Host Emulator) (start : Parser × Emulator)
    (stream : Bytes)
    : Bytes → List Event → Prop
  | intro {front back events parser emulator ticket size}
    (split : stream = front ++ back)
    (begins : readBytes host start front = .emit events (parser, emulator))
    (inside : parser.phase = .block ticket size [])
    (finishes : ticket.swallow ∨ parser.writes) (positive : 0 < size)
    (available : size ≤ back.length)
    : BlockBegins host start stream front events

/-- A surplus read lies in such a block, and the run shows what came before the block. -/
theorem surplusAt_begins {host : Host Emulator} {place : Nat} {state : Client × Emulator}
    {reads : List ClientRead} (wellFormed : state.1.WellFormed)
    (atLine : (readerOf state).1.AtLine) (found : surplusAt host 0 state reads = some place)
    : ∃ front events,
        Parser.BlockBegins host (readerOf state) (reads.flatMap ClientRead.bytes) front events
        ∧ front.length = place
        ∧ observed (feedReads host state reads)
          = (events.filter Event.observable, some (.undefined .blockOverflow)) := by
  obtain ⟨done, back, events, parser, emulator, ticket, size, data, split, reached, inside,
    finishes, sizes, at_, trace⟩ := surplusAt_spec wellFormed found
  obtain ⟨front, rfl, begins⟩ := atLine.block_begins host reached inside
  have whole : reads.flatMap ClientRead.bytes = front ++ (data ++ back) := by
    rw [split, List.append_assoc]
  refine ⟨front, events, .intro whole begins rfl finishes (by omega) ?_, ?_, trace⟩
  · rw [List.length_append]
    omega
  · rw [at_, List.length_append]
    omega

/-- Bytes that fill up a block leave the reader between two requests. -/
theorem Parser.readBytes_through (host : Host Emulator) {parser : Parser}
    (emulator : Emulator) {ticket : Ticket} {size : Nat}
    (inside : parser.phase = .block ticket size []) (finishes : ticket.swallow ∨ parser.writes)
    (positive : 0 < size) {bytes : Bytes} (available : size ≤ bytes.length)
    : ∃ events later,
        readBytes host (parser, emulator) bytes
        = (readBytes host ({ parser with phase := .idle }, later) (bytes.drop size)).prepend
            events := by
  obtain ⟨events, later, finished, -⟩ :=
    finish_idle host parser emulator finishes ([] ++ bytes.take size)
  have taken : (bytes.take size).length = size := List.length_take_of_le available
  have here : parser = { parser with phase := .block ticket size [] } := by rw [← inside]
  refine ⟨events, later, ?_⟩
  conv_lhs => rw [← List.take_append_drop size bytes, here]
  rw [readBytes_append,
    readBytes_blockDone host parser emulator ticket size [] _ positive
      (by rw [taken, List.length_nil, Nat.zero_add]),
    finished, Reaction.emit_andThen]

/-- Between two requests the reader comes to a block only through a command, which can be
observed.
-/
theorem Parser.observed_command (host : Host Emulator) (parser : Parser) (emulator : Emulator)
    (bytes : Bytes)
    (reaches
      : (∃ events next later ticket size data,
          readBytes host ({ parser with phase := .idle }, emulator) bytes
            = .emit events (next, later)
          ∧ next.phase = .block ticket size data)
        ∨ (observed (readBytes host ({ parser with phase := .idle }, emulator) bytes)).2
          = some (.undefined .blockOverflow))
    : (readBytes host ({ parser with phase := .idle }, emulator) bytes).emitted.filter
        Event.observable ≠ [] := by
  intro silent
  have quiet (socket : SOCKET) (name : Bytes) (args : List Bytes)
      : .command socket name args
        ∉ (readBytes host ({ parser with phase := .idle }, emulator) bytes).emitted := by
    intro member
    have kept := List.mem_filter.mpr ⟨member, (rfl : Event.observable (.command _ _ _) = true)⟩
    rw [silent] at kept
    cases kept
  have atLine : AtLine { parser with phase := .idle } := Or.inl rfl
  rcases atLine.of_no_command host emulator bytes quiet with
    ⟨events, next, run, outside⟩ | ⟨events, ending, last, run, other⟩
  · rw [run] at reaches
    rcases reaches with ⟨_, _, _, ticket, size, data, same, inside⟩ | ended
    · cases same
      rcases outside with phase | ⟨line, phase⟩ <;> (rw [phase] at inside; cases inside)
    · cases ended
  · rw [run] at reaches
    rcases reaches with ⟨_, _, _, _, _, _, same, -⟩ | ended
    · cases same
    · cases ended
      exact other (Or.inl rfl)

/-- The events before a block do not depend on how the block was found. -/
theorem Parser.BlockBegins.unique {host : Host Emulator} {start : Parser × Emulator}
    {stream front other : Bytes} {events more : List Event}
    (one : BlockBegins host start stream front events)
    (two : BlockBegins host start stream other more) (same : front.length = other.length)
    : events = more := by
  obtain ⟨split, begins, -⟩ := one
  obtain ⟨split', begins', -⟩ := two
  obtain ⟨rfl, -⟩ := List.append_inj (split.symm.trans split') same
  rw [begins] at begins'
  cases begins'
  rfl

/-- A later block has more observable events before it. -/
theorem Parser.BlockBegins.later {host : Host Emulator} {start : Parser × Emulator}
    {stream front other : Bytes} {events more : List Event}
    (one : BlockBegins host start stream front events)
    (two : BlockBegins host start stream other more) (later : front.length < other.length)
    : events.filter Event.observable ≠ more.filter Event.observable := by
  obtain @⟨back, _, parser, emulator, ticket, size, split, begins, inside, finishes, positive,
    available⟩ := one
  obtain @⟨behind, _, parser', emulator', ticket', size', split', begins', inside', -⟩ := two
  obtain ⟨between, rfl⟩ : front <+: other :=
    List.prefix_of_prefix_length_le (split ▸ List.prefix_append _ _)
      (split' ▸ List.prefix_append _ _) (Nat.le_of_lt later)
  have nonempty : between ≠ [] := by
    rintro rfl
    rw [List.append_nil] at later
    omega
  rw [readBytes_append, begins, Reaction.emit_andThen] at begins'
  have here : parser = { parser with phase := .block ticket size [] } := by rw [← inside]
  by_cases enough : size ≤ between.length
  · obtain ⟨fin, last, through⟩ :=
      readBytes_through host emulator inside finishes positive enough
    rw [through] at begins'
    have silent := observed_command host parser last (between.drop size)
    rcases (readBytes host ({ parser with phase := .idle }, last) (between.drop size)).cases_eq with
      ⟨outputs, next, rest⟩ | ⟨outputs, reason, rest⟩
    · rw [rest, Reaction.prepend_emit, Reaction.prepend_emit] at begins'
      cases begins'
      have observable := silent (Or.inl ⟨_, _, _, _, _, _, rest, inside'⟩)
      rw [rest, Reaction.emitted_emit] at observable
      intro same
      have lengths := congrArg List.length same
      simp only [List.filter_append, List.length_append] at lengths
      exact observable (List.length_eq_zero_iff.mp (by omega))
    · rw [rest] at begins'
      cases begins'
  · rw [here, readBytes_block host parser emulator ticket size [] between
      (by rw [List.length_nil]; omega)] at begins'
    cases begins'
    cases inside'
    exact absurd rfl nonempty

/-- The reader does not end in a block that can be finished. -/
theorem Parser.BlockBegins.observed_ne {host : Host Emulator} {start : Parser × Emulator}
    {stream front : Bytes} {events : List Event}
    (begins : BlockBegins host start stream front events)
    : observed (readBytes host start stream)
      ≠ (events.filter Event.observable, some (.undefined .blockOverflow)) := by
  obtain @⟨back, _, parser, emulator, ticket, size, split, begins, inside, finishes, positive,
    available⟩ := begins
  obtain ⟨fin, last, through⟩ :=
    readBytes_through host emulator inside finishes positive available
  rw [split, readBytes_append, begins, Reaction.emit_andThen, through,
    Reaction.prepend_prepend, observed_prepend]
  intro same
  obtain ⟨trace, ending⟩ := Prod.mk.inj same
  have observable := observed_command host parser last (back.drop size) (Or.inr ending)
  have lengths := congrArg List.length trace
  simp only [List.length_append, List.filter_append] at lengths
  exact observable (List.length_eq_zero_iff.mp (by simp only [observed] at lengths; omega))

-----------------------------------------------------------------------------------------
-- Two cuts of one stream
-----------------------------------------------------------------------------------------

/-- A run without a surplus read shows what the reader shows. -/
theorem observed_of_no_surplus {host : Host Emulator} {state : Client × Emulator}
    {reads : List ClientRead} (wellFormed : state.1.WellFormed)
    (without : surplusAt host 0 state reads = none)
    : observed (feedReads host state reads)
      = Parser.observed
          (Parser.readBytes host (readerOf state) (reads.flatMap ClientRead.bytes)) :=
  observed_of_calm wellFormed (calm_of_surplusAt without)

/-- Two cuts of one stream show the same if and only if their first surplus reads, if any,
lie in the same block.
-/
theorem observed_eq_iff (host : Host Emulator) (slot : Client) (fd : SOCKET)
    (emulator : Emulator) (left right : List ClientRead)
    (same : left.flatMap ClientRead.bytes = right.flatMap ClientRead.bytes)
    : observed (feedReads host (slot.add fd, emulator) left)
        = observed (feedReads host (slot.add fd, emulator) right)
      ↔ surplusAt host 0 (slot.add fd, emulator) left
        = surplusAt host 0 (slot.add fd, emulator) right := by
  have wellFormed := slot.wellFormed_add fd
  have atLine : (readerOf (slot.add fd, emulator)).1.AtLine := Or.inl rfl
  rcases leftAt : surplusAt host 0 (slot.add fd, emulator) left with _ | leftPlace
  · rcases rightAt : surplusAt host 0 (slot.add fd, emulator) right with _ | rightPlace
    · rw [observed_of_no_surplus wellFormed leftAt, observed_of_no_surplus wellFormed rightAt, same]
      exact ⟨fun _ => rfl, fun _ => rfl⟩
    · obtain ⟨front, events, begins, -, trace⟩ := surplusAt_begins wellFormed atLine rightAt
      rw [observed_of_no_surplus wellFormed leftAt, trace, same]
      exact ⟨fun equal => absurd equal begins.observed_ne, nofun⟩
  · obtain ⟨front, events, begins, rfl, trace⟩ := surplusAt_begins wellFormed atLine leftAt
    rcases rightAt : surplusAt host 0 (slot.add fd, emulator) right with _ | rightPlace
    · rw [observed_of_no_surplus wellFormed rightAt, trace, ← same]
      exact ⟨fun equal => absurd equal.symm begins.observed_ne, nofun⟩
    · obtain ⟨other, more, begins', rfl, trace'⟩ := surplusAt_begins wellFormed atLine rightAt
      rw [← same] at begins'
      rw [trace, trace', Prod.mk.injEq, eq_self, and_true, Option.some.injEq]
      constructor
      · intro equal
        rcases Nat.lt_trichotomy front.length other.length with less | equal' | less
        · exact absurd equal (begins.later begins' less)
        · exact equal'
        · exact absurd equal.symm (begins'.later begins less)
      · intro equal
        rw [begins.unique begins' equal]

/-- A `bCORE_WRITE` with its block and a text command in one read. -/
def pipelinedWhole : ClientRead := {
  bytes := ascii "bCORE_WRITE RAM\n" ++ [0, 0, 0, 0, 2, 7, 8] ++ ascii "A\n"
  nonempty := by decide
  fits := by decide
}

/-- A cut in front of the block shows what the uncut stream shows. -/
theorem observed_eq_calm_cut
    : observed (feedReads (Host.fixed [(.bCoreWrite, 2)]) (Client.zero.add 4, ())
        [
          ⟨ascii "bCORE_WR", by decide, by decide⟩,
          ⟨ascii "ITE RAM\n" ++ [0, 0, 0, 0, 2, 7, 8] ++ ascii "A\n", by decide, by decide⟩
        ])
      = observed (feedReads (Host.fixed [(.bCoreWrite, 2)]) (Client.zero.add 4, ())
          [pipelinedWhole]) :=
  (observed_eq_iff (Host.fixed [(.bCoreWrite, 2)]) Client.zero 4 () _ _ (by decide)).mpr
    (by decide)

/-- A cut inside the block shows something else: the copy of its last byte overflows the
block, where the uncut stream comes to the text command.
-/
theorem observed_ne_surplus_cut
    : pipelinedBlock.flatMap ClientRead.bytes = [pipelinedWhole].flatMap ClientRead.bytes
      ∧ observed (feedReads (Host.fixed [(.bCoreWrite, 2)]) (Client.zero.add 4, ())
          pipelinedBlock)
        ≠ observed (feedReads (Host.fixed [(.bCoreWrite, 2)]) (Client.zero.add 4, ())
            [pipelinedWhole]) := by
  constructor <;> decide

end NetworkAccess
