import NetworkAccess.Parser.Runs

/-! How many bytes of a block an iteration has, and when the copies stay inside the block
and a complete block is disposed of before `preprocess_data` returns.
-/

namespace NetworkAccess

variable {Emulator : Type}

/-- The header that `stored` and the unread bytes complete, if its size is the expected
one: the declared size, and how many bytes are behind the header.
-/
def Config.headerAhead (config : Config Emulator) (stored : Bytes) : Option (Nat × Nat) :=
  let missing := 5 - stored.length
  let header := stored ++ config.unread.take missing
  let expected := config.client.expectedBlockSize
  if header.length = 5 ∧ (networkSize header = expected ∨ expected = 0) then
    some (networkSize header, (config.unread.drop missing).length)
  else
    none

/-- The bytes of the current block that were copied by earlier iterations. -/
def Config.copiedBefore (config : Config Emulator) : Nat :=
  if config.client.state = .gettingBinaryData ∧ config.client.binaryHeaderSize = 5 then
    config.client.binaryBlockSize
  else
    0

/-- The block whose data the iteration comes to: its declared size, and how many bytes
have been copied or are there to be copied.
-/
def Config.blockAhead (config : Config Emulator) : Option (Nat × Nat) :=
  let client := config.client
  match client.state with
  | .expectingBinaryData => if config.unread.headD 0 = 0 then config.headerAhead [] else none
  | .gettingBinaryData =>
      if client.binaryHeaderSize < 5 then
        config.headerAhead client.partialHeader
      else
        some (client.binaryBlockDefinedSize, client.binaryBlockSize + config.unread.length)
  | _ => none

/-- What an iteration needs to dispose of its block in time: no bytes behind a block that
was begun earlier, a complete block that can be finished, and for an empty block a byte
behind its header.
-/
structure Config.BlockInTime (config : Config Emulator) (declared held : Nat) : Prop where
  noSurplus : 0 < config.copiedBefore → held ≤ declared
  finished : 0 < declared → declared ≤ held → config.client.deliverable
  emptySeen : declared = 0 → 0 < held

/-- The condition on an iteration. -/
def Config.BlocksInTime (config : Config Emulator) : Prop :=
  ∀ declared held, config.blockAhead = some (declared, held) → config.BlockInTime declared held

/-- At a header, the block ahead is the one that the header declares. -/
theorem Config.AtHeader.blockAhead {config : Config Emulator} {client : Client}
    (atHeader : config.AtHeader client)
    : config.blockAhead = config.headerAhead client.partialHeader := by
  cases atHeader with
  | first state zero =>
      simp only [Config.blockAhead, state, zero, if_true]
      rfl
  | resumed state short => simp only [Config.blockAhead, state, short, if_true]

/-- Unread bytes that fill up a header make it the header ahead. -/
theorem Config.headerAhead_complete {config : Config Emulator} {stored front rest : Bytes}
    (split : config.unread = front ++ rest) (complete : stored.length + front.length = 5)
    : config.headerAhead stored
      = if networkSize (stored ++ front) = config.client.expectedBlockSize
            ∨ config.client.expectedBlockSize = 0 then
          some (networkSize (stored ++ front), rest.length)
        else
          none := by
  have missing : 5 - stored.length = front.length := by omega
  have full : (stored ++ front).length = 5 := by rw [List.length_append, complete]
  simp only [headerAhead, missing, split, List.take_left, List.drop_left, full, true_and]

/-- Fewer than five bytes announce no block. -/
theorem Config.headerAhead_short {config : Config Emulator} {stored : Bytes}
    (short : stored.length + config.unread.length < 5)
    : config.headerAhead stored = none := by
  refine if_neg (fun both => ?_)
  have full := both.1
  rw [List.length_append, List.length_take] at full
  omega

/-- A header of another size than the expected one begins no block. -/
theorem Config.AtHeader.blockAhead_mismatch {config : Config Emulator} {client : Client}
    {front rest header : Bytes} (atHeader : config.AtHeader client)
    (wellFormed : config.client.WellFormed) (more : config.unread ≠ [])
    (split : config.unread = front ++ rest)
    (complete : client.binaryHeaderSize + front.length = 5)
    (stored : header = client.partialHeader ++ front)
    (mismatch
      : ¬ (networkSize header = client.expectedBlockSize ∨ client.expectedBlockSize = 0))
    : config.blockAhead = none := by
  have facts := atHeader.facts wellFormed more
  have expected := congrArg Ticket.expected facts.ticket
  simp only [Client.ticket] at expected
  rw [expected, stored] at mismatch
  rw [atHeader.blockAhead, Config.headerAhead_complete split (by rw [facts.length, complete]),
    if_neg mismatch]

/-- A header that lacks bytes begins no block yet. -/
theorem Config.AtHeader.blockAhead_short {config : Config Emulator} {client : Client}
    (atHeader : config.AtHeader client) (wellFormed : config.client.WellFormed)
    (more : config.unread ≠ []) (short : client.binaryHeaderSize + config.unread.length < 5)
    : config.blockAhead = none := by
  have facts := atHeader.facts wellFormed more
  refine atHeader.blockAhead.trans (Config.headerAhead_short ?_)
  rw [facts.length]
  exact short

/-- At a copy, the block ahead is the one that is being filled. -/
theorem Config.Filling.blockAhead {config : Config Emulator} {client : Client}
    {data : Bytes} {events : List Event} (filling : config.Filling client data events)
    (wellFormed : config.client.WellFormed) (more : config.unread ≠ [])
    : config.blockAhead
      = some (client.binaryBlockDefinedSize, client.binaryBlockSize + data.length) := by
  cases filling with
  | resumed state complete =>
      simp only [Config.blockAhead, state, complete, Nat.lt_irrefl, if_false]
  | @opened client front rest header atHeader split complete stored agreed =>
      have facts := atHeader.facts wellFormed more
      have expected := congrArg Ticket.expected facts.ticket
      simp only [Client.ticket] at expected
      rw [expected, stored] at agreed
      rw [atHeader.blockAhead, Config.headerAhead_complete split (by rw [facts.length, complete]),
        if_pos agreed, ← stored]
      simp only [Client.openBlock, Nat.zero_add]

/-- While a block is filled, the bytes copied before are those the slot counts. -/
theorem Config.Filling.copiedBefore {config : Config Emulator} {client : Client}
    {data : Bytes} {events : List Event} (filling : config.Filling client data events)
    : config.copiedBefore = client.binaryBlockSize := by
  cases filling with
  | resumed state complete => exact if_pos ⟨state, complete⟩
  | opened atHeader =>
      exact if_neg atHeader.incomplete

/-- While a block is filled, reading on does not change whether it will be delivered. -/
theorem Config.Filling.deliverable_iff {config : Config Emulator} {client : Client}
    {data : Bytes} {events : List Event} (filling : config.Filling client data events)
    (wellFormed : config.client.WellFormed) (more : config.unread ≠ [])
    : config.client.deliverable ↔ client.deliverable := by
  have facts := filling.facts wellFormed more
  have swallow := congrArg Ticket.swallow facts.ticket
  simp only [Client.ticket] at swallow
  rw [Client.deliverable, Client.deliverable, facts.currentCommand, swallow]

/-- The condition, for the block that is being filled. -/
theorem Config.Filling.blocksInTime_iff {config : Config Emulator} {client : Client}
    {data : Bytes} {events : List Event} (filling : config.Filling client data events)
    (wellFormed : config.client.WellFormed) (more : config.unread ≠ [])
    : config.BlocksInTime
      ↔ (0 < client.binaryBlockSize
            → client.binaryBlockSize + data.length ≤ client.binaryBlockDefinedSize)
        ∧ (0 < client.binaryBlockDefinedSize
            → client.binaryBlockDefinedSize ≤ client.binaryBlockSize + data.length
            → client.deliverable)
        ∧ (client.binaryBlockDefinedSize = 0 → 0 < client.binaryBlockSize + data.length) := by
  have ahead := filling.blockAhead wellFormed more
  rw [← filling.copiedBefore, ← filling.deliverable_iff wellFormed more]
  constructor
  · intro inTime
    obtain ⟨noSurplus, finished, emptySeen⟩ := inTime _ _ ahead
    rw [← filling.copiedBefore] at noSurplus finished emptySeen
    exact ⟨noSurplus, finished, emptySeen⟩
  · rintro ⟨noSurplus, finished, emptySeen⟩ declared held here
    rw [ahead, Option.some.injEq, Prod.mk.injEq] at here
    obtain ⟨rfl, rfl⟩ := here
    rw [← filling.copiedBefore]
    exact ⟨noSurplus, finished, emptySeen⟩

/-- Where no block is ahead the condition holds. -/
theorem Config.blocksInTime_of_none {config : Config Emulator} (none_ : config.blockAhead = none)
    : config.BlocksInTime := by
  intro declared held ahead
  rw [none_] at ahead
  cases ahead

/-- At the beginning of a line no block is ahead. -/
theorem Config.AtLine.blockAhead {config : Config Emulator} (atLine : config.AtLine)
    : config.blockAhead = none := by
  rcases atLine with ⟨state, -⟩ | state <;> simp only [Config.blockAhead, state]

-----------------------------------------------------------------------------------------
-- The iterations of one read
-----------------------------------------------------------------------------------------

/-- The iteration disposes of a block: behind the allocation, if that is its own, it passes all
bytes of the block to the write function and frees it, or frees it alone if it is to be swallowed.
-/
def Config.Disposes (host : Host Emulator) (config : Config Emulator) (declared : Nat) : Prop :=
  let fd := config.client.socketFd
  ∃ (before after : List Event) (next : Config Emulator),
    iteration host config = .emit (before ++ after) next
    ∧ next.client.state = .waitingForCommand
    ∧ (before = [] ∨ before = [.blockAllocated fd declared])
    ∧ if config.client.shallowBinaryBlock then
        after = [.blockReleased fd]
      else
        ∃ data : Bytes,
          data.length = declared ∧ after = [.blockWritten fd data, .blockReleased fd]

/-- The copies that `preprocess_data` makes stay inside the block, and where it returns `true`, a
block that it leaves behind with a complete header lacks some of its bytes, and an iteration that
had all bytes of a block disposed of it.
-/
structure Config.AccountsBlocks (host : Host Emulator) (config : Config Emulator)
    : Prop where
  inBounds
    : ∀ later final,
        config.Reaches host later
        → later.unread ≠ []
        → (iteration host later).result ≠ .error ⟨.undefined .blockOverflow, final⟩
  incomplete
    : ∀ last,
        (preprocessData host config).result = .ok last
        → last.client.state = .gettingBinaryData
        → last.client.binaryHeaderSize = 5
        → last.client.binaryBlockSize < last.client.binaryBlockDefinedSize
  disposed
    : ∀ last later declared held,
        (preprocessData host config).result = .ok last
        → config.Reaches host later
        → later.unread ≠ []
        → later.blockAhead = some (declared, held)
        → declared ≤ held
        → later.Disposes host declared

/-- A slot whose block is not waiting for anything. -/
def Client.BlockLeft (client : Client) : Prop :=
  client.state = .gettingBinaryData
  ∧ client.binaryHeaderSize = 5
  ∧ client.binaryBlockDefinedSize ≤ client.binaryBlockSize

/-- In time, an iteration copies inside the block, and if it ends the read then the block
lacks some of its bytes.
-/
theorem Config.BlocksInTime.keeps {host : Host Emulator} {config : Config Emulator}
    (inTime : config.BlocksInTime) (wellFormed : config.client.WellFormed)
    (more : config.unread ≠ [])
    : (∀ final, (iteration host config).result ≠ .error ⟨.undefined .blockOverflow, final⟩)
      ∧ ∀ last, (iteration host config).result = .ok last
        → last.unread = []
        → ¬ last.client.BlockLeft := by
  have cases := iteration_cases host wellFormed more
  generalize iteration host config = turn at cases
  cases cases with
  | refuseCommand | refuseBlock | refuseSize | longLine => exact ⟨nofun, nofun⟩
  | faultyLine _ _ _ _ tokens =>
      refine ⟨?_, nofun⟩
      rintro final ⟨⟩
      rcases tokenize_fault tokens with other | other | other <;> cases other
  | openLine =>
      refine ⟨nofun, ?_⟩
      rintro last ⟨⟩ - ⟨state, -⟩
      cases state
  | servedLine =>
      refine ⟨nofun, ?_⟩
      rintro last ⟨⟩ - ⟨state, -⟩
      exact Client.afterLine_state _ _ _ state
  | openHeader atHeader short =>
      refine ⟨nofun, ?_⟩
      rintro last ⟨⟩ - ⟨-, complete, -⟩
      exact absurd complete (Nat.ne_of_lt short)
  | noData filling =>
      obtain ⟨-, -, emptySeen⟩ := (filling.blocksInTime_iff wellFormed more).mp inTime
      rcases filling.unread wellFormed more with ⟨-, ended, -⟩ | ⟨-, begins⟩
      · exact absurd ended.symm more
      · refine ⟨nofun, ?_⟩
        rintro last ⟨⟩ - ⟨-, -, left⟩
        rw [List.length_nil] at emptySeen
        dsimp only at left
        omega
  | overflow filling data full =>
      obtain ⟨noSurplus, -, -⟩ := (filling.blocksInTime_iff wellFormed more).mp inTime
      omega
  | partBlock filling data short =>
      refine ⟨nofun, ?_⟩
      rintro last ⟨⟩ - ⟨-, -, left⟩
      dsimp only [Client.copied] at left
      omega
  | swallowBlock filling | writeBlock filling =>
      refine ⟨nofun, ?_⟩
      rintro last ⟨⟩ - ⟨state, -⟩
      cases state
  | stuckBlock filling data counted full size bytes stuck =>
      obtain ⟨-, finished, -⟩ := (filling.blocksInTime_iff wellFormed more).mp inTime
      have positive := List.length_pos_iff.mpr data
      refine ⟨nofun, ?_⟩
      rintro last ⟨⟩ ended -
      rw [List.drop_eq_nil_iff] at ended
      exact stuck (finished (by omega) (by omega))

/-- What comes before the copy is the allocation of the block, if it is of the same iteration. -/
theorem Config.Filling.events_cases {config : Config Emulator} {client : Client} {data : Bytes}
    {events : List Event} (filling : config.Filling client data events)
    : events = []
      ∨ events = [.blockAllocated client.socketFd client.binaryBlockDefinedSize] := by
  cases filling with
  | resumed => exact Or.inl rfl
  | opened => exact Or.inr rfl

/-- In time, an iteration that has all bytes of a block disposes of it, if the loop goes on. -/
theorem Config.BlocksInTime.disposes {host : Host Emulator} {config : Config Emulator}
    (inTime : config.BlocksInTime) (wellFormed : config.client.WellFormed)
    (more : config.unread ≠ [])
    (goesOn : ∀ next, (iteration host config).result = .ok next → ¬ next.Spins)
    {declared held : Nat} (ahead : config.blockAhead = some (declared, held))
    (full : declared ≤ held)
    : config.Disposes host declared := by
  have cases := iteration_cases host wellFormed more
  generalize same : iteration host config = turn at cases
  have absent {goal : Prop} (none : config.blockAhead = none) : goal := by
    rw [none] at ahead
    cases ahead
  cases cases with
  | refuseCommand state => exact absent (by simp only [blockAhead, state])
  | refuseBlock state bad => exact absent (by simp only [blockAhead, state, if_neg bad])
  | refuseSize atHeader split complete stored mismatch =>
      exact absent
        (atHeader.blockAhead_mismatch wellFormed more split complete stored mismatch)
  | openLine atLine | longLine atLine | faultyLine atLine | servedLine atLine =>
      exact absent atLine.blockAhead
  | openHeader atHeader short => exact absent (atHeader.blockAhead_short wellFormed more short)
  | noData filling =>
      obtain ⟨-, -, emptySeen⟩ := (filling.blocksInTime_iff wellFormed more).mp inTime
      cases (filling.blockAhead wellFormed more).symm.trans ahead
      rcases filling.unread wellFormed more with ⟨-, ended, -⟩ | ⟨-, begins⟩
      · exact absurd ended.symm more
      · rw [List.length_nil] at emptySeen full
        omega
  | overflow filling data surplus =>
      obtain ⟨noSurplus, -, -⟩ := (filling.blocksInTime_iff wellFormed more).mp inTime
      omega
  | partBlock filling data short =>
      cases (filling.blockAhead wellFormed more).symm.trans ahead
      omega
  | swallowBlock filling data counted last swallow =>
      have facts := filling.facts wellFormed more
      cases (filling.blockAhead wellFormed more).symm.trans ahead
      have swallows := congrArg Ticket.swallow facts.ticket
      simp only [Client.ticket] at swallows
      refine ⟨_, _, _, same, rfl, ?_, ?_⟩
      · rw [← facts.socketFd]
        exact filling.events_cases
      · rw [← swallows, swallow, if_pos rfl, facts.socketFd]
  | writeBlock filling data counted last keep =>
      have facts := filling.facts wellFormed more
      cases (filling.blockAhead wellFormed more).symm.trans ahead
      have swallows := congrArg Ticket.swallow facts.ticket
      simp only [Client.ticket] at swallows
      obtain ⟨block, here, -, copied⟩ := facts.stored.block facts.header
      refine ⟨_, _, _, same, rfl, ?_, ?_⟩
      · rw [← facts.socketFd]
        exact filling.events_cases
      · rw [← swallows, keep, if_neg Bool.false_ne_true, ← facts.socketFd]
        refine ⟨_, ?_, rfl⟩
        rw [List.length_append, Client.blockData, here, Option.map_some, Option.getD_some, copied,
          List.length_take]
        omega
  | @stuckBlock client data events count block filling some_ counted last size bytes stuck =>
      obtain ⟨-, finished, -⟩ := (filling.blocksInTime_iff wellFormed more).mp inTime
      cases (filling.blockAhead wellFormed more).symm.trans ahead
      have facts := filling.facts wellFormed more
      rcases Nat.eq_zero_or_pos client.binaryBlockDefinedSize with empty | positive
      · -- An empty block that cannot be finished stalls the next iteration.
        have nothing : count = 0 := by rw [counted, empty, Nat.min_zero]
        refine absurd ⟨facts.state, facts.header, empty, stuck, ?_⟩
          (goesOn ⟨client.copied block count, data.drop count, config.emulator⟩ (by rw [same]; rfl))
        rw [nothing]
        exact some_
      · exact absurd (finished positive (by omega)) stuck

/-- A block that is full already has no room for the bytes behind it. -/
theorem iteration_of_full {host : Host Emulator} {config : Config Emulator}
    (wellFormed : config.client.WellFormed) (more : config.unread ≠ [])
    (state : config.client.state = .gettingBinaryData)
    (complete : config.client.binaryHeaderSize = 5)
    (begun : 0 < config.client.binaryBlockSize)
    (full : config.client.binaryBlockSize = config.client.binaryBlockDefinedSize)
    : ∃ final, (iteration host config).result = .error ⟨.undefined .blockOverflow, final⟩ := by
  have positive := List.length_pos_iff.mpr more
  have cases := iteration_cases host wellFormed more
  generalize iteration host config = turn at cases
  cases cases with
  | overflow => exact ⟨_, rfl⟩
  | refuseCommand other | refuseBlock other =>
      rw [state] at other
      cases other
  | openLine atLine | longLine atLine | faultyLine atLine | servedLine atLine =>
      rcases atLine with ⟨other, -⟩ | other <;> (rw [state] at other; cases other)
  | refuseSize atHeader | openHeader atHeader =>
      exact absurd ⟨state, complete⟩ atHeader.incomplete
  | noData filling =>
      obtain ⟨-, ended, -⟩ := filling.of_complete state complete
      exact absurd ended.symm more
  | partBlock filling _ short =>
      obtain ⟨rfl, rfl, -⟩ := filling.of_complete state complete
      omega
  | swallowBlock filling _ counted last | writeBlock filling _ counted last
  | stuckBlock filling _ counted last =>
      obtain ⟨rfl, rfl, -⟩ := filling.of_complete state complete
      omega

/-- If all copies stay inside and no finished block is left, then every iteration is in
time, by the cases of an iteration.
-/
theorem Config.AccountsBlocks.inTime {host : Host Emulator} {start config : Config Emulator}
    (accounts : start.AccountsBlocks host) (wellFormed : start.client.WellFormed)
    (reaches : start.Reaches host config) (more : config.unread ≠ [])
    : config.BlocksInTime := by
  have formed := (reaches.kept wellFormed).1
  have iterates {events : List Event} {next : Config Emulator}
      (run : iteration host config = .emit events next)
      : start.Reaches host next :=
    reaches.tail ⟨more, by rw [run]; rfl⟩
  have left {events : List Event} {next : Config Emulator}
      (run : iteration host config = .emit events next) (ended : next.unread = [])
      : ¬ next.client.BlockLeft := by
    rintro ⟨state, complete, full⟩
    have lacks := accounts.incomplete next ((iterates run).returns wellFormed ended) state complete
    omega
  have noOverflow := fun final => accounts.inBounds config final reaches more
  have cases := iteration_cases host formed more
  generalize same : iteration host config = turn at cases
  cases cases with
  | refuseCommand state => exact Config.blocksInTime_of_none (by simp only [blockAhead, state])
  | refuseBlock state bad =>
      exact Config.blocksInTime_of_none (by simp only [blockAhead, state, if_neg bad])
  | refuseSize atHeader split complete stored mismatch =>
      exact Config.blocksInTime_of_none
        (atHeader.blockAhead_mismatch formed more split complete stored mismatch)
  | openLine atLine | longLine atLine | faultyLine atLine | servedLine atLine =>
      exact Config.blocksInTime_of_none atLine.blockAhead
  | openHeader atHeader short =>
      exact Config.blocksInTime_of_none (atHeader.blockAhead_short formed more short)
  | @noData client events filling =>
      have facts := filling.facts formed more
      rw [filling.blocksInTime_iff formed more, List.length_nil]
      rcases filling.unread formed more with ⟨-, ended, -⟩ | ⟨-, begins⟩
      · exact absurd ended.symm more
      · have open_ : ¬ client.BlockLeft := left same rfl
        have lacks : 0 < client.binaryBlockDefinedSize :=
          Nat.pos_of_ne_zero (fun empty => open_ ⟨facts.state, facts.header, by omega⟩)
        refine ⟨?_, ?_, ?_⟩ <;> omega
  | overflow filling data full =>
      rw [same] at noOverflow
      exact absurd rfl (noOverflow _)
  | partBlock filling data short =>
      rw [filling.blocksInTime_iff formed more]
      refine ⟨?_, ?_, ?_⟩ <;> omega
  | swallowBlock filling data counted full swallow =>
      have positive := List.length_pos_iff.mpr data
      rw [filling.blocksInTime_iff formed more]
      exact ⟨by omega, fun _ _ => Or.inl swallow, by omega⟩
  | writeBlock filling data counted full _ writes =>
      have positive := List.length_pos_iff.mpr data
      rw [filling.blocksInTime_iff formed more]
      exact ⟨by omega, fun _ _ => Or.inr writes, by omega⟩
  | @stuckBlock client data events count block filling nonempty counted full size bytes stuck =>
      have facts := filling.facts formed more
      have positive := List.length_pos_iff.mpr nonempty
      rw [filling.blocksInTime_iff formed more]
      refine ⟨by omega, fun declared available => ?_, by omega⟩
      -- The complete block stays: either it is left at the end or the next copy overflows.
      exfalso
      by_cases ended : data.drop count = []
      · exact left same ended ⟨facts.state, facts.header, by dsimp only [Client.copied]; omega⟩
      · have later := iterates same
        have further := (later.kept wellFormed).1
        obtain ⟨final, overflows⟩ := iteration_of_full further ended facts.state facts.header
          (by dsimp only [Client.copied]; omega) full
        exact accounts.inBounds _ final later ended overflows

/-- All copies of one `preprocess_data` stay inside the block, no finished block is left and each is
disposed of if and only if each of its iterations is in time.
-/
theorem Config.accountsBlocks_iff (host : Host Emulator) {config : Config Emulator}
    (wellFormed : config.client.WellFormed) (more : config.unread ≠ [])
    : config.AccountsBlocks host
      ↔ ∀ later, config.Reaches host later → later.unread ≠ [] → later.BlocksInTime := by
  constructor
  · exact fun accounts later reaches unread => accounts.inTime wellFormed reaches unread
  · intro inTime
    refine ⟨
      fun later final reaches unread => ?_, fun last returns state complete => ?_,
      fun last later declared held returns reaches unread ahead full => ?_
    ⟩
    · have formed := (reaches.kept wellFormed).1
      exact ((inTime later reaches unread).keeps formed unread).1 final
    · obtain ⟨reaches, ended⟩ := preprocessData_ok wellFormed returns
      -- The read was not empty, so some iteration ended it.
      rcases Relation.ReflTransGen.cases_tail reaches with rfl | ⟨before, sooner, unread, goes⟩
      · exact absurd ended more
      · have formed := (Config.Reaches.kept sooner wellFormed).1
        have open_ := ((inTime before sooner unread).keeps formed unread).2 last goes ended
        by_contra full
        exact open_ ⟨state, complete, by omega⟩
    · have formed := (reaches.kept wellFormed).1
      refine (inTime later reaches unread).disposes formed unread (fun next goes => ?_) ahead full
      exact Config.Reaches.not_spins wellFormed returns (reaches.tail ⟨unread, goes⟩)

/-- In every run of a connection, the copies stay inside their blocks, no finished block is left by
a read that the run comes to and each is delivered or swallowed if and only if every visited
iteration is in time.
-/
theorem blocks_accounted_iff (host : Host Emulator) (slot : Client) (fd : SOCKET)
    (emulator : Emulator) (reads : List ClientRead)
    : (∀ state read,
        Arrives host (slot.add fd, emulator) reads state read
        → (Config.enter state.1 state.2 read).AccountsBlocks host)
      ↔ ∀ config,
          Visited host (slot.add fd, emulator) reads config
          → config.unread ≠ []
          → config.BlocksInTime :=
  forall_arrives_iff (slot.wellFormed_add fd)
    (fun _ emulator read wellFormed =>
      Config.accountsBlocks_iff host (Config.wellFormed_enter wellFormed emulator read)
        read.nonempty)

/-- A block of two bytes cut in its middle, with the next command behind it. -/
def pipelinedBlock : List ClientRead := [
  ⟨ascii "bCORE_WRITE RAM\n" ++ [0, 0, 0, 0, 2, 7], by decide, by decide⟩,
  ⟨8 :: ascii "A\n", by decide, by decide⟩
]

/-- The copy of the last byte of the block takes a byte of the next command as well. -/
theorem blocks_overflow
    : ¬ ∀ state read,
          Arrives (Host.fixed [(.bCoreWrite, 2)]) (Client.zero.add 4, ()) pipelinedBlock
            state read
          → (Config.enter state.1 state.2 read).AccountsBlocks
              (Host.fixed [(.bCoreWrite, 2)]) := by
  intro accounts
  have wellFormed := Client.zero.wellFormed_add 4
  have ending
      : (observed (feedReads (Host.fixed [(.bCoreWrite, 2)]) (Client.zero.add 4, ())
          pipelinedBlock)).2
        = some (.undefined .blockOverflow) := by
    decide
  obtain ⟨final, stops⟩ := stopped_of_observed ending
  obtain ⟨state, read, arrives, ended⟩ := arrives_of_stops stops
  obtain ⟨later, reaches, unread, halts | ⟨-, spinning⟩⟩ := preprocessData_error
    (Config.wellFormed_enter (arrives.kept wellFormed) _ read) (feedRead_error.mp ended)
  · exact (accounts state read arrives).inBounds later final reaches unread halts
  · cases spinning

end NetworkAccess
