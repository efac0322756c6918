import NetworkAccess.Library.Lockstep
import NetworkAccess.Parser.Observations
import NetworkAccess.Parser.Phases

/-! Two connections that receive the same reads show the same if their readers are alike and
the host does not tell their emulators apart.
-/

namespace NetworkAccess

variable {Emulator : Type}

/-- A handler does not tell related emulators apart. -/
def HandlesAlike (alike : Emulator → Emulator → Prop) (handler : Handler Emulator) : Prop :=
  ∀ socket args left right,
    alike left right
    → (handler socket args left).1 = (handler socket args right).1
      ∧ alike (handler socket args left).2 (handler socket args right).2

/-- A host does not tell related emulators apart. -/
structure Host.Respects (host : Host Emulator) (alike : Emulator → Emulator → Prop)
    : Prop where
  generic : ∀ entry ∈ host.genericMap, HandlesAlike alike entry.function
  custom : ∀ entry ∈ host.customMap, HandlesAlike alike entry.function
  writeFunction
    : ∀ socket block left right,
        alike left right
        → alike (host.writeFunction socket block left).2 (host.writeFunction socket block right).2
  write
    : ∀ socket text left right,
        alike left right → alike (host.write socket text left) (host.write socket text right)

/-- Every host respects equality of the emulators. -/
theorem Host.respects_eq (host : Host Emulator) : host.Respects Eq where
  generic := by rintro entry - socket args left _ rfl; exact ⟨rfl, rfl⟩
  custom := by rintro entry - socket args left _ rfl; exact ⟨rfl, rfl⟩
  writeFunction := by rintro socket block left _ rfl; rfl
  write := by rintro socket text left _ rfl; rfl

/-- Serving a command shows the same for emulators that the host does not tell apart. -/
theorem Resolution.serve_alike {host : Host Emulator} {alike : Emulator → Emulator → Prop}
    (respects : host.Respects alike) (cmd : Bytes) (socket : SOCKET) (args : List Bytes)
    {left right : Emulator} (related : alike left right)
    : let one := (resolve host cmd).serve host socket args left
      let other := (resolve host cmd).serve host socket args right
      one.size = other.size ∧ one.events = other.events ∧ alike one.emulator other.emulator := by
  rw [resolve]
  cases found : lookupCustom host.customMap 0 cmd with
  | some entry =>
      have same := respects.custom entry.2 (lookupCustom_mem found) socket args left right related
      exact ⟨same.1, by simp only [serve, same.1], same.2⟩
  | none =>
      cases lookupCommand cmd with
      | none => exact ⟨rfl, rfl, respects.write _ _ _ _ related⟩
      | some command =>
          dsimp only
          cases builtin : host.genericMap.find? (fun entry => entry.command = command) with
          | none => exact ⟨rfl, rfl, respects.write _ _ _ _ related⟩
          | some entry =>
              have same := respects.generic entry (List.mem_of_find?_eq_some builtin) socket args
                left right related
              exact ⟨same.1, by simp only [serve, same.1], same.2⟩

/-- A custom name is a prefix of every name that begins with `b`. -/
def Host.CatchesBinary (host : Host Emulator) : Prop :=
  ∃ entry ∈ host.customMap, entry.string.isPrefixOf (ascii "b")

instance (host : Host Emulator) : Decidable host.CatchesBinary :=
  inferInstanceAs (Decidable (∃ entry ∈ host.customMap, _))

/-- A host that catches all binary commands knows the name of each of their lines. -/
theorem Host.CatchesBinary.known {host : Host Emulator} (catches : host.CatchesBinary)
    {cmd : Bytes} (binary : cmd.head? = some lowerB)
    : resolve host cmd ≠ .unknown := by
  intro unknown
  obtain ⟨entry, member, isPrefix⟩ := catches
  refine lookupCustom_none.mp ((resolve_unknown_iff host cmd).mp unknown).1 entry member ?_
  rw [List.isPrefixOf_iff_prefix] at isPrefix ⊢
  obtain ⟨rest, rfl⟩ : ∃ rest, cmd = lowerB :: rest := by
    cases cmd with
    | nil => cases binary
    | cons letter rest =>
        cases binary
        exact ⟨rest, rfl⟩
  exact isPrefix.trans ⟨rest, rfl⟩

-----------------------------------------------------------------------------------------
-- Readers
-----------------------------------------------------------------------------------------

/-- Two readers that agree, except that between and inside of lines a loose comparison lets
`writes` differ.
-/
structure Parser.Alike (loose : Prop) (left right : Parser) : Prop where
  socket : left.socket = right.socket
  phase : left.phase = right.phase
  writes : left.writes = right.writes ∨ loose ∧ left.AtLine

/-- Readers that are not at a line are alike only if they are the same. -/
theorem Parser.Alike.eq {loose : Prop} {left right : Parser} (same : left.Alike loose right)
    (outside : ¬ left.AtLine)
    : left = right := by
  obtain ⟨socket, phase, writes⟩ := same
  have writes := writes.resolve_right (fun both => outside both.2)
  cases left
  cases right
  cases socket
  cases phase
  cases writes
  rfl

/-- Related readers with related emulators. -/
def Parser.InStep (loose : Prop) (alike : Emulator → Emulator → Prop)
    (left right : Parser × Emulator)
    : Prop :=
  left.1.Alike loose right.1 ∧ alike left.2 right.2

/-- The endings are the same and the emulators related. -/
def EndAlike (alike : Emulator → Emulator → Prop) (left right : Ending × Emulator) : Prop :=
  left.1 = right.1 ∧ alike left.2 right.2

namespace Parser

variable {host : Host Emulator} {alike : Emulator → Emulator → Prop} {loose : Prop}
  {left right : Emulator}

section Steps

variable (respects : host.Respects alike) (related : alike left right)
include respects related

/-- Refusals of readers in step agree. -/
theorem refuse_agree {one other : Parser} (socket : one.socket = other.socket)
    (reason : Bytes)
    : Reaction.Agree (InStep loose alike) (EndAlike alike) (refuse host one left reason)
        (refuse host other right reason) := by
  rw [refuse, refuse, socket]
  exact .stop _ ⟨rfl, respects.write _ _ _ _ related⟩

/-- Alike readers dispatch a line in step, if what is loose is caught by the custom commands. -/
theorem dispatch_agree (catches : loose → host.CatchesBinary) {one other : Parser}
    (socket : one.socket = other.socket) (writes : one.writes = other.writes ∨ loose)
    (line : Bytes)
    : Reaction.Agree (InStep loose alike) (EndAlike alike) (dispatch host one left line)
        (dispatch host other right line) := by
  rw [dispatch, dispatch]
  cases tokens : tokenize line with
  | error fault => exact .stop _ ⟨rfl, related⟩
  | ok command =>
      obtain ⟨cmd, args⟩ := command
      obtain ⟨size, events, emulators⟩ := Resolution.serve_alike respects cmd other.socket args
        related
      dsimp only
      rw [socket, size, events]
      refine .emit _ ⟨⟨rfl, rfl, ?_⟩, emulators⟩
      rcases writes with same | free
      · exact Or.inl (by rw [same])
      by_cases binary : line.head? = some lowerB
      · have known := (catches free).known (tokenize_head tokens binary (by decide) (by decide))
        left
        cases resolution : resolve host cmd with
        | unknown => exact absurd resolution known
        | _ => rfl
      · exact Or.inr ⟨free, Or.inl (if_neg binary)⟩

/-- Alike readers extend a line in step. -/
theorem extendLine_agree (catches : loose → host.CatchesBinary) {one other : Parser}
    (socket : one.socket = other.socket) (writes : one.writes = other.writes ∨ loose)
    (line : Bytes) (byte : UInt8)
    : Reaction.Agree (InStep loose alike) (EndAlike alike)
        (extendLine host one left line byte) (extendLine host other right line byte) := by
  rw [extendLine, extendLine]
  split
  case isTrue =>
    split
    case isTrue => exact dispatch_agree respects related catches socket writes _
    case isFalse =>
      exact .emit _ ⟨⟨socket, rfl, writes.imp_right (fun free => ⟨free, Or.inr ⟨_, rfl⟩⟩)⟩,
        related⟩
  case isFalse => exact .stop _ ⟨rfl, related⟩

/-- Alike readers finish a block in step. -/
theorem finish_agree (parser : Parser) (ticket : Ticket) (data : Bytes)
    : Reaction.Agree (InStep loose alike) (EndAlike alike)
        (finish host parser left ticket data) (finish host parser right ticket data) := by
  rw [finish, finish]
  split
  case isTrue => exact .emit _ ⟨⟨rfl, rfl, Or.inl rfl⟩, related⟩
  case isFalse =>
    split
    case isTrue => exact .emit _ ⟨⟨rfl, rfl, Or.inl rfl⟩, respects.writeFunction _ _ _ _ related⟩
    case isFalse => exact .emit _ ⟨⟨rfl, rfl, Or.inl rfl⟩, related⟩

/-- A settled byte is read alike; the cases are those of the phase. -/
theorem consume_agree (catches : loose → host.CatchesBinary) {one other : Parser}
    (same : one.Alike loose other) (byte : UInt8)
    : Reaction.Agree (InStep loose alike) (EndAlike alike) (consume host byte (one, left))
        (consume host byte (other, right)) := by
  have writes := same.writes.imp_right And.left
  have phase := same.phase
  obtain ⟨socket, here, known⟩ := one
  cases here with
  | idle =>
      simp only [consume, ← phase]
      split
      case isTrue => exact extendLine_agree respects related catches same.socket writes _ _
      case isFalse => exact refuse_agree respects related same.socket _
  | line bytes =>
      simp only [consume, ← phase]
      exact extendLine_agree respects related catches same.socket writes _ _
  | expecting ticket =>
      cases same.eq (by rintro (idle | ⟨line, idle⟩) <;> cases idle)
      simp only [consume]
      split
      case isTrue => exact refuse_agree respects related rfl _
      case isFalse => exact .emit _ ⟨⟨rfl, rfl, Or.inl rfl⟩, related⟩
  | header ticket bytes =>
      cases same.eq (by rintro (idle | ⟨line, idle⟩) <;> cases idle)
      simp only [consume]
      split
      case isTrue => exact .emit _ ⟨⟨rfl, rfl, Or.inl rfl⟩, related⟩
      case isFalse =>
        split
        case isTrue => exact .emit _ ⟨⟨rfl, rfl, Or.inl rfl⟩, related⟩
        case isFalse => exact (refuse_agree respects related rfl _).prepend _
  | block ticket size data =>
      cases same.eq (by rintro (idle | ⟨line, idle⟩) <;> cases idle)
      simp only [consume]
      split
      case isTrue => exact finish_agree respects related _ _ _
      case isFalse => exact .emit _ ⟨⟨rfl, rfl, Or.inl rfl⟩, related⟩

/-- Alike readers settle in step, by their phases. -/
theorem settle_agree {one other : Parser} (same : one.Alike loose other)
    : Reaction.Agree (InStep loose alike) (EndAlike alike) (settle host one left)
        (settle host other right) := by
  obtain ⟨socket, here, known⟩ := one
  cases here with
  | block ticket size data =>
      cases same.eq (by rintro (idle | ⟨line, idle⟩) <;> cases idle)
      simp only [settle]
      split
      case isTrue => exact .emit _ ⟨⟨rfl, rfl, Or.inl rfl⟩, related⟩
      case isFalse =>
        split
        case isTrue =>
          split
          case isTrue => exact finish_agree respects related _ _ _
          case isFalse => exact .stop _ ⟨rfl, related⟩
        case isFalse => exact .stop _ ⟨rfl, related⟩
  | _ =>
      simp only [settle, ← same.phase]
      exact .emit _ ⟨same, related⟩

end Steps

/-- Related readers read a stream in lockstep. -/
theorem readBytes_agree (respects : host.Respects alike)
    (catches : loose → host.CatchesBinary) {one other : Parser × Emulator}
    (same : InStep loose alike one other) (stream : Bytes)
    : Reaction.Agree (InStep loose alike) (EndAlike alike) (readBytes host one stream)
        (readBytes host other stream) :=
  Reaction.Agree.foldlM
    (fun _ _ byte both =>
      (settle_agree respects both.2 both.1).andThen (fun _ _ later =>
        consume_agree respects later.2 catches later.1 byte))
    same stream

end Parser

-----------------------------------------------------------------------------------------
-- Slots
-----------------------------------------------------------------------------------------

/-- Two slots whose readers are alike, with related emulators. -/
structure SlotsAlike (loose : Prop) (alike : Emulator → Emulator → Prop)
    (one other : Client × Emulator)
    : Prop where
  formed : one.1.WellFormed
  otherFormed : other.1.WellFormed
  inStep : Parser.InStep loose alike (readerOf one) (readerOf other)

/-- Alike readers are at a surplus together. -/
theorem Parser.Alike.surplus_iff {loose : Prop} {one other : Parser}
    (same : one.Alike loose other) (bytes : Bytes)
    : one.AtSurplus bytes ↔ other.AtSurplus bytes := by
  have equal (inside : ∃ ticket size data, one.phase = .block ticket size data)
      : one = other := by
    obtain ⟨ticket, size, data, phase⟩ := inside
    refine same.eq ?_
    rintro (idle | ⟨line, idle⟩) <;> (rw [phase] at idle; cases idle)
  constructor
  · rintro ⟨ticket, size, data, phase, rest⟩
    rw [← equal ⟨ticket, size, data, phase⟩]
    exact ⟨ticket, size, data, phase, rest⟩
  · rintro ⟨ticket, size, data, phase, rest⟩
    rw [equal ⟨ticket, size, data, same.phase.trans phase⟩]
    exact ⟨ticket, size, data, phase, rest⟩

section Runs

variable {host : Host Emulator} {alike : Emulator → Emulator → Prop} {loose : Prop}
  (respects : host.Respects alike) (catches : loose → host.CatchesBinary)
include respects catches

/-- A read is handled alike: as the readers read it, or by an overflow. -/
theorem feedRead_agree {one other : Client × Emulator} (same : SlotsAlike loose alike one other)
    (read : ClientRead)
    : Reaction.Agree (SlotsAlike loose alike)
        (fun stop final => EndAlike alike (Stopped.final stop) (Stopped.final final))
        (feedRead host one read) (feedRead host other read) := by
  have together
      : (Config.enter one.1 one.2 read).Surplus ↔ (Config.enter other.1 other.2 read).Surplus := by
    rw [Config.surplus_iff same.formed, Config.surplus_iff same.otherFormed]
    exact same.inStep.1.surplus_iff read.bytes
  by_cases surplus : (Config.enter one.1 one.2 read).Surplus
  · rw [feedRead_of_surplus host same.formed surplus,
      feedRead_of_surplus host same.otherFormed (together.mp surplus)]
    exact .stop [] ⟨rfl, same.inStep.2⟩
  · have agree : Reaction.Agree (Parser.InStep loose alike) (EndAlike alike)
        ((feedRead host one read).project readerOf Stopped.final)
        ((feedRead host other read).project readerOf Stopped.final) := by
      rw [(feedRead_readsAs host).agrees one read same.formed surplus,
        (feedRead_readsAs host).agrees other read same.otherFormed
          (fun there => surplus (together.mpr there))]
      exact Parser.readBytes_agree respects catches same.inStep read.bytes
    refine agree.of_project.refine (fun next after goesOn goesOn' inStep => ?_)
      (fun _ _ ended => ended)
    exact ⟨(feedRead_kept same.formed goesOn).1, (feedRead_kept same.otherFormed goesOn').1,
      inStep⟩

/-- Successive reads of alike slots agree. -/
theorem feedReads_agree {one other : Client × Emulator}
    (same : SlotsAlike loose alike one other) (reads : List ClientRead)
    : Reaction.Agree (SlotsAlike loose alike)
        (fun stop final => EndAlike alike (Stopped.final stop) (Stopped.final final))
        (feedReads host one reads) (feedReads host other reads) :=
  Reaction.Agree.foldlM (fun _ _ read both => feedRead_agree respects catches both read) same
    reads

/-- Alike slots show the same. -/
theorem feedReads_observed {one other : Client × Emulator}
    (same : SlotsAlike loose alike one other) (reads : List ClientRead)
    : observed (feedReads host one reads) = observed (feedReads host other reads) := by
  generalize feedReads host one reads = left, feedReads host other reads = right,
    feedReads_agree respects catches same reads = agree
  cases agree with
  | emit outputs => rfl
  | stop outputs related => exact congrArg (fun ending => (_, some ending)) related.1

end Runs

end NetworkAccess
