import NetworkAccess.Parser.Lockstep

/-! A command is served by the entry that has its name, unless the name of a custom entry before it
is a proper prefix of the command.
-/

namespace NetworkAccess

variable {Emulator : Type}

/-- No two entries have one name. -/
structure Host.DistinctNames (host : Host Emulator) : Prop where
  custom : (host.customMap.map CustomEntry.string).Nodup
  builtin
    : ∀ entry ∈ host.customMap, ∀ known ∈ commandStrings, entry.string ≠ known.string

/-- A host with the same entries in another order. -/
structure Host.Reordered (host other : Host Emulator) : Prop where
  generic : other.genericMap.Perm host.genericMap
  custom : other.customMap.Perm host.customMap
  write : other.write = host.write

/-- The tables have the function `handler` under the name `cmd`. -/
inductive Registered (host : Host Emulator) (cmd : Bytes) : Target → Handler Emulator → Prop
  | custom {index entry} (here : host.customMap[index]? = some entry) (named : entry.string = cmd)
    : Registered host cmd (.custom index) entry.function
  | generic {entry} (member : entry ∈ host.genericMap)
    (named : ∃ known ∈ commandStrings, known.command = entry.command ∧ known.string = cmd)
    : Registered host cmd (.generic entry.command) entry.function

/-- The text and the return value for a name without a handler. -/
def notServed (cmd : Bytes) : Bytes × Int :=
  if commandStrings.any (fun known => known.string = cmd) then
    (ascii "Invalid command or not implemented", -1)
  else
    (ascii "Invalid command", 0)

/-- The one function that is registered under the name is called, once, with the socket and the
arguments. Without such a function none is called and one `invalid_command` is sent.
-/
def DispatchesExactly (host : Host Emulator) (client : Client) (cmd : Bytes) (args : List Bytes)
    (emulator : Emulator)
    : Prop :=
  let socket := client.socketFd
  (∃ target handler last,
      Registered host cmd target handler
      ∧ (∀ other function,
          Registered host cmd other function → other = target ∧ function = handler)
      ∧ executeCommand host client cmd args emulator
        = .emit
            [
              .command socket cmd args,
              .handled socket target args (handler socket args emulator).1
            ]
            ⟨(handler socket args emulator).1, last, (handler socket args emulator).2⟩)
  ∨ (∃ last,
      (∀ target handler, ¬ Registered host cmd target handler)
      ∧ executeCommand host client cmd args emulator
        = .emit
            [.command socket cmd args, .errorReply socket .invalidCommand (notServed cmd).1]
            ⟨
              (notServed cmd).2,
              last,
              host.write socket (errorReplyText .invalidCommand (notServed cmd).1) emulator
            ⟩)

/-- What a command led to: the value returned and the emulator that is left. -/
def outcome (turn : Turn Emulator (Executed Emulator)) : Option (Int × Emulator) :=
  turn.result.toOption.map (fun executed => (executed.expectedSize, executed.emulator))

/-- A custom entry whose name is a proper prefix of the command stands behind the one that has the
command's name.
-/
def Host.ExactFirst (host : Host Emulator) (cmd : Bytes) : Prop :=
  ∀ front entry rest,
    host.customMap = front ++ entry :: rest
    → entry.string <+: cmd
    → entry.string ≠ cmd
    → ∃ exact_ ∈ front, exact_.string = cmd

/-- The builtin map does not have two functions for the command. -/
def Host.OneFunction (host : Host Emulator) (cmd : Bytes) : Prop :=
  ∀ known ∈ commandStrings,
    known.string = cmd
    → ∀ left ∈ host.genericMap,
        left.command = known.command
        → ∀ right ∈ host.genericMap, right.command = known.command → left.function = right.function

-----------------------------------------------------------------------------------------
-- The lookups
-----------------------------------------------------------------------------------------

/-- A command of the protocol that no table serves is answered as not implemented and makes the next
block swallowed.
-/
theorem notServed_of_some {cmd : Bytes} {command : EmulatorCommand}
    (found : lookupCommand cmd = some command)
    : notServed cmd = (ascii "Invalid command or not implemented", -1) := by
  obtain ⟨known, member, -, named⟩ := lookupCommand_some found
  exact if_pos (List.any_eq_true.mpr ⟨known, member, decide_eq_true named⟩)

/-- A name that is no command of the protocol is answered as invalid. -/
theorem notServed_of_none {cmd : Bytes} (missing : lookupCommand cmd = none)
    : notServed cmd = (ascii "Invalid command", 0) := by
  refine if_neg ?_
  simpa using lookupCommand_none.mp missing

section Lookups

variable {host : Host Emulator} {cmd : Bytes}

/-- Without a custom entry whose name begins the command, only the builtin map counts. -/
theorem Registered.builtin {target : Target} {handler : Handler Emulator}
    (registered : Registered host cmd target handler)
    (noCustom : lookupCustom host.customMap 0 cmd = none)
    : ∃ entry ∈ host.genericMap,
        target = .generic entry.command
        ∧ handler = entry.function
        ∧ ∃ known ∈ commandStrings, known.command = entry.command ∧ known.string = cmd := by
  cases registered with
  | @custom index entry here named =>
      have begins : entry.string <+: cmd := named ▸ List.prefix_rfl
      exact absurd (List.isPrefixOf_iff_prefix.mpr begins)
        (lookupCustom_none.mp noCustom entry (List.mem_of_getElem? here))
  | @generic entry member named => exact ⟨entry, member, rfl, rfl, named⟩

/-- A custom entry is the only one with its name. -/
theorem Host.DistinctNames.only (distinct : host.DistinctNames) {index : Nat}
    {entry : CustomEntry Emulator} (here : host.customMap[index]? = some entry)
    (named : entry.string = cmd) {target : Target} {handler : Handler Emulator}
    (registered : Registered host cmd target handler)
    : target = .custom index ∧ handler = entry.function := by
  cases registered with
  | @custom other twin there same =>
      obtain ⟨within, -⟩ := List.getElem?_eq_some_iff.mp there
      obtain rfl : other = index := by
        refine (List.getElem?_inj ?_ distinct.custom).mp ?_
        · rwa [List.length_map]
        · rw [List.getElem?_map, List.getElem?_map, here, there, Option.map_some, Option.map_some,
            named, same]
      cases here.symm.trans there
      exact ⟨rfl, rfl⟩
  | @generic other member name =>
      obtain ⟨known, listed, -, same⟩ := name
      exact absurd (named.trans same.symm)
        (distinct.builtin entry (List.mem_of_getElem? here) known listed)

/-- The exact condition says that the first custom entry whose name begins the command has its
name.
-/
theorem Host.ExactFirst.named (exactFirst : host.ExactFirst cmd)
    {front rest : List (CustomEntry Emulator)} {entry : CustomEntry Emulator}
    (split : host.customMap = front ++ entry :: rest) (begins : entry.string <+: cmd)
    (before : ∀ other ∈ front, ¬ other.string <+: cmd)
    : entry.string = cmd := by
  by_contra longer
  obtain ⟨exact_, member, rfl⟩ := exactFirst front entry rest split begins longer
  exact before exact_ member List.prefix_rfl

/-- Conversely, if the first such entry has the name, all others stand behind it. -/
theorem Host.exactFirst_of_named {front rest : List (CustomEntry Emulator)}
    {entry : CustomEntry Emulator} (split : host.customMap = front ++ entry :: rest)
    (before : ∀ other ∈ front, ¬ other.string <+: cmd) (named : entry.string = cmd)
    : host.ExactFirst cmd := by
  intro start other later same begins longer
  rw [split, List.append_eq_append_iff] at same
  rcases same with ⟨middle, rfl, tail⟩ | ⟨middle, rfl, tail⟩
  · cases middle with
    | nil =>
        cases tail
        exact absurd named longer
    | cons first middle =>
        cases tail
        exact ⟨entry, by simp, named⟩
  · cases middle with
    | nil =>
        cases tail
        exact absurd named longer
    | cons first middle =>
        cases tail
        exact absurd begins (before other (by simp))

/-- A name that no custom entry matches needs nothing of the order of the custom entries. -/
theorem Host.exactFirst_of_none (noCustom : lookupCustom host.customMap 0 cmd = none)
    : host.ExactFirst cmd := by
  intro front entry rest split begins
  refine absurd ?_ (lookupCustom_none.mp noCustom entry (by simp [split]))
  rwa [List.isPrefixOf_iff_prefix]

end Lookups

-----------------------------------------------------------------------------------------
-- One order of the entries
-----------------------------------------------------------------------------------------

section Dispatch

variable {host : Host Emulator} {client : Client} {cmd : Bytes} {args : List Bytes}
  {emulator : Emulator}

/-- A name that is dispatched exactly has one function. -/
theorem DispatchesExactly.oneFunction
    (exactly : DispatchesExactly host client cmd args emulator)
    : host.OneFunction cmd := by
  intro known listed named left leftMember leftSame right rightMember rightSame
  have first : Registered host cmd (.generic left.command) left.function :=
    .generic leftMember ⟨known, listed, leftSame.symm, named⟩
  have second : Registered host cmd (.generic right.command) right.function :=
    .generic rightMember ⟨known, listed, rightSame.symm, named⟩
  rcases exactly with ⟨_, _, _, -, only, -⟩ | ⟨_, none_, -⟩
  · exact (only _ _ first).2.trans (only _ _ second).2.symm
  · exact absurd first (none_ _ _)

/-- A name that is dispatched exactly is found first by the entry that has it whole. -/
theorem DispatchesExactly.exactFirst
    (exactly : DispatchesExactly host client cmd args emulator)
    : host.ExactFirst cmd := by
  cases found : lookupCustom host.customMap 0 cmd with
  | none => exact Host.exactFirst_of_none found
  | some hit =>
      obtain ⟨index, entry⟩ := hit
      obtain ⟨front, rest, split, rfl, -, before⟩ := lookupCustom_split found
      have runs := executeCommand_eq host client cmd args emulator
      rw [resolve, found] at runs
      rcases exactly with ⟨target, handler, last, registered, -, run⟩ | ⟨last, -, run⟩
      · rw [run] at runs
        have events := congrArg Reaction.emitted runs
        simp only [Reaction.emitted_emit, Resolution.serve, List.cons.injEq, Event.handled.injEq]
          at events
        rw [events.2.1.2.1] at registered
        generalize position : Target.custom (0 + front.length) = target at registered
        cases registered with
        | @custom index other here named =>
            cases position
            rw [split, Nat.zero_add, List.getElem?_append_right (Nat.le_refl _), Nat.sub_self,
              List.getElem?_cons_zero] at here
            cases here
            exact Host.exactFirst_of_named split before named
        | generic => cases position
      · rw [run] at runs
        have events := congrArg Reaction.emitted runs
        simp [Resolution.serve] at events

/-- The builtin function is called if there is no custom entry for the command. -/
theorem dispatchesExactly_builtin (noCustom : lookupCustom host.customMap 0 cmd = none)
    (oneFunction : host.OneFunction cmd)
    : DispatchesExactly host client cmd args emulator := by
  have runs := executeCommand_eq host client cmd args emulator
  rw [resolve, noCustom] at runs
  cases builtin : lookupCommand cmd with
  | none =>
      rw [builtin] at runs
      refine Or.inr ⟨_, ?_, by rw [notServed_of_none builtin]; exact runs⟩
      intro target handler registered
      obtain ⟨entry, -, -, -, known, listed, -, named⟩ := registered.builtin noCustom
      exact lookupCommand_none.mp builtin known listed named
  | some command =>
      obtain ⟨known, listed, same, named⟩ := lookupCommand_some builtin
      rw [builtin] at runs
      dsimp only at runs
      cases found : host.genericMap.find? (fun entry => entry.command = command) with
      | none =>
          rw [found] at runs
          refine Or.inr ⟨_, ?_, by rw [notServed_of_some builtin]; exact runs⟩
          intro target handler registered
          obtain ⟨entry, member, -, -, other, here, there, spelled⟩ := registered.builtin noCustom
          have missing := List.find?_eq_none.mp found entry member
          have alike := commandStrings_injective other here known listed (spelled.trans named.symm)
          exact missing (decide_eq_true (there.symm.trans (alike.trans same)))
      | some entry =>
          rw [found] at runs
          have member := List.mem_of_find?_eq_some found
          obtain rfl : entry.command = command := by simpa using List.find?_some found
          refine Or.inl ⟨_, _, _, .generic member ⟨known, listed, same, named⟩, ?_, runs⟩
          intro target function registered
          obtain ⟨twin, there, rfl, rfl, other, here, alike, spelled⟩ :=
            registered.builtin noCustom
          have command : twin.command = known.command :=
            alike.symm.trans
              (commandStrings_injective other here known listed (spelled.trans named.symm))
          rw [command, same]
          exact ⟨rfl, oneFunction known listed named twin there command entry member same.symm⟩

/-- In one order of the entries. -/
theorem dispatchesExactly_iff (distinct : host.DistinctNames)
    : DispatchesExactly host client cmd args emulator
      ↔ host.ExactFirst cmd ∧ host.OneFunction cmd := by
  refine ⟨fun exactly => ⟨exactly.exactFirst, exactly.oneFunction⟩, ?_⟩
  rintro ⟨exactFirst, oneFunction⟩
  cases found : lookupCustom host.customMap 0 cmd with
  | none => exact dispatchesExactly_builtin found oneFunction
  | some hit =>
      obtain ⟨index, entry⟩ := hit
      obtain ⟨front, rest, split, rfl, begins, before⟩ := lookupCustom_split found
      have runs := executeCommand_eq host client cmd args emulator
      rw [resolve, found] at runs
      have named := exactFirst.named split begins before
      have here : host.customMap[0 + front.length]? = some entry := by
        rw [split, Nat.zero_add, List.getElem?_append_right (Nat.le_refl _), Nat.sub_self,
          List.getElem?_cons_zero]
      exact Or.inl ⟨_, _, _, .custom here named, fun _ _ => distinct.only here named, runs⟩

end Dispatch

-----------------------------------------------------------------------------------------
-- Every order of the entries
-----------------------------------------------------------------------------------------

namespace Host.Reordered

variable {host other : Host Emulator}

/-- A host is a reordering of itself. -/
theorem refl (host : Host Emulator) : host.Reordered host := ⟨.rfl, .rfl, rfl⟩

/-- A reordering can be undone. -/
theorem symm (reordered : host.Reordered other) : other.Reordered host :=
  ⟨reordered.generic.symm, reordered.custom.symm, reordered.write.symm⟩

/-- Reordering the tables keeps their names distinct. -/
theorem distinctNames (reordered : host.Reordered other) (distinct : host.DistinctNames)
    : other.DistinctNames where
  custom := (reordered.custom.map _).nodup_iff.mpr distinct.custom
  builtin := fun entry member => distinct.builtin entry (reordered.custom.mem_iff.mp member)

/-- Reordering the tables keeps the one function of a name. -/
theorem oneFunction (reordered : host.Reordered other) {cmd : Bytes}
    (one : host.OneFunction cmd)
    : other.OneFunction cmd :=
  fun known listed named left leftMember leftSame right rightMember =>
    one known listed named left (reordered.generic.mem_iff.mp leftMember) leftSame right
      (reordered.generic.mem_iff.mp rightMember)

/-- Reordered tables register the same functions under a name. -/
theorem registered (reordered : host.Reordered other) {cmd : Bytes} {target : Target}
    {handler : Handler Emulator} (here : Registered host cmd target handler)
    : ∃ target, Registered other cmd target handler := by
  cases here with
  | @custom index entry here named =>
      have member := reordered.custom.mem_iff.mpr (List.mem_of_getElem? here)
      obtain ⟨index, there⟩ := List.mem_iff_getElem?.mp member
      exact ⟨_, .custom there named⟩
  | @generic entry member named =>
      exact ⟨_, .generic (reordered.generic.mem_iff.mpr member) named⟩

/-- Two orders in which the command is dispatched exactly lead to the same. -/
theorem outcome (reordered : host.Reordered other) {client : Client} {cmd : Bytes}
    {args : List Bytes} {emulator : Emulator}
    (left : DispatchesExactly host client cmd args emulator)
    (right : DispatchesExactly other client cmd args emulator)
    : outcome (executeCommand other client cmd args emulator)
      = outcome (executeCommand host client cmd args emulator) := by
  rcases left with ⟨target, handler, _, registered, -, run⟩ | ⟨_, none_, run⟩
  · obtain ⟨_, there⟩ := reordered.registered registered
    rcases right with ⟨_, function, _, -, only, again⟩ | ⟨_, none_, -⟩
    · obtain rfl := (only _ _ there).2
      rw [run, again]
      rfl
    · exact absurd there (none_ _ _)
  · rcases right with ⟨_, function, _, registered, -, -⟩ | ⟨_, -, again⟩
    · obtain ⟨_, here⟩ := reordered.symm.registered registered
      exact absurd here (none_ _ _)
    · rw [run, again, reordered.write]
      rfl

end Host.Reordered

/-- For any tables whose custom names are distinct from each other and from the builtin ones: the
command is dispatched exactly if and only if no custom name that is a proper prefix of it stands
before its own. That it is in every order of the entries, and always with the same outcome, means
that there is no such name.
-/
theorem dispatches_exactly_iff (host : Host Emulator) (distinct : host.DistinctNames)
    (client : Client) (cmd : Bytes) (args : List Bytes) (emulator : Emulator)
    : (DispatchesExactly host client cmd args emulator
        ↔ host.ExactFirst cmd ∧ host.OneFunction cmd)
      ∧ ((∀ other : Host Emulator,
            host.Reordered other
            → DispatchesExactly other client cmd args emulator
              ∧ outcome (executeCommand other client cmd args emulator)
                = outcome (executeCommand host client cmd args emulator))
        ↔ (∀ entry ∈ host.customMap, entry.string <+: cmd → entry.string = cmd)
          ∧ host.OneFunction cmd) := by
  refine ⟨dispatchesExactly_iff distinct, ?_, ?_⟩
  · intro always
    refine ⟨?_, (always host (.refl host)).1.oneFunction⟩
    intro entry member begins
    by_contra longer
    obtain ⟨front, rest, split⟩ := List.append_of_mem member
    -- The entry comes first in this order.
    have reordered : host.Reordered { host with customMap := entry :: (front ++ rest) } :=
      ⟨.rfl, by rw [split]; exact List.perm_middle.symm, rfl⟩
    obtain ⟨_, none_, -⟩ :=
      (always _ reordered).1.exactFirst [] entry (front ++ rest) rfl begins longer
    cases none_
  · rintro ⟨noPrefix, oneFunction⟩ other reordered
    have exactly (order : Host Emulator) (reordered : host.Reordered order)
        : DispatchesExactly order client cmd args emulator := by
      refine (dispatchesExactly_iff (reordered.distinctNames distinct)).mpr
        ⟨?_, reordered.oneFunction oneFunction⟩
      intro front entry rest split begins longer
      have member : entry ∈ order.customMap := by simp [split]
      exact absurd (noPrefix entry (reordered.custom.mem_iff.mp member) begins) longer
    exact ⟨exactly other reordered,
      reordered.outcome (exactly host (.refl host)) (exactly other reordered)⟩

/-- A custom entry whose name begins a command of the protocol. -/
def loadEntry : CustomEntry Unit := ⟨ascii "LOAD", by decide, fun _ _ _ => (1, ())⟩

/-- An embedding program with the custom command `LOAD` and the builtin `LOAD_GAME`. -/
def loadHost : Host Unit := {
  genericMap := [⟨.loadGame, fun _ _ _ => (0, ())⟩]
  customMap := [loadEntry]
  writeFunction := fun _ _ _ => (true, ())
  write := fun _ _ _ => ()
}

/-- The names of the host's tables are distinct. -/
theorem loadHost_distinctNames : loadHost.DistinctNames where
  custom := by decide
  builtin := by decide

/-- `LOAD` is dispatched exactly, in every order. -/
theorem dispatches_exactly_load
    : DispatchesExactly loadHost Client.zero (ascii "LOAD") [] () :=
  (dispatches_exactly_iff loadHost loadHost_distinctNames Client.zero (ascii "LOAD") [] ()).1.mpr
    ⟨
      Host.exactFirst_of_named (show loadHost.customMap = [] ++ loadEntry :: [] from rfl) nofun rfl,
      fun _ _ _ left leftMember _ right rightMember _ => by
        rw [List.mem_singleton.mp leftMember, List.mem_singleton.mp rightMember]
    ⟩

/-- `LOAD_GAME` is served by the function of `LOAD`. -/
theorem dispatches_to_proper_prefix
    : ¬ DispatchesExactly loadHost Client.zero (ascii "LOAD_GAME") [] () := by
  intro exactly
  obtain ⟨_, none_, -⟩ := exactly.exactFirst [] _ [] rfl (by decide) (by decide)
  cases none_

end NetworkAccess
