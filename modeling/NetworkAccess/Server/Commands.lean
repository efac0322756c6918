import NetworkAccess.Server.Client

/-! From a complete command line to the handler that runs it: `process_command` with its
tokenizer, `execute_command` and `send_error`.
-/

namespace NetworkAccess

variable {Emulator : Type}

/-- The slots allocated for arguments. -/
def maxArgs : Nat := 20

/-- The bytes allocated for each argument. -/
def argSize : Nat := 2056

/-- The first loop: the bytes before the first space or newline, and whether it was a
space. Without either, `cmd` would stay uninitialised.
-/
def splitName : Bytes → Option (Bytes × Bool)
  | [] => none
  | letter :: rest =>
      if letter = space ∨ letter = newline then
        some ([], letter ≠ newline)
      else
        (splitName rest).map (fun (name, hasArg) => (letter :: name, hasArg))

/-- The argument loop, at `args[arg_idx][arg_i]` with `current` stored before it. Every
store is checked against the allocations; the bytes end with a newline.
-/
def splitArgs : Bytes → Nat → Bytes → Except Fault (List Bytes)
  | [], _, _ => .error .unterminatedLine
  | letter :: rest, argIdx, current =>
      if argSize ≤ current.length then
        .error .argumentLength
      else if letter = newline then
        .ok [current]
      else if letter = semicolon then
        if argIdx + 1 < maxArgs then
          (splitArgs rest (argIdx + 1) []).map (current :: ·)
        else
          .error .argumentCount
      else
        splitArgs rest argIdx (current ++ [letter])

/-- The command name and the arguments of a line. The arguments are looked for behind the
name as `strlen` measures it.
-/
def tokenize (line : Bytes) : Except Fault (Bytes × List Bytes) :=
  match splitName line with
  | none => .error .unterminatedLine
  | some (name, hasArg) =>
      let cmd := cString name
      if hasArg then
        (splitArgs ((line.drop cmd.length).dropWhile (· = space)) 0 []).map (cmd, ·)
      else
        .ok (cmd, [])

/-- The tokenizer stores into its own arrays only. -/
theorem splitArgs_fault {bytes current : Bytes} {index : Nat} {fault : Fault}
    (fails : splitArgs bytes index current = .error fault)
    : fault = .argumentCount ∨ fault = .argumentLength ∨ fault = .unterminatedLine := by
  induction bytes generalizing index current with
  | nil =>
      cases fails
      exact Or.inr (Or.inr rfl)
  | cons byte rest ih =>
      rw [splitArgs] at fails
      split at fails
      case isTrue =>
        cases fails
        exact Or.inr (Or.inl rfl)
      case isFalse =>
        split at fails
        case isTrue => cases fails
        case isFalse =>
          split at fails
          case isTrue =>
            split at fails
            case isTrue =>
              cases next : splitArgs rest (index + 1) [] with
              | error =>
                  rw [next] at fails
                  cases fails
                  exact ih next
              | ok => rw [next] at fails; cases fails
            case isFalse =>
              cases fails
              exact Or.inl rfl
          case isFalse => exact ih fails

/-- The tokenizer fails in one of three ways. -/
theorem tokenize_fault {line : Bytes} {fault : Fault} (fails : tokenize line = .error fault)
    : fault = .argumentCount ∨ fault = .argumentLength ∨ fault = .unterminatedLine := by
  rw [tokenize] at fails
  split at fails
  case h_1 =>
    cases fails
    exact Or.inr (Or.inr rfl)
  case h_2 name hasArg _ =>
    dsimp only at fails
    split at fails
    case isTrue =>
      cases args
          : splitArgs ((line.drop (cString name).length).dropWhile (· = space)) 0 [] with
      | error =>
          rw [args] at fails
          cases fails
          exact splitArgs_fault args
      | ok => rw [args] at fails; cases fails
    case isFalse => cases fails

/-- The name of a line begins as the line does, if that can begin a name. -/
theorem tokenize_head {line cmd : Bytes} {args : List Bytes} {letter : UInt8}
    (tokens : tokenize line = .ok (cmd, args)) (first : line.head? = some letter)
    (inside : ¬ (letter = space ∨ letter = newline)) (nonzero : letter ≠ 0)
    : cmd.head? = some letter := by
  obtain ⟨rest, rfl⟩ := List.head?_eq_some_iff.mp first
  rw [tokenize, splitName, if_neg inside] at tokens
  cases name : splitName rest with
  | none =>
      rw [name] at tokens
      cases tokens
  | some found =>
      have kept : (cString (letter :: found.1)).head? = some letter := by
        rw [cString, List.takeWhile_cons, if_pos (decide_eq_true nonzero), List.head?_cons]
      rw [name] at tokens
      simp only [Option.map_some] at tokens
      split at tokens
      case isTrue =>
        generalize splitArgs _ 0 [] = result at tokens
        cases result with
        | error => cases tokens
        | ok =>
            cases tokens
            exact kept
      case isFalse =>
        cases tokens
        exact kept

/-- The table lookup of `send_error`; its loop keeps the last match. -/
def errorTypeText (errorType : ErrorType) : Bytes :=
  errorTypeStrings.foldl
    (fun found entry => if errorType = entry.errorType then entry.string else found) []

/-- The formatted text, cut to the buffer that `to_send_size` allocates. -/
def errorReplyText (errorType : ErrorType) (reason : Bytes) : Bytes :=
  let kind := errorTypeText errorType
  let toSendSize :=
    1 + (ascii "error").length + 1 + kind.length + 1
      + (ascii "reason").length + 1 + reason.length + 1
      + 2
  (ascii "\nerror:" ++ kind ++ ascii "\nreason:" ++ reason ++ ascii "\n\n").take
    (toSendSize - 1)

/-- `send_error`. -/
def sendError (host : Host Emulator) (socket : SOCKET) (errorType : ErrorType)
    (reason : Bytes) (emulator : Emulator)
    : Turn Emulator Emulator :=
  .emit [.errorReply socket errorType reason]
    (host.write socket (errorReplyText errorType reason) emulator)

-----------------------------------------------------------------------------------------
-- execute_command
-----------------------------------------------------------------------------------------

/-- The builtin lookup: an exact `strcmp` against the table of names. -/
def lookupCommand (cmd : Bytes) : Option EmulatorCommand :=
  (commandStrings.find? (fun entry => entry.string = cmd)).map CommandString.command

/-- A builtin command that is found has the name. -/
theorem lookupCommand_some {cmd : Bytes} {command : EmulatorCommand}
    (found : lookupCommand cmd = some command)
    : ∃ known ∈ commandStrings, known.command = command ∧ known.string = cmd := by
  obtain ⟨known, here, rfl⟩ := Option.map_eq_some_iff.mp found
  exact ⟨known, List.mem_of_find?_eq_some here, rfl, by simpa using List.find?_some here⟩

/-- None is found exactly if no name is equal. -/
theorem lookupCommand_none {cmd : Bytes}
    : lookupCommand cmd = none ↔ ∀ known ∈ commandStrings, known.string ≠ cmd := by
  simp [lookupCommand]

/-- The custom lookup, from `index` on: `strncmp` over the length of the entry's name. -/
def lookupCustom : List (CustomEntry Emulator) → Nat → Bytes
    → Option (Nat × CustomEntry Emulator)
  | [], _, _ => none
  | entry :: rest, index, cmd =>
      if entry.string.isPrefixOf cmd then
        some (index, entry)
      else
        lookupCustom rest (index + 1) cmd

/-- The custom lookup finds the first entry whose name begins the command. -/
theorem lookupCustom_split {entries : List (CustomEntry Emulator)} {start index : Nat}
    {entry : CustomEntry Emulator} {cmd : Bytes}
    (found : lookupCustom entries start cmd = some (index, entry))
    : ∃ front rest,
        entries = front ++ entry :: rest
        ∧ index = start + front.length
        ∧ entry.string <+: cmd
        ∧ ∀ other ∈ front, ¬ other.string <+: cmd := by
  induction entries generalizing start with
  | nil => cases found
  | cons first later ih =>
      rw [lookupCustom] at found
      split at found
      case isTrue begins =>
        cases found
        exact ⟨[], later, rfl, rfl, List.isPrefixOf_iff_prefix.mp begins, List.forall_mem_nil _⟩
      case isFalse other =>
        obtain ⟨front, rest, rfl, rfl, begins, before⟩ := ih found
        refine ⟨first :: front, rest, rfl, ?_, begins, ?_⟩
        · rw [List.length_cons]
          omega
        · intro earlier member
          rcases List.mem_cons.mp member with rfl | member
          · rwa [← List.isPrefixOf_iff_prefix]
          · exact before earlier member

/-- A custom command that is found is one of the table. -/
theorem lookupCustom_mem {entries : List (CustomEntry Emulator)} {start index : Nat}
    {entry : CustomEntry Emulator} {cmd : Bytes}
    (found : lookupCustom entries start cmd = some (index, entry))
    : entry ∈ entries := by
  obtain ⟨front, rest, rfl, -⟩ := lookupCustom_split found
  exact List.mem_append_right front List.mem_cons_self

/-- None is found exactly if no name is the beginning of the text, by induction on the table. -/
theorem lookupCustom_none {entries : List (CustomEntry Emulator)} {start : Nat} {cmd : Bytes}
    : lookupCustom entries start cmd = none
      ↔ ∀ entry ∈ entries, ¬ entry.string.isPrefixOf cmd := by
  induction entries generalizing start with
  | nil => exact ⟨fun _ => List.forall_mem_nil _, fun _ => rfl⟩
  | cons first rest ih =>
      rw [lookupCustom, List.forall_mem_cons, ← ih]
      split
      case isTrue here =>
        refine ⟨fun found => ?_, fun both => absurd here both.1⟩
        cases found
      case isFalse other => exact ⟨fun found => ⟨other, found⟩, fun both => both.2⟩

/-- What `execute_command` leaves: its return value and the changed client. -/
structure Executed (Emulator : Type) where
  expectedSize : Int
  client : Client
  emulator : Emulator

/-- A custom match overrides a builtin one. `CUSTOM + i` is not reduced to 32 bits: no
table has so many entries.
-/
def executeCommand (host : Host Emulator) (client : Client) (cmd : Bytes)
    (args : List Bytes) (emulator : Emulator)
    : Turn Emulator (Executed Emulator) := do
  let socket := client.socketFd
  Reaction.emit [.command socket cmd args] ()
  match lookupCustom host.customMap 0 cmd, lookupCommand cmd with
  | some (index, entry), _ =>
      let client := { client with currentCommand := EmulatorCommand.custom.value + index }
      let (result, emulator) := entry.function socket args emulator
      .emit [.handled socket (.custom index) args result] ⟨result, client, emulator⟩
  | none, some command =>
      let client := { client with currentCommand := command.value }
      match host.genericMap.find? (fun entry => entry.command = command) with
      | some entry =>
          let (result, emulator) := entry.function socket args emulator
          .emit [.handled socket (.generic command) args result] ⟨result, client, emulator⟩
      | none =>
          let emulator ← sendError host socket .invalidCommand
            (ascii "Invalid command or not implemented") emulator
          pure ⟨-1, client, emulator⟩
  | none, none =>
      let emulator ← sendError host socket .invalidCommand (ascii "Invalid command") emulator
      pure ⟨0, client, emulator⟩

/-- Conversion to `unsigned int`. -/
def toUnsigned (value : Int) : Nat := (value % 2 ^ 32).toNat

/-- The line in `command_data` as `command_data_size` delimits it. -/
def Client.commandLine (client : Client) : Bytes :=
  client.commandData.toList.take client.commandDataSize

/-- `process_command`. -/
def processCommand (host : Host Emulator) (config : Config Emulator)
    : Turn Emulator (Config Emulator) :=
  match tokenize config.client.commandLine with
  | .error fault => .stop [] ⟨.undefined fault, config⟩
  | .ok (cmd, args) => do
      let executed ← executeCommand host config.client cmd args config.emulator
      let client := executed.client
      if client.state = .expectingBinaryData then
        let shallow := if executed.expectedSize < 0 then true else client.shallowBinaryBlock
        let size := if executed.expectedSize < 0 then executed.expectedSize * -1
          else executed.expectedSize
        let client := {
          client with
          shallowBinaryBlock := shallow
          expectedBlockSize := toUnsigned size
          binaryBlock := none
          binaryBlockSize := 0
          binaryHeaderSize := 0
        }
        pure ⟨client, config.unread, executed.emulator⟩
      else
        pure
          ⟨{ client with state := .waitingForCommand }, config.unread, executed.emulator⟩

end NetworkAccess
