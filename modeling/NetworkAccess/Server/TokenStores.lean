import NetworkAccess.Server.Commands

/-! The memory that `process_command` touches while it tokenizes: every store into `cmd`, the
argument vector and the arguments, and what its cleanup loop frees. No store is checked here.
-/

namespace NetworkAccess

/-- One store. `allocated` tells that the pointer stored into the vector is a new buffer. -/
inductive Store where
  | cmd (index : Nat)
  | args (index : Nat) (allocated : Bool)
  | argument (index position : Nat)
deriving DecidableEq, Repr

/-- The first loop looks for the byte that ends the name. -/
def nameLength (line : Bytes) : Option Nat :=
  line.findIdx? (fun letter => letter = space ∨ letter = newline)

/-- `memcpy(cmd, cmd_block, i)` and `cmd[i] = 0`; a line without such a byte stores nothing. -/
def nameStores (line : Bytes) : List Store :=
  match nameLength line with
  | none => []
  | some i => (List.range i).map .cmd ++ [.cmd i]

/-- The argument loop at `args[arg_idx][arg_i]`, which runs up to the newline. -/
def argumentStores : Bytes → Nat → Nat → List Store
  | [], _, _ => []
  | letter :: rest, argIdx, argI =>
      if letter = newline then
        [.argument argIdx argI]
      else if letter = semicolon then
        .argument argIdx argI :: .args (argIdx + 1) true :: argumentStores rest (argIdx + 1) 0
      else
        .argument argIdx argI :: argumentStores rest argIdx (argI + 1)

/-- The variable `nb_arg` after the argument loop, which counts the semicolons up to the
newline.
-/
def countArguments : Bytes → Nat → Nat
  | [], nbArg => nbArg
  | letter :: rest, nbArg =>
      if letter = newline then
        nbArg
      else if letter = semicolon then
        countArguments rest (nbArg + 1)
      else
        countArguments rest nbArg

/-- All stores of one call in their order, and the indices that its cleanup loop frees. -/
structure TokenStores where
  stores : List Store
  freed : List Nat
deriving DecidableEq

/-- `cmd_has_arg` is cleared only where the name ends with the newline. -/
def tokenStores (line : Bytes) : TokenStores :=
  let name := line.take ((nameLength line).getD 0)
  let cmdHasArg := (nameLength line).bind (fun i => (line)[i]?) ≠ some newline
  let cmdBlock := line.drop (cString name).length
  if cmdHasArg then
    let text := cmdBlock.dropWhile (· = space)
    {
      stores := .args 0 false :: nameStores line ++ .args 0 true :: argumentStores text 0 0
      freed := List.range (countArguments text 1)
    }
  else
    {
      stores := .args 0 false :: nameStores line
      freed := []
    }

/-- A store stays inside its array: `cmd` has `command_data_size` bytes. -/
def Store.InBounds (commandDataSize : Nat) : Store → Prop
  | .cmd index => index < commandDataSize
  | .args index _ => index < maxArgs
  | .argument index position => index < maxArgs ∧ position < argSize

instance (commandDataSize : Nat) : DecidablePred (Store.InBounds commandDataSize)
  | .cmd index => inferInstanceAs (Decidable (index < commandDataSize))
  | .args index _ => inferInstanceAs (Decidable (index < maxArgs))
  | .argument index position => inferInstanceAs (Decidable (index < maxArgs ∧ position < argSize))

/-- The index of the argument buffer that a store allocates. -/
def Store.allocates : Store → Option Nat
  | .args index true => some index
  | _ => none

/-- No store leaves its array, and exactly the arguments that were allocated are freed. -/
def TokenStores.Safe (commandDataSize : Nat) (tokens : TokenStores) : Prop :=
  (∀ store ∈ tokens.stores, store.InBounds commandDataSize)
  ∧ tokens.freed = tokens.stores.filterMap Store.allocates

instance (commandDataSize : Nat) : DecidablePred (TokenStores.Safe commandDataSize) :=
  fun tokens =>
    inferInstanceAs
      (Decidable ((∀ store ∈ tokens.stores, store.InBounds commandDataSize) ∧ _))

end NetworkAccess
