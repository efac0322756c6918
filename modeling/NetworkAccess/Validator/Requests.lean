import NetworkAccess.Server.Arguments
import NetworkAccess.Server.Preprocess

/-! The requests that the protocol validator writes: command lines with their arguments,
and binary blocks behind `bCORE_WRITE`.
-/

namespace NetworkAccess

/-- `execute_command` and `execute_raw_command`. -/
def executeRawCommand (cmd : Bytes) : Option Bytes → Bytes
  | none => cmd ++ [newline]
  | some argString => cmd ++ space :: argString ++ [newline]

/-- The zero byte and the four bytes of the size that `send_data` puts before the data. -/
def blockHeader (size : Nat) : Bytes := [
  0,
  UInt8.ofNat (size >>> 24 &&& 0xFF),
  UInt8.ofNat (size >>> 16 &&& 0xFF),
  UInt8.ofNat (size >>> 8 &&& 0xFF),
  UInt8.ofNat (size &&& 0xFF)
]

/-- `send_data`. -/
def sendData (data : Bytes) : Bytes :=
  blockHeader data.length ++ data

/-- Arguments in one string, with semicolons between them. -/
def joinArgs : List Bytes → Option Bytes
  | [] => none
  | [arg] => some arg
  | arg :: next :: rest =>
      (joinArgs (next :: rest)).map (fun tail => arg ++ semicolon :: tail)

/-- The name of the request that writes. -/
def bCoreWriteName : Bytes := ascii "bCORE_WRITE"

/-- A request of the validator. -/
inductive Request where
  | text (name : Bytes) (args : List Bytes)
  | write (args : List Bytes) (data : Bytes)
deriving DecidableEq

/-- The name in the line of a request. -/
def Request.name : Request → Bytes
  | .text name _ => name
  | .write _ _ => bCoreWriteName

/-- The arguments in the line of a request. -/
def Request.args : Request → List Bytes
  | .text _ args | .write args _ => args

/-- Whether no block follows the line. -/
def Request.isText : Request → Bool
  | .text _ _ => true
  | .write _ _ => false

/-- The line of a request. -/
def Request.line (request : Request) : Bytes :=
  executeRawCommand request.name (joinArgs request.args)

/-- The bytes of a request, which are its line and its block. -/
def Request.encode (request : Request) : Bytes :=
  match request with
  | .text _ _ => request.line
  | .write _ data => request.line ++ sendData data

/-- Arguments that a line can carry. -/
structure SendableArgs (args : List Bytes) : Prop where
  few : args.length ≤ maxArgs
  clean : ∀ arg ∈ args, semicolon ∉ arg ∧ newline ∉ arg ∧ (0 : UInt8) ∉ arg
  first : ∀ arg, args.head? = some arg → arg.head? ≠ some space

/-- A name that begins a line. -/
structure SendableName (name : Bytes) : Prop where
  starts : ∃ letter rest, name = letter :: rest ∧ startsCommand letter
  clean : space ∉ name ∧ newline ∉ name ∧ (0 : UInt8) ∉ name

/-- A request that the protocol allows. -/
def Request.Sendable (request : Request) : Prop :=
  SendableName request.name
  ∧ SendableArgs request.args
  ∧ request.line.length ≤ 2048
  ∧ match request with
    | .text name _ => name.head? ≠ some lowerB
    | .write _ data => 1 ≤ data.length ∧ data.length < 2 ^ 32

/-- Requests are text requests, or text requests, a block and further requests. -/
theorem Request.block_induction {motive : List Request → Prop}
    (texts : ∀ requests, (∀ request ∈ requests, request.isText) → motive requests)
    (block
      : ∀ texts args data rest,
          (∀ request ∈ texts, request.isText)
          → motive rest
          → motive (texts ++ .write args data :: rest))
    (requests : List Request)
    : motive requests := by
  suffices early : ∀ done, (∀ request ∈ done, request.isText) → motive (done ++ requests) from
    early [] nofun
  induction requests with
  | nil =>
      intro done plain
      rw [List.append_nil]
      exact texts done plain
  | cons request rest ih =>
      intro done plain
      cases request with
      | text name args =>
          rw [List.append_cons]
          refine ih _ (fun request member => ?_)
          rcases List.mem_append.mp member with before | here
          · exact plain request before
          · cases List.mem_singleton.mp here
            rfl
      | write args data => exact block done args data rest plain (ih [] nofun)

-----------------------------------------------------------------------------------------
-- The tokenizer reads what the validator wrote
-----------------------------------------------------------------------------------------

/-- Only a line without arguments has no argument string. -/
theorem joinArgs_eq_none {args : List Bytes} (none_ : joinArgs args = none) : args = [] := by
  induction args with
  | nil => rfl
  | cons arg rest ih =>
      cases rest with
      | nil => cases none_
      | cons next more =>
          rw [joinArgs, Option.map_eq_none_iff] at none_
          cases ih none_

/-- The bytes of an argument are stored one after the other. -/
theorem splitArgs_arg {arg : Bytes} (clean : semicolon ∉ arg ∧ newline ∉ arg) (rest : Bytes)
    (index : Nat) (current : Bytes) (fits : current.length + arg.length ≤ argSize)
    : splitArgs (arg ++ rest) index current = splitArgs rest index (current ++ arg) := by
  induction arg generalizing current with
  | nil => rw [List.nil_append, List.append_nil]
  | cons first more ih =>
      obtain ⟨noSemicolon, noNewline⟩ := clean
      rw [List.mem_cons, not_or] at noSemicolon noNewline
      rw [List.length_cons] at fits
      rw [List.cons_append, splitArgs, if_neg (by omega), if_neg (Ne.symm noNewline.1),
        if_neg (Ne.symm noSemicolon.1), ih ⟨noSemicolon.2, noNewline.2⟩ _
          (by rw [List.length_append, List.length_singleton]; omega),
        List.append_assoc, List.singleton_append]

/-- The argument loop gives back the arguments that were joined, by induction on them. -/
theorem splitArgs_joined {args : List Bytes} {joined : Bytes}
    (join : joinArgs args = some joined)
    (clean : ∀ arg ∈ args, semicolon ∉ arg ∧ newline ∉ arg)
    (fits : joined.length < argSize) (index : Nat) (few : index + args.length ≤ maxArgs)
    : splitArgs (joined ++ [newline]) index [] = .ok args := by
  induction args generalizing joined index with
  | nil => cases join
  | cons arg rest ih =>
      have here := clean arg List.mem_cons_self
      cases rest with
      | nil =>
          cases join
          rw [splitArgs_arg here _ _ _ (by rw [List.length_nil]; omega), List.nil_append,
            splitArgs, if_neg (by omega), if_pos rfl]
      | cons second more =>
          rw [joinArgs, Option.map_eq_some_iff] at join
          obtain ⟨tail, joinTail, rfl⟩ := join
          rw [List.length_append, List.length_cons] at fits
          rw [List.length_cons, List.length_cons] at few
          rw [List.append_assoc, List.cons_append,
            splitArgs_arg here _ _ _ (by rw [List.length_nil]; omega), List.nil_append,
            splitArgs, if_neg (by omega), if_neg (by decide), if_pos rfl, if_pos (by omega),
            ih joinTail (fun arg member => clean arg (List.mem_cons_of_mem _ member)) (by omega)
              (index + 1) (by rw [List.length_cons]; omega)]
          rfl

/-- Trimming the spaces behind the name leaves the arguments alone. -/
theorem dropWhile_joined {args : List Bytes} {joined : Bytes}
    (join : joinArgs args = some joined)
    (first : ∀ arg, args.head? = some arg → arg.head? ≠ some space)
    : (space :: joined ++ [newline]).dropWhile (· = space) = joined ++ [newline] := by
  have begins : (joined ++ [newline]).head? ≠ some space := by
    cases args with
    | nil => cases join
    | cons arg rest =>
        have arg_ := first arg rfl
        cases rest with
        | nil =>
            cases join
            cases joined with
            | nil => decide
            | cons letter more => simpa using arg_
        | cons next more =>
            rw [joinArgs, Option.map_eq_some_iff] at join
            obtain ⟨tail, -, rfl⟩ := join
            cases arg with
            | nil => simp [semicolon, space]
            | cons letter more => simpa using arg_
  rw [List.cons_append, List.dropWhile_cons, if_pos (by simp)]
  cases whole : joined ++ [newline] with
  | nil => rfl
  | cons letter rest =>
      rw [whole, List.head?_cons, ne_eq, Option.some.injEq] at begins
      rw [List.dropWhile_cons, if_neg (by simpa using begins)]

/-- The tokenizer gives back the name and the arguments of a line. -/
theorem tokenize_executeRawCommand {name : Bytes} {args : List Bytes}
    (clean : space ∉ name ∧ newline ∉ name ∧ (0 : UInt8) ∉ name)
    (sendable : SendableArgs args)
    (fits : (executeRawCommand name (joinArgs args)).length ≤ 2048)
    : tokenize (executeRawCommand name (joinArgs args)) = .ok (name, args) := by
  have noBreak := And.intro clean.1 clean.2.1
  cases join : joinArgs args with
  | none =>
      rw [executeRawCommand, tokenize, splitName_clean noBreak (.inr rfl) [],
        joinArgs_eq_none join]
      simp only [cString_clean clean.2.2, ne_eq, not_true_eq_false, decide_false,
        Bool.false_eq_true, if_false]
  | some joined =>
      rw [join, executeRawCommand, List.length_append, List.length_append, List.length_cons] at fits
      have args_ := splitArgs_joined join
        (fun arg member => (sendable.clean arg member).imp_right And.left)
        (by rw [argSize]; omega) 0 (by have few := sendable.few; omega)
      rw [executeRawCommand, tokenize, List.append_assoc,
        List.cons_append, splitName_clean noBreak (.inl rfl)]
      simp only [cString_clean clean.2.2, List.drop_left]
      rw [← List.cons_append, dropWhile_joined join sendable.first, args_]
      rfl

/-- Arguments without newlines are joined without one. -/
theorem newline_notMem_joined {args : List Bytes} {joined : Bytes}
    (join : joinArgs args = some joined) (clean : ∀ arg ∈ args, newline ∉ arg)
    : newline ∉ joined := by
  induction args generalizing joined with
  | nil => cases join
  | cons arg rest ih =>
      have here := clean arg List.mem_cons_self
      cases rest with
      | nil =>
          cases join
          exact here
      | cons next more =>
          rw [joinArgs, Option.map_eq_some_iff] at join
          obtain ⟨tail, joinTail, rfl⟩ := join
          rw [List.mem_append, List.mem_cons, not_or, not_or]
          exact ⟨here, by decide,
            ih joinTail (fun arg member => clean arg (List.mem_cons_of_mem _ member))⟩

/-- A line ends with its only newline. -/
theorem executeRawCommand_line {name : Bytes} {args : List Bytes} (noNewline : newline ∉ name)
    (clean : ∀ arg ∈ args, newline ∉ arg)
    : ∃ body,
        executeRawCommand name (joinArgs args) = body ++ [newline]
        ∧ newline ∉ body
        ∧ (name ≠ [] → body.head? = name.head?) := by
  cases join : joinArgs args with
  | none => exact ⟨name, rfl, noNewline, fun _ => rfl⟩
  | some joined =>
      refine ⟨name ++ space :: joined, rfl, ?_, List.head?_append_of_ne_nil _⟩
      rw [List.mem_append, List.mem_cons, not_or, not_or]
      exact ⟨noNewline, by decide, newline_notMem_joined join clean⟩

/-- A header has five bytes. -/
theorem blockHeader_length (size : Nat) : (blockHeader size).length = 5 := rfl

/-- A block ends with the last byte of its data. -/
theorem sendData_concat {data : Bytes} (nonempty : data ≠ [])
    : sendData data
      = blockHeader data.length ++ data.dropLast ++ [data.getLast nonempty] := by
  rw [List.append_assoc, List.dropLast_append_getLast, sendData]

/-- Data without its last byte is shorter. -/
theorem length_dropLast_lt {data : Bytes} (positive : 1 ≤ data.length)
    : data.dropLast.length < data.length := by
  rw [List.length_dropLast]
  omega

/-- A size is read back from the header that announces it. -/
theorem networkSize_blockHeader {size : Nat} (fits : size < 2 ^ 32)
    : networkSize (blockHeader size) = size := by
  have low (value : Nat) : (UInt8.ofNat (value &&& 0xFF)).toNat = value % 256 := by
    rw [UInt8.toNat_ofNat', Nat.and_two_pow_sub_one_eq_mod value 8]
    omega
  simp only [networkSize, blockHeader, List.drop_succ_cons, List.drop_zero, List.foldl_cons,
    List.foldl_nil, low, Nat.shiftRight_eq_div_pow]
  omega

end NetworkAccess
