import Mathlib.Data.List.Induction
import NetworkAccess.Library.Heap
import NetworkAccess.Library.Numerals
import NetworkAccess.Protocol.Defines

/-! The arguments of the commands on memory: numbers in two notations, and the list of ranges that
is built from them.
-/

namespace NetworkAccess

open Numerals

/-- `$`. -/
def dollar : UInt8 := 36

/-- `generic_poll_server_get_offset`. -/
def getOffset (offsetStr : Bytes) : Nat :=
  match cString offsetStr with
  | [] => 0
  | first :: rest =>
      if first = dollar then strtoull16 rest else (strtoll (first :: rest) % 2 ^ 64).toNat

/-- The fields of a range are `unsigned int`. -/
structure MemoryArgument where
  offset : Nat
  size : Nat
  next : Option Nat
deriving DecidableEq

/-- The loop over the arguments from `ag[i]` on. A use of a pointer without a cell gives `none`. -/
def parseArguments (ac : Nat)
    : List Bytes → Nat → Nat → Heap MemoryArgument → Option (Heap MemoryArgument)
  | [], _, _, heap => some heap
  | arg :: rest, i, cur, heap =>
      if i % 2 = 0 then do
        let heap ← heap.update cur (fun node => { node with offset := getOffset arg % 2 ^ 32 })
        parseArguments ac rest (i + 1) cur heap
      else do
        let heap ← heap.update cur (fun node => { node with size := getOffset arg % 2 ^ 32 })
        if i + 1 ≠ ac then
          let (fresh, heap) := heap.alloc ⟨0, 0, none⟩
          let heap ← heap.update cur (fun node => { node with next := some fresh })
          parseArguments ac rest (i + 1) fresh heap
        else
          parseArguments ac rest (i + 1) cur heap

/-- `generic_poll_server_parse_memory_argument`: the pointer that it returns, and the heap. -/
def parseMemoryArgument (ag : List Bytes) (heap : Heap MemoryArgument)
    : Option (Nat × Heap MemoryArgument) := do
  let (toret, heap) := heap.alloc ⟨0, 0, none⟩
  let heap ← parseArguments ag.length ag 0 toret heap
  pure (toret, heap)

/-- The loop that frees what stands behind the first range, and the addresses in their order. Its
condition reads `cur->next`, so it ends at the last range. A use of a pointer without a cell gives
`none`.
-/
def freeArguments (cur : Option Nat) (heap : Heap MemoryArgument)
    : Option (List Nat × Heap MemoryArgument) :=
  match cur with
  | none => some ([], heap)
  | some address =>
      match heap.read address with
      | none => none
      | some node =>
          match node.next with
          | none => some ([], heap)
          | some next =>
              match _ : heap.release address with
              | none => none
              | some rest =>
                  (freeArguments (some next) rest).map (Prod.map (address :: ·) id)
termination_by heap.live
decreasing_by exact Heap.live_release ‹_›

/-- `generic_poll_server_free_memory_argument`. -/
def freeMemoryArgument (tofree : Option Nat) (heap : Heap MemoryArgument)
    : Option (List Nat × Heap MemoryArgument) :=
  match tofree with
  | none => some ([], heap)
  | some address => do
      let node ← heap.read address
      let (freed, heap) ← freeArguments node.next heap
      let heap ← heap.release address
      pure (freed ++ [address], heap)

-----------------------------------------------------------------------------------------
-- Numbers
-----------------------------------------------------------------------------------------

/-- A number in decimal digits, or in hexadecimal ones behind a dollar sign. -/
inductive NumberText : Bytes → Nat → Prop
  | decimal {text value} (writes : Writes 10 text value) : NumberText text value
  | hexadecimal {text value} (writes : Writes 16 text value) : NumberText (dollar :: text) value

/-- A numeral has no NUL, so it is a C string as it is. -/
theorem Writes.cString {base : Nat} {text : Bytes} {value : Nat} (writes : Writes base text value)
    : cString text = text := by
  refine cString_clean (fun member => ?_)
  obtain ⟨digit, found, -⟩ := writes.digit member
  cases found

/-- A numeral behind a dollar has no NUL either. -/
theorem Writes.cString_dollar {base : Nat} {text : Bytes} {value : Nat}
    (writes : Writes base text value)
    : NetworkAccess.cString (dollar :: text) = dollar :: text := by
  have rest := Writes.cString writes
  rw [NetworkAccess.cString] at rest ⊢
  rw [List.takeWhile_cons, if_pos (by decide), rest]

/-- Every number is decoded up to the limit of its notation. -/
theorem getOffset_decimal_text {text : Bytes} {value : Nat} (writes : Writes 10 text value)
    : getOffset text = min value (2 ^ 63 - 1) := by
  obtain ⟨letter, rest, digit, rfl, found, -⟩ := writes.cons
  have noDollar : letter ≠ dollar := by
    rintro rfl
    cases found
  rw [getOffset, Writes.cString writes]
  simp only [if_neg noDollar, strtoll_writes writes]
  omega

/-- A dollar is followed by a hexadecimal number, which is bounded. -/
theorem getOffset_hexadecimal {text : Bytes} {value : Nat} (writes : Writes 16 text value)
    : getOffset (dollar :: text) = min value (2 ^ 64 - 1) := by
  rw [getOffset, Writes.cString_dollar writes]
  simp only [if_pos, strtoull16_writes writes]

/-- `get_offset` returns the number that a text writes. -/
theorem NumberText.getOffset {text : Bytes} {value : Nat} (number : NumberText text value)
    (fits : value < 2 ^ 63)
    : getOffset text = value := by
  cases number with
  | decimal writes =>
      rw [getOffset_decimal_text writes]
      omega
  | hexadecimal writes =>
      rw [getOffset_hexadecimal writes]
      omega

-----------------------------------------------------------------------------------------
-- The list
-----------------------------------------------------------------------------------------

/-- Numbers in pairs of an offset and a size, with zeros for those that are missing. -/
def rangesOf : List Nat → List (Nat × Nat)
  | [] => [(0, 0)]
  | [offset] => [(offset, 0)]
  | [offset, size] => [(offset, size)]
  | offset :: size :: next :: rest => (offset, size) :: rangesOf (next :: rest)

/-- A range, with the address of the next one. -/
def MemoryArgument.link (range : Nat × Nat) (next : Option Nat) : MemoryArgument :=
  ⟨range.1, range.2, next⟩

/-- The range of a node. -/
def MemoryArgument.range (node : MemoryArgument) : Nat × Nat := (node.offset, node.size)

/-- There is always a first range. -/
theorem rangesOf_ne_nil (values : List Nat) : rangesOf values ≠ [] := by
  fun_cases rangesOf values <;> exact List.cons_ne_nil _ _

/-- What is stored for an argument. -/
def storedNumber (arg : Bytes) : Nat := getOffset arg % 2 ^ 32

open Heap in

/-- From an even argument on, the loop appends the ranges of the rest: by induction on pairs of
arguments, with the cells that are finished among those before.
-/
theorem parseArguments_eq (ac : Nat) (args : List Bytes) {i : Nat} (even : i % 2 = 0)
    (rest : i + args.length = ac) (before : Heap MemoryArgument)
    : parseArguments ac args i before.length (before ++ [some ⟨0, 0, none⟩])
      = some
        (before
          ++ contents
            (linked MemoryArgument.link before.length (rangesOf (args.map storedNumber)))) := by
  induction args using List.twoStepInduction generalizing i before with
  | nil => rfl
  | singleton arg =>
      rw [parseArguments, if_pos even, Heap.update_append]
      rfl
  | cons_cons first second args ih _ =>
      have odd : ¬ (i + 1) % 2 = 0 := by omega
      rw [parseArguments, if_pos even, Heap.update_append]
      simp only [Option.bind_eq_bind, Option.bind_some]
      rw [parseArguments, if_neg odd, Heap.update_append]
      simp only [Option.bind_eq_bind, Option.bind_some]
      cases args with
      | nil =>
          rw [if_neg (by simpa using rest)]
          rfl
      | cons third args =>
          let range := (storedNumber first, storedNumber second)
          let node := MemoryArgument.link range (some (before.length + 1))
          have more : i + 1 + 1 ≠ ac := by
            simp only [List.length_cons] at rest
            omega
          have length : i + 2 + (third :: args).length = ac := by
            simp only [List.length_cons] at rest ⊢
            omega
          have behind := ih (by omega) length (before ++ [some node])
          rw [List.length_append, List.length_singleton, List.append_assoc, List.append_assoc]
            at behind
          rw [if_pos more]
          simp only [Heap.alloc, List.length_append, List.length_singleton, List.append_assoc,
            List.singleton_append, Heap.update_append, Option.bind_some]
          refine behind.trans ?_
          have ranges : rangesOf ((first :: second :: third :: args).map storedNumber)
              = range :: rangesOf ((third :: args).map storedNumber) := rfl
          rw [ranges, linked_cons _ _ _ (rangesOf_ne_nil _)]
          rfl

/-- The list is allocated behind what there was, and nothing else changes. -/
theorem parseMemoryArgument_eq (ag : List Bytes) (heap : Heap MemoryArgument)
    : parseMemoryArgument ag heap
      = some
        (
          heap.length,
          heap
            ++ Heap.contents
              (Heap.linked MemoryArgument.link heap.length (rangesOf (ag.map storedNumber)))
        ) := by
  simp only [parseMemoryArgument, Heap.alloc, Option.bind_eq_bind, Option.pure_def]
  rw [parseArguments_eq _ _ (Nat.zero_mod 2) (Nat.zero_add _) heap]
  rfl

/-- The returned pointer leads through `nodes`, which hold the ranges, to `NULL`. -/
def ParsesTo (ag : List Bytes) (heap : Heap MemoryArgument) (nodes : List (Nat × MemoryArgument))
    : Prop :=
  ∃ pointer after,
    parseMemoryArgument ag heap = some (pointer, after)
    ∧ Heap.Chain MemoryArgument.next after (some pointer) nodes

/-- The list of the parser is linked in the order of its ranges, behind what was allocated before.
-/
theorem parsesTo_linked (ag : List Bytes) (heap : Heap MemoryArgument)
    : ParsesTo ag heap
        (Heap.linked MemoryArgument.link heap.length (rangesOf (ag.map storedNumber))) :=
  ⟨_, _, parseMemoryArgument_eq ag heap,
    Heap.chain_linked (fun _ _ => rfl) heap (rangesOf_ne_nil _)⟩

/-- There is one such list, and its ranges are the stored numbers in pairs. -/
theorem ParsesTo.ranges {ag : List Bytes} {heap : Heap MemoryArgument}
    {nodes : List (Nat × MemoryArgument)} (parses : ParsesTo ag heap nodes)
    : nodes.map (fun node => node.2.range) = rangesOf (ag.map storedNumber) := by
  obtain ⟨pointer, after, run, chain⟩ := parses
  obtain ⟨other, last, again, linked⟩ := parsesTo_linked ag heap
  cases run.symm.trans again
  rw [chain.unique linked]
  exact Heap.linked_map (fun _ _ => rfl) _ _

-----------------------------------------------------------------------------------------
-- The release
-----------------------------------------------------------------------------------------

/-- The release of a list stops at its last node, which is not freed. -/
theorem freeArguments_last {address : Nat} {node : MemoryArgument} {heap : Heap MemoryArgument}
    (here : heap.read address = some node) (last : node.next = none)
    : freeArguments (some address) heap = some ([], heap) := by
  rw [freeArguments, here]
  simp only [last]

/-- Any other node is freed, and the release goes on with the next one. -/
theorem freeArguments_next {address next : Nat} {node : MemoryArgument}
    {heap rest : Heap MemoryArgument} (here : heap.read address = some node)
    (leads : node.next = some next) (releases : heap.release address = some rest)
    : freeArguments (some address) heap
      = (freeArguments (some next) rest).map (Prod.map (address :: ·) id) := by
  rw [freeArguments, here]
  simp only [leads]
  split
  case h_1 none_ =>
    rw [releases] at none_
    cases none_
  case h_2 freed =>
    cases releases.symm.trans freed
    rfl

/-- The loop frees the nodes of a chain up to the last one: by induction on the chain, which the
release of its first node leaves as it is behind this node.
-/
theorem freeArguments_chain {cur : Option Nat} {heap : Heap MemoryArgument}
    {nodes : List (Nat × MemoryArgument)} (chain : Heap.Chain MemoryArgument.next heap cur nodes)
    : let freed := (nodes.map Prod.fst).dropLast
      ∃ after, freeArguments cur heap = some (freed, after) ∧ Heap.Released freed heap after := by
  induction nodes generalizing cur heap with
  | nil =>
      cases chain
      refine ⟨heap, ?_, .nil heap⟩
      rw [freeArguments]
      rfl
  | cons node rest ih =>
      have distinct := chain.nodup
      rw [List.map_cons, List.nodup_cons] at distinct
      cases chain with
      | @cons address cell _ here behind =>
          have next := behind.pointer
          cases rest with
          | nil => exact ⟨heap, freeArguments_last here next, .nil heap⟩
          | cons second later =>
              obtain ⟨middle, releases, released⟩ := Heap.release_read here
              have apart : ∀ other ∈ (second :: later).map Prod.fst, other ∉ [address] := by
                intro other member same
                rw [List.mem_singleton.mp same] at member
                exact distinct.1 member
              rw [next] at behind
              obtain ⟨after, run, more⟩ := ih (behind.released released apart)
              refine ⟨after, ?_, released.append more⟩
              rw [freeArguments_next here next releases]
              simp only [List.head?_cons, Option.map_some] at run
              rw [run]
              rfl

/-- The first node is freed at the end, and the last one behind it is not. -/
theorem freeMemoryArgument_chain {address : Nat} {cell : MemoryArgument}
    {heap : Heap MemoryArgument} {rest : List (Nat × MemoryArgument)}
    (chain : Heap.Chain MemoryArgument.next heap (some address) ((address, cell) :: rest))
    : let freed := (rest.map Prod.fst).dropLast ++ [address]
      ∃ after,
        freeMemoryArgument (some address) heap = some (freed, after)
        ∧ Heap.Released freed heap after := by
  have distinct := chain.nodup
  rw [List.map_cons, List.nodup_cons] at distinct
  cases chain with
  | cons here behind =>
      obtain ⟨middle, run, released⟩ := freeArguments_chain behind
      have kept : middle.read address = some cell := by
        rw [released.read (fun member => distinct.1 (List.dropLast_subset _ member)), here]
      obtain ⟨after, releases, gone⟩ := Heap.release_read kept
      refine ⟨after, ?_, released.append gone⟩
      simp only [freeMemoryArgument, here, run, releases, Option.bind_eq_bind, Option.bind_some,
        Option.pure_def]

-----------------------------------------------------------------------------------------
-- The ranges by position
-----------------------------------------------------------------------------------------

/-- Two numbers for each range, and one range at least. -/
theorem rangesOf_length (values : List Nat)
    : (rangesOf values).length = max 1 ((values.length + 1) / 2) := by
  induction values using List.twoStepInduction with
  | nil => rfl
  | singleton => simp [rangesOf]
  | cons_cons offset size rest ih _ =>
      cases rest with
      | nil => simp [rangesOf]
      | cons next rest =>
          rw [rangesOf, List.length_cons, ih]
          simp only [List.length_cons]
          omega

/-- The range at `k` has the numbers at `2 * k` and behind it. -/
theorem rangesOf_getElem? {values : List Nat} {k : Nat} {range : Nat × Nat}
    (here : (rangesOf values)[k]? = some range)
    : range = (values.getD (2 * k) 0, values.getD (2 * k + 1) 0) := by
  induction values using List.twoStepInduction generalizing k with
  | nil =>
      cases k with
      | zero => cases here; rfl
      | succ k => cases here
  | singleton offset =>
      cases k with
      | zero => cases here; rfl
      | succ k => cases here
  | cons_cons offset size rest ih _ =>
      cases rest with
      | nil =>
          cases k with
          | zero => cases here; rfl
          | succ k => cases here
      | cons next rest =>
          cases k with
          | zero => cases here; rfl
          | succ k => exact ih here

/-- Lists of one length have the same ranges only if they are the same. -/
theorem rangesOf_inj {left right : List Nat} (length : left.length = right.length)
    (same : rangesOf left = rangesOf right)
    : left = right := by
  refine List.ext_getElem length (fun index inside within => ?_)
  have entry (values : List Nat) (at_ : index < values.length)
      : ∃ range,
          (rangesOf values)[index / 2]? = some range
          ∧ values[index] = if index % 2 = 0 then range.1 else range.2 := by
    have room : index / 2 < (rangesOf values).length := by
      rw [rangesOf_length]
      omega
    obtain ⟨range, here⟩ : ∃ range, (rangesOf values)[index / 2]? = some range :=
      ⟨_, List.getElem?_eq_getElem room⟩
    refine ⟨range, here, ?_⟩
    have found : values.getD index 0 = values[index] := by
      rw [List.getD_eq_getElem?_getD, List.getElem?_eq_getElem at_, Option.getD_some]
    rw [rangesOf_getElem? here, ← found]
    by_cases even : index % 2 = 0
    · rw [if_pos even, show 2 * (index / 2) = index by omega]
    · rw [if_neg even, show 2 * (index / 2) + 1 = index by omega]
  obtain ⟨range, here, first⟩ := entry left inside
  obtain ⟨other, there, second⟩ := entry right within
  rw [same, there] at here
  cases here
  rw [first, second]

end NetworkAccess
