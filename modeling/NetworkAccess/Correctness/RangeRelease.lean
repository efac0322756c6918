import NetworkAccess.Server.MemoryArguments

/-! The release of the list of ranges, and the node that it forgets.
-/

namespace NetworkAccess

open Numerals

/-- Releasing the list that is built from the arguments frees each of its nodes once, leaves none of
them, and uses no node that was freed before.
-/
def ReleasesEach (ag : List Bytes) (heap : Heap MemoryArgument) : Prop :=
  ∃ pointer built nodes freed after,
    parseMemoryArgument ag heap = some (pointer, built)
    ∧ Heap.Chain MemoryArgument.next built (some pointer) nodes
    ∧ freeMemoryArgument (some pointer) built = some (freed, after)
    ∧ freed.Nodup
    ∧ freed.Perm (nodes.map Prod.fst)
    ∧ ∀ node ∈ nodes, after.read node.1 = none

/-- What the release does to every list: it frees the nodes but the last of those behind the first,
each of them once, and the first node at the end.
-/
theorem rangeList_release (ag : List Bytes) (heap : Heap MemoryArgument)
    : ∃ pointer built cell rest after,
        let freed := (rest.map Prod.fst).dropLast ++ [pointer]
        parseMemoryArgument ag heap = some (pointer, built)
        ∧ Heap.Chain MemoryArgument.next built (some pointer) ((pointer, cell) :: rest)
        ∧ rest.length + 1 = max 1 ((ag.length + 1) / 2)
        ∧ freeMemoryArgument (some pointer) built = some (freed, after)
        ∧ Heap.Released freed built after := by
  obtain ⟨pointer, built, run, chain⟩ := parsesTo_linked ag heap
  have length := congrArg List.length (parsesTo_linked ag heap).ranges
  rw [List.length_map, rangesOf_length, List.length_map] at length
  generalize Heap.linked MemoryArgument.link heap.length (rangesOf (ag.map storedNumber)) = nodes
    at chain length
  cases chain with
  | @cons _ cell rest here behind =>
      obtain ⟨after, frees, released⟩ := freeMemoryArgument_chain (.cons here behind)
      exact ⟨pointer, built, cell, rest, after, run, .cons here behind, length, frees, released⟩

/-- With two nodes or more, the last one is missing among those that are freed. -/
theorem ReleasesEach.few {ag : List Bytes} {heap : Heap MemoryArgument}
    (releases : ReleasesEach ag heap)
    : ag.length ≤ 2 := by
  obtain ⟨pointer, built, nodes, freed, after, run, chain, frees, -, perm, -⟩ := releases
  obtain ⟨other, builtAgain, cell, rest, afterAgain, again, linked, length, freesAgain, -⟩ :=
    rangeList_release ag heap
  cases run.symm.trans again
  cases frees.symm.trans freesAgain
  have count := perm.length_eq
  rw [chain.unique linked, List.length_append, List.length_dropLast, List.length_map,
    List.length_singleton, List.length_map, List.length_cons] at count
  omega

/-- For every vector of arguments: the list is released as a whole if it has one node only. -/
theorem rangeList_released_iff (ag : List Bytes) (heap : Heap MemoryArgument)
    : ReleasesEach ag heap ↔ ag.length ≤ 2 := by
  refine ⟨ReleasesEach.few, fun few => ?_⟩
  obtain ⟨pointer, built, cell, rest, after, run, chain, length, frees, released⟩ :=
    rangeList_release ag heap
  obtain rfl : rest = [] := List.eq_nil_of_length_eq_zero (by omega)
  refine ⟨pointer, built, _, _, after, run, chain, frees, chain.nodup, .refl _, ?_⟩
  rw [List.forall_mem_singleton, released]
  exact if_pos List.mem_cons_self

/-- The second range of three arguments is never freed. -/
theorem secondRange_not_released : ¬ ReleasesEach [decimal 0, decimal 16, decimal 32] [] :=
  fun releases => absurd releases.few (by decide)

end NetworkAccess
