import Mathlib.Data.List.Basic

/-! Cells that are allocated one after the other and hold the addresses of each other.
-/

namespace NetworkAccess

/-- The cells by address. A cell that is released becomes `none`. -/
abbrev Heap (Cell : Type) := List (Option Cell)

namespace Heap

variable {Cell Value : Type}

/-- The cell at an address, if it is allocated. -/
def read (address : Nat) (heap : Heap Cell) : Option Cell := (heap[address]?).join

/-- A new cell and its address. -/
def alloc (cell : Cell) (heap : Heap Cell) : Nat × Heap Cell := (heap.length, heap ++ [some cell])

/-- Change the cell at an address, if there is one. -/
def update (address : Nat) (change : Cell → Cell) (heap : Heap Cell) : Option (Heap Cell) :=
  (heap.read address).map (fun cell => heap.set address (some (change cell)))

/-- From a pointer, `next` leads through these cells to the null pointer. -/
inductive Chain (next : Cell → Option Nat) (heap : Heap Cell)
    : Option Nat → List (Nat × Cell) → Prop
  | nil : Chain next heap none []
  | cons {address cell nodes} (here : heap.read address = some cell)
    (rest : Chain next heap (next cell) nodes)
    : Chain next heap (some address) ((address, cell) :: nodes)

/-- A pointer leads through one sequence of cells only. -/
theorem Chain.unique {next : Cell → Option Nat} {heap : Heap Cell} {pointer : Option Nat}
    {nodes others : List (Nat × Cell)} (left : Chain next heap pointer nodes)
    (right : Chain next heap pointer others)
    : nodes = others := by
  induction left generalizing others with
  | nil =>
      cases right
      rfl
  | cons here rest ih =>
      cases right with
      | cons there later =>
          cases here.symm.trans there
          rw [ih later]

/-- The cell behind a number of cells has this number as its address. -/
@[simp] theorem read_append (before rest : Heap Cell) (cell : Cell)
    : (before ++ some cell :: rest).read before.length = some cell := by
  simp [read]

/-- A change of that cell leaves the others as they are. -/
@[simp] theorem update_append (before rest : Heap Cell) (cell : Cell) (change : Cell → Cell)
    : (before ++ some cell :: rest).update before.length change
      = some (before ++ some (change cell) :: rest) := by
  simp [update]

/-- The cells of the values, at consecutive addresses from `start` on. -/
def linked (link : Value → Option Nat → Cell) (start : Nat) : List Value → List (Nat × Cell)
  | [] => []
  | [value] => [(start, link value none)]
  | value :: other :: rest =>
      (start, link value (some (start + 1))) :: linked link (start + 1) (other :: rest)

/-- The contents of cells. -/
def contents (nodes : List (Nat × Cell)) : Heap Cell := nodes.map (fun node => some node.2)

/-- The first cell of a longer list is linked to the address behind it. -/
theorem linked_cons (link : Value → Option Nat → Cell) (start : Nat) (value : Value)
    {rest : List Value} (more : rest ≠ [])
    : linked link start (value :: rest)
      = (start, link value (some (start + 1))) :: linked link (start + 1) rest := by
  cases rest with
  | nil => exact absurd rfl more
  | cons => rfl

/-- The linked cells hold the values. -/
theorem linked_map {link : Value → Option Nat → Cell} {get : Cell → Value}
    (gets : ∀ value pointer, get (link value pointer) = value) (start : Nat) (values : List Value)
    : (linked link start values).map (fun node => get node.2) = values := by
  induction values generalizing start with
  | nil => rfl
  | cons value rest ih =>
      cases rest with
      | nil => simp only [linked, List.map_cons, List.map_nil, gets]
      | cons other more =>
          rw [linked, List.map_cons, ih]
          simp only [gets]

/-- Where they stand at the end of the heap, they are a chain. -/
theorem chain_linked {link : Value → Option Nat → Cell} {next : Cell → Option Nat}
    (leads : ∀ value pointer, next (link value pointer) = pointer) (before : Heap Cell)
    {values : List Value} (some_ : values ≠ [])
    : Chain next (before ++ contents (linked link before.length values)) (some before.length)
        (linked link before.length values) := by
  induction values generalizing before with
  | nil => exact absurd rfl some_
  | cons value rest ih =>
      cases rest with
      | nil =>
          refine .cons (read_append _ _ _) ?_
          rw [leads]
          exact .nil
      | cons other more =>
          have later := ih (before ++ [some (link value (some (before.length + 1)))])
            (List.cons_ne_nil _ _)
          rw [List.length_append, List.length_singleton, List.append_assoc] at later
          refine .cons (read_append _ _ _) ?_
          rw [leads]
          exact later

/-- A chain begins at the address of its first node. -/
theorem Chain.pointer {next : Cell → Option Nat} {heap : Heap Cell} {pointer : Option Nat}
    {nodes : List (Nat × Cell)} (chain : Chain next heap pointer nodes)
    : pointer = nodes.head?.map Prod.fst := by
  cases chain <;> rfl

/-- A chain does not come back to a cell: behind each of its cells stands a shorter chain. -/
theorem Chain.from_mem {next : Cell → Option Nat} {heap : Heap Cell} {pointer : Option Nat}
    {nodes : List (Nat × Cell)} (chain : Chain next heap pointer nodes) {address : Nat}
    (member : address ∈ nodes.map Prod.fst)
    : ∃ later, Chain next heap (some address) later ∧ later.length ≤ nodes.length := by
  induction chain with
  | nil => cases member
  | @cons here cell rest found chain ih =>
      rw [List.map_cons, List.mem_cons] at member
      rcases member with rfl | behind
      · exact ⟨_, .cons found chain, Nat.le_refl _⟩
      · obtain ⟨later, leads, bound⟩ := ih behind
        refine ⟨later, leads, ?_⟩
        rw [List.length_cons]
        omega

/-- No address comes twice in a chain, by induction on it. -/
theorem Chain.nodup {next : Cell → Option Nat} {heap : Heap Cell} {pointer : Option Nat}
    {nodes : List (Nat × Cell)} (chain : Chain next heap pointer nodes)
    : (nodes.map Prod.fst).Nodup := by
  induction chain with
  | nil => exact List.nodup_nil
  | @cons address cell rest found chain ih =>
      rw [List.map_cons, List.nodup_cons]
      refine ⟨fun again => ?_, ih⟩
      obtain ⟨later, leads, bound⟩ := chain.from_mem again
      rw [leads.unique (.cons found chain), List.length_cons] at bound
      omega

-----------------------------------------------------------------------------------------
-- Release
-----------------------------------------------------------------------------------------

/-- Free the cell at an address, if there is one. -/
def release (address : Nat) (heap : Heap Cell) : Option (Heap Cell) :=
  (heap.read address).map (fun _ => heap.set address none)

/-- The number of cells that are not freed. -/
def live (heap : Heap Cell) : Nat := heap.countP Option.isSome

/-- The second heap is the first one without the cells at these addresses. -/
def Released (addresses : List Nat) (before after : Heap Cell) : Prop :=
  ∀ address, after.read address = if address ∈ addresses then none else before.read address

/-- A cell that is freed cannot be read, and every other one as before. -/
theorem read_set_none (address other : Nat) (heap : Heap Cell)
    : Heap.read other (heap.set address none)
      = if other = address then none else heap.read other := by
  rw [read, read, List.getElem?_set]
  by_cases same : address = other
  · rw [if_pos same, if_pos same.symm]
    split <;> rfl
  · rw [if_neg same, if_neg (Ne.symm same)]

/-- A release makes one cell less, so a loop of releases ends. -/
theorem live_release {address : Nat} {heap after : Heap Cell}
    (released : heap.release address = some after)
    : after.live < heap.live := by
  obtain ⟨cell, here, rfl⟩ := Option.map_eq_some_iff.mp released
  rw [read, Option.join_eq_some_iff] at here
  obtain ⟨inside, stored⟩ := List.getElem?_eq_some_iff.mp here
  have some_ : 0 < heap.countP Option.isSome :=
    List.countP_pos_iff.mpr ⟨_, List.getElem_mem inside, by rw [stored]; rfl⟩
  rw [live, live, List.countP_set inside, stored, Option.isSome_some, if_pos rfl,
    Option.isSome_none, if_neg Bool.false_ne_true]
  omega

/-- An allocated cell can be released. -/
theorem release_read {address : Nat} {heap : Heap Cell} {cell : Cell}
    (here : heap.read address = some cell)
    : ∃ after, heap.release address = some after ∧ Released [address] heap after := by
  refine ⟨heap.set address none, by rw [release, here, Option.map_some], fun other => ?_⟩
  rw [read_set_none]
  simp only [List.mem_singleton]

/-- Releasing nothing changes nothing. -/
theorem Released.nil (heap : Heap Cell) : Released [] heap heap := by
  intro address
  rw [if_neg List.not_mem_nil]

/-- Addresses that are released one part after the other are released. -/
theorem Released.append {addresses more : List Nat} {before middle after : Heap Cell}
    (first : Released addresses before middle) (second : Released more middle after)
    : Released (addresses ++ more) before after := by
  intro address
  rw [second, first]
  simp only [List.mem_append]
  by_cases here : address ∈ addresses <;> by_cases there : address ∈ more <;> simp [here, there]

/-- What is not freed can still be read. -/
theorem Released.read {addresses : List Nat} {before after : Heap Cell}
    (released : Released addresses before after) {address : Nat} (apart : address ∉ addresses)
    : after.read address = before.read address := by
  rw [released, if_neg apart]

/-- A chain stays where it is while other cells are freed. -/
theorem Chain.released {next : Cell → Option Nat} {before after : Heap Cell}
    {pointer : Option Nat} {nodes : List (Nat × Cell)} (chain : Chain next before pointer nodes)
    {addresses : List Nat} (released : Released addresses before after)
    (apart : ∀ address ∈ nodes.map Prod.fst, address ∉ addresses)
    : Chain next after pointer nodes := by
  induction chain with
  | nil => exact .nil
  | cons found _ ih =>
      rw [List.map_cons, List.forall_mem_cons] at apart
      exact .cons ((released.read apart.1).trans found) (ih apart.2)

end Heap
end NetworkAccess
