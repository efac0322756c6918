import NetworkAccess.Server.MemoryArguments

/-! The list of ranges that is built from the arguments of a command, and the numbers that it loses.
-/

namespace NetworkAccess

open Numerals

/-- A field of a range has its argument's number, if it is one of 32 bits, and 0 without an
argument.
-/
def FieldHolds (field : Nat) : Option Bytes → Prop
  | none => field = 0
  | some arg => getOffset arg < 2 ^ 32 → field = getOffset arg

/-- The numbers of ranges, in the order of the arguments. -/
def numbersOf (ranges : List (Nat × Nat)) : List Nat :=
  ranges.flatMap (fun range => [range.1, range.2])

/-- Ranges are read back from the numbers they are written with. -/
theorem rangesOf_numbersOf {ranges : List (Nat × Nat)} (some_ : ranges ≠ [])
    : rangesOf (numbersOf ranges) = ranges := by
  induction ranges with
  | nil => exact absurd rfl some_
  | cons range rest ih =>
      cases rest with
      | nil => rfl
      | cons other more =>
          have later := ih (List.cons_ne_nil _ _)
          rw [numbersOf, List.flatMap_cons, ← numbersOf] at later ⊢
          exact congrArg (range :: ·) later

/-- What `get_offset` makes of texts of numbers. -/
theorem map_getOffset {args : List Bytes} {values : List Nat}
    (numbers : List.Forall₂ NumberText args values) (fits : ∀ value ∈ values, value < 2 ^ 63)
    : args.map getOffset = values := by
  induction numbers with
  | nil => rfl
  | cons number rest ih =>
      rw [List.map_cons, number.getOffset (fits _ List.mem_cons_self),
        ih (fun value member => fits value (List.mem_cons_of_mem _ member))]

/-- What is stored are the numbers of the arguments modulo 2^32. -/
theorem map_storedNumber (args : List Bytes)
    : args.map storedNumber = (args.map getOffset).map (· % 2 ^ 32) := by
  rw [List.map_map]
  rfl

/-- Numbers of 32 bits are stored as they are. -/
theorem map_mod_eq_iff {values : List Nat}
    : values.map (· % 2 ^ 32) = values ↔ ∀ value ∈ values, value < 2 ^ 32 := by
  induction values with
  | nil => exact ⟨fun _ => nofun, fun _ => rfl⟩
  | cons value rest ih =>
      have here : value % 2 ^ 32 = value ↔ value < 2 ^ 32 := by omega
      rw [List.map_cons, List.cons.injEq, List.forall_mem_cons, here, ih]

/-- Each field holds the number of its argument if that is below 2^32, and zero without an argument.
-/
theorem storedNumber_holds (args : List Bytes) (index : Nat)
    : FieldHolds ((args.map storedNumber).getD index 0) args[index]? := by
  rw [List.getD_eq_getElem?_getD, List.getElem?_map]
  cases args[index]? with
  | none => rfl
  | some arg => exact fun small => Nat.mod_eq_of_lt small

/-- For every vector of arguments: the chain ends with `NULL` and has a node for every two of them,
and at least one; each node has the numbers of its arguments. So a list of ranges that is not empty
and has numbers of 32 bits comes back from its arguments, in whatever notation each of them is.
-/
theorem rangeLists_decode (ag : List Bytes) (heap : Heap MemoryArgument)
    : ∃ nodes,
        ParsesTo ag heap nodes
        ∧ nodes.length = max 1 ((ag.length + 1) / 2)
        ∧ (∀ k node,
            nodes[k]? = some node
            → FieldHolds node.2.offset ag[2 * k]? ∧ FieldHolds node.2.size ag[2 * k + 1]?)
        ∧ ∀ ranges : List (Nat × Nat),
            ranges ≠ []
            → (∀ value ∈ numbersOf ranges, value < 2 ^ 32)
            → List.Forall₂ NumberText ag (numbersOf ranges)
            → nodes.map (fun node => node.2.range) = ranges := by
  refine ⟨_, parsesTo_linked ag heap, ?_, ?_, ?_⟩
  · have length := congrArg List.length (parsesTo_linked ag heap).ranges
    rwa [List.length_map, rangesOf_length, List.length_map] at length
  · intro k node here
    have range : (rangesOf (ag.map storedNumber))[k]? = some node.2.range := by
      rw [← (parsesTo_linked ag heap).ranges, List.getElem?_map, here]
      rfl
    obtain ⟨offset, size⟩ := Prod.mk.inj (rangesOf_getElem? range)
    rw [offset, size]
    exact ⟨storedNumber_holds ag _, storedNumber_holds ag _⟩
  · intro ranges some_ small numbers
    have values :=
      map_getOffset numbers (fun value member => (small value member).trans (by decide))
    rw [(parsesTo_linked ag heap).ranges, map_storedNumber, values, map_mod_eq_iff.mpr small,
      rangesOf_numbersOf some_]

/-- Two ranges in both notations. -/
theorem rangeLists_decode_two
    : ∃ nodes,
        ParsesTo [decimal 16, dollar :: hexadecimal 255, dollar :: hexadecimal 0, decimal 0] []
          nodes
        ∧ nodes.map (fun node => node.2.range) = [(16, 255), (0, 0)] := by
  obtain ⟨nodes, parses, -, -, comesBack⟩ := rangeLists_decode
    [decimal 16, dollar :: hexadecimal 255, dollar :: hexadecimal 0, decimal 0] []
  refine ⟨nodes, parses, comesBack [(16, 255), (0, 0)] (by decide) (by decide) ?_⟩
  exact .cons (.decimal (decimal_writes 16))
    (.cons (.hexadecimal (hexadecimal_writes 255))
      (.cons (.hexadecimal (hexadecimal_writes 0)) (.cons (.decimal (decimal_writes 0)) .nil)))

/-- The empty list of ranges has no arguments, and these give one range. -/
theorem emptyRangeList_decodes_to_one
    : ¬ ∀ (ranges : List (Nat × Nat)) (ag : List Bytes) (heap : Heap MemoryArgument)
          (nodes : List (Nat × MemoryArgument)),
          (∀ value ∈ numbersOf ranges, value < 2 ^ 32)
          → List.Forall₂ NumberText ag (numbersOf ranges)
          → ParsesTo ag heap nodes
          → nodes.map (fun node => node.2.range) = ranges := by
  intro comesBack
  have parses := parsesTo_linked [] []
  have none_ := comesBack [] [] [] _ nofun .nil parses
  rw [parses.ranges] at none_
  cases none_

-----------------------------------------------------------------------------------------
-- Aliasing
-----------------------------------------------------------------------------------------

/-- Texts of numbers that a `long long` has. -/
structure NumericVector (args : List Bytes) (values : List Nat) : Prop where
  numbers : List.Forall₂ NumberText args values
  fits : ∀ value ∈ values, value < 2 ^ 63

/-- Every offset and size is stored as `get_offset` computed it. -/
def StoredExactly (args : List Bytes) : Prop :=
  ∀ heap nodes,
    ParsesTo args heap nodes
    → nodes.map (fun node => node.2.range) = rangesOf (args.map getOffset)

/-- Both vectors are stored exactly, and their lists differ if they denote different ranges. -/
structure ToldApart (left right : List Bytes) (leftValues rightValues : List Nat) : Prop where
  first : StoredExactly left
  second : StoredExactly right
  differ
    : rangesOf leftValues ≠ rangesOf rightValues
      → ∀ heap other nodes more,
          ParsesTo left heap nodes
          → ParsesTo right other more
          → nodes.map (fun node => node.2.range) ≠ more.map (fun node => node.2.range)

/-- The numbers of a numeric vector are stored exactly if and only if all are below 2^32. -/
theorem NumericVector.storedExactly_iff {args : List Bytes} {values : List Nat}
    (vector : NumericVector args values)
    : StoredExactly args ↔ ∀ value ∈ values, value < 2 ^ 32 := by
  have computed := map_getOffset vector.numbers vector.fits
  rw [← map_mod_eq_iff]
  constructor
  · intro exactly
    have parses := parsesTo_linked args []
    have stored := exactly [] _ parses
    rw [parses.ranges, map_storedNumber, computed] at stored
    exact rangesOf_inj (List.length_map _) stored
  · intro same heap nodes parses
    rw [parses.ranges, map_storedNumber, computed, same]

/-- For any two vectors of numbers of up to 63 bits. -/
theorem rangeLists_told_apart_iff (left right : List Bytes) (leftValues rightValues : List Nat)
    (leftVector : NumericVector left leftValues) (rightVector : NumericVector right rightValues)
    : ToldApart left right leftValues rightValues
      ↔ ∀ value ∈ leftValues ++ rightValues, value < 2 ^ 32 := by
  rw [List.forall_mem_append]
  constructor
  · intro apart
    exact ⟨leftVector.storedExactly_iff.mp apart.first,
      rightVector.storedExactly_iff.mp apart.second⟩
  · rintro ⟨leftSmall, rightSmall⟩
    have leftExactly := leftVector.storedExactly_iff.mpr leftSmall
    have rightExactly := rightVector.storedExactly_iff.mpr rightSmall
    refine ⟨leftExactly, rightExactly, fun differ heap other nodes more parses parsesRight => ?_⟩
    rw [leftExactly heap nodes parses, rightExactly other more parsesRight,
      map_getOffset leftVector.numbers leftVector.fits,
      map_getOffset rightVector.numbers rightVector.fits]
    exact differ

/-- Numbers in decimal notation are a numeric vector, by induction on them. -/
theorem numericVector_decimals {values : List Nat} (fits : ∀ value ∈ values, value < 2 ^ 63)
    : NumericVector (values.map decimal) values := by
  refine ⟨?_, fits⟩
  induction values with
  | nil => exact .nil
  | cons value rest ih =>
      exact .cons (.decimal (decimal_writes value))
        (ih (fun other member => fits other (List.mem_cons_of_mem _ member)))

/-- Witness: three ranges each, which differ in the last address of 32 bits. -/
theorem rangeLists_told_apart_last
    : ToldApart ([16, 2, 64, 8, 4294967295, 1].map decimal) ([16, 2, 64, 8, 0, 1].map decimal)
        [16, 2, 64, 8, 4294967295, 1] [16, 2, 64, 8, 0, 1] :=
  (rangeLists_told_apart_iff _ _ _ _ (numericVector_decimals (by decide))
    (numericVector_decimals (by decide))).mpr (by decide)

/-- The address behind it is stored as 0. -/
theorem rangeLists_alias_wrapped
    : NumericVector [decimal 4294967296] [4294967296]
      ∧ NumericVector [decimal 0] [0]
      ∧ ¬ ToldApart [decimal 4294967296] [decimal 0] [4294967296] [0] := by
  have wrapped : NumericVector [decimal 4294967296] [4294967296] :=
    @numericVector_decimals [4294967296] (by decide)
  have zero : NumericVector [decimal 0] [0] := @numericVector_decimals [0] (by decide)
  refine ⟨wrapped, zero, fun apart => ?_⟩
  refine apart.differ (by decide) [] [] _ _ (parsesTo_linked _ _) (parsesTo_linked _ _) ?_
  rw [(parsesTo_linked _ _).ranges, (parsesTo_linked _ _).ranges, map_storedNumber,
    map_storedNumber, map_getOffset wrapped.numbers wrapped.fits,
    map_getOffset zero.numbers zero.fits]
  rfl

end NetworkAccess
