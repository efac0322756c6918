import Mathlib.Data.List.Basic

/-! Memory as a log of writes. The value of a place is the one that the last write to it has put
there.
-/

namespace NetworkAccess

variable {Region Value : Type} [DecidableEq Region]

/-- Values that are written to a region from an offset on. -/
structure RangeWrite (Region Value : Type) where
  region : Region
  offset : Nat
  values : List Value

namespace RangeWrite

/-- What the write puts at a place, if it does. -/
def at? (write : RangeWrite Region Value) (region : Region) (index : Nat) : Option Value :=
  if write.region = region ∧ write.offset ≤ index then
    write.values[index - write.offset]?
  else
    none

/-- The value of the last write to a place. -/
def last? (log : List (RangeWrite Region Value)) (region : Region) (index : Nat) : Option Value :=
  log.reverse.findSome? (fun write => write.at? region index)

/-- The last write at a place is the newest one if it covers the place. -/
theorem last?_concat (log : List (RangeWrite Region Value)) (write : RangeWrite Region Value)
    (region : Region) (index : Nat)
    : last? (log ++ [write]) region index
      = (write.at? region index).or (last? log region index) := by
  rw [last?, List.reverse_append, List.reverse_singleton, List.singleton_append,
    List.findSome?_cons]
  cases write.at? region index with
  | none => rfl
  | some value => rfl

/-- A region holds, at every place, what the last write to it has put there, or what was there at
first.
-/
def Describes (log : List (RangeWrite Region Value)) (first current : Region → List Value)
    : Prop :=
  ∀ region,
    (current region).length = (first region).length
    ∧ ∀ index, index < (first region).length
        → (current region)[index]? = (last? log region index).or (first region)[index]?

/-- Without a write, the contents are the first ones. -/
theorem describes_nil (first : Region → List Value) : Describes [] first first :=
  fun _ => ⟨rfl, fun _ _ => rfl⟩

/-- The values with others in the place from an offset on. -/
theorem splice_get {values others : List Value} {offset : Nat}
    (inside : offset + others.length ≤ values.length) (index : Nat)
    : (values.take offset ++ others ++ values.drop (offset + others.length))[index]?
      = if offset ≤ index ∧ index < offset + others.length then
          others[index - offset]?
        else
          values[index]? := by
  have front : (values.take offset).length = offset := by
    rw [List.length_take]
    omega
  by_cases before : index < offset
  · rw [if_neg (by omega), List.append_assoc, List.getElem?_append_left (by omega),
      List.getElem?_take_of_lt before]
  · by_cases here : index < offset + others.length
    · rw [if_pos (by omega), List.getElem?_append_left (by rw [List.length_append]; omega),
        List.getElem?_append_right (by omega), front]
    · rw [if_neg (by omega), List.getElem?_append_right (by rw [List.length_append]; omega),
        List.length_append, front, List.getElem?_drop]
      congr 1
      omega

/-- Another write inside its region. -/
theorem Describes.write {log : List (RangeWrite Region Value)}
    {first current next : Region → List Value} (describes : Describes log first current)
    (write : RangeWrite Region Value)
    (inside : write.offset + write.values.length ≤ (current write.region).length)
    (here
      : next write.region
        = (current write.region).take write.offset ++ write.values
          ++ (current write.region).drop (write.offset + write.values.length))
    (others : ∀ region, region ≠ write.region → next region = current region)
    : Describes (log ++ [write]) first next := by
  intro region
  obtain ⟨same, values⟩ := describes region
  by_cases own : region = write.region
  · subst own
    have length : (next write.region).length = (current write.region).length := by
      rw [here, List.length_append, List.length_append, List.length_take, List.length_drop]
      omega
    refine ⟨length.trans same, fun index fits => ?_⟩
    rw [here, splice_get inside, last?_concat, at?, values index fits]
    by_cases covered : write.offset ≤ index ∧ index < write.offset + write.values.length
    · rw [if_pos covered, if_pos ⟨rfl, covered.1⟩, List.getElem?_eq_getElem (by omega)]
      rfl
    · rw [if_neg covered]
      by_cases behind : write.offset ≤ index
      · have none_ : write.values[index - write.offset]? = none :=
          List.getElem?_eq_none (by omega)
        rw [if_pos ⟨rfl, behind⟩, none_, Option.none_or]
      · rw [if_neg (fun both => behind both.2), Option.none_or]
  · rw [others region own]
    refine ⟨same, fun index fits => ?_⟩
    rw [last?_concat, at?, if_neg (fun both => own both.1.symm), Option.none_or,
      values index fits]

end RangeWrite
end NetworkAccess
