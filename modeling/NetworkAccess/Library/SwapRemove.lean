import Mathlib.Data.List.Basic

/-! Removal from an unordered array: the last element takes the place of the removed one.
Seen from the removed place, the elements before it stay and those behind it are permuted.
-/

namespace NetworkAccess

variable {Element : Type}

/-- Overwrite the element at `index` with the last one, unless it is the last one, and
shorten the list.
-/
def swapRemove (elements : List Element) (index : Nat) : List Element :=
  match elements.getLast? with
  | none => []
  | some last =>
      if index ≠ elements.length - 1 then
        (elements.set index last).dropLast
      else
        elements.dropLast

/-- One element fewer is left. -/
theorem swapRemove_length {elements : List Element} {index : Nat}
    (inside : index < elements.length)
    : (swapRemove elements index).length = elements.length - 1 := by
  have nonempty : elements ≠ [] := List.ne_nil_of_length_pos (by omega)
  rw [swapRemove, List.getLast?_eq_some_getLast nonempty]
  dsimp only
  split <;> simp

/-- The last element comes first, and the others follow in order. -/
def moveLast (elements : List Element) : List Element :=
  match elements.getLast? with
  | none => []
  | some last => last :: elements.dropLast

/-- The last element comes to the front. -/
theorem moveLast_concat (elements : List Element) (last : Element)
    : moveLast (elements ++ [last]) = last :: elements := by
  rw [moveLast, List.getLast?_concat, List.dropLast_concat]

/-- Moving the last element keeps all elements. -/
theorem moveLast_perm (elements : List Element) : (moveLast elements).Perm elements := by
  rcases List.eq_nil_or_concat' elements with rfl | ⟨front, last, rfl⟩
  · exact .nil
  · rw [moveLast_concat]
    exact (List.perm_append_singleton last front).symm

/-- Removal keeps what lies in front of the place. -/
theorem swapRemove_append (front : List Element) (removed : Element) (back : List Element)
    : swapRemove (front ++ removed :: back) front.length = front ++ moveLast back := by
  rcases List.eq_nil_or_concat' back with rfl | ⟨more, last, rfl⟩
  · rw [swapRemove, List.getLast?_concat]
    simp [moveLast]
  · have others : front.length ≠ (front ++ removed :: (more ++ [last])).length - 1 := by
      simp only [List.length_append, List.length_cons, List.length_nil]
      omega
    have latest : (front ++ removed :: (more ++ [last])).getLast? = some last := by
      rw [← List.cons_append, ← List.append_assoc, List.getLast?_concat]
    rw [swapRemove, latest, moveLast_concat]
    dsimp only
    rw [if_pos others, List.set_append_right _ _ (Nat.le_refl _), Nat.sub_self, List.set_cons_zero,
      ← List.cons_append, ← List.append_assoc, List.dropLast_concat]

section Removed

variable {elements : List Element} {index : Nat} {removed : Element}
  (here : elements[index]? = some removed)
include here

/-- The parts around the place. -/
theorem split_at
    : elements = elements.take index ++ removed :: elements.drop (index + 1)
      ∧ (elements.take index).length = index := by
  obtain ⟨inside, rfl⟩ := List.getElem?_eq_some_iff.mp here
  constructor
  · rw [List.getElem_cons_drop, List.take_append_drop]
  · exact List.length_take_of_le (Nat.le_of_lt inside)

/-- Behind the place of the removed element comes the last one, and then the others in their order.
-/
theorem swapRemove_eq
    : swapRemove elements index
      = elements.take index ++ moveLast (elements.drop (index + 1)) := by
  obtain ⟨split, front⟩ := split_at here
  have append := swapRemove_append (elements.take index) removed (elements.drop (index + 1))
  rw [← split, front] at append
  exact append

/-- As a set, one element is missing. -/
theorem swapRemove_perm : (removed :: swapRemove elements index).Perm elements := by
  have moved := (moveLast_perm (elements.drop (index + 1))).append_left (elements.take index)
  rw [swapRemove_eq here]
  exact (moved.cons removed).trans
    (List.perm_middle.symm.trans (.of_eq (split_at here).1.symm))

/-- What lies behind the place is what lay behind the removed element. -/
theorem swapRemove_drop
    : ((swapRemove elements index).drop index).Perm (elements.drop (index + 1)) := by
  have front := (split_at here).2
  rw [swapRemove_eq here, List.drop_append_of_le_length (Nat.le_of_eq front.symm),
    List.drop_of_length_le (Nat.le_of_eq front), List.nil_append]
  exact moveLast_perm _

end Removed

end NetworkAccess
