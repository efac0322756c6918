import NetworkAccess.Library.SwapRemove

/-! A pass over an unordered array that removes elements on the way. The last element takes the
place of a removed one, so the pass goes on at the same place.
-/

namespace NetworkAccess

variable {Element : Type}

/-- The pass looks at one element after the other and decides whether it stays; it leads from the
array and the place that are given first to those that are given last.
-/
inductive Sweeps : List Element → Nat → List (Element × Bool) → List Element → Nat → Prop
  | here {elements index} : Sweeps elements index [] elements index
  | keep {elements index element log last place} (found : elements[index]? = some element)
    (later : Sweeps elements (index + 1) log last place)
    : Sweeps elements index ((element, true) :: log) last place
  | drop {elements index element log last place} (found : elements[index]? = some element)
    (later : Sweeps (swapRemove elements index) index log last place)
    : Sweeps elements index ((element, false) :: log) last place

/-- The elements of a log that stay, or those that do not. -/
def decided (stays : Bool) (log : List (Element × Bool)) : List Element :=
  (log.filter (fun entry => entry.2 = stays)).map Prod.fst

/-- What was decided first stands first. -/
theorem decided_cons (stays : Bool) (entry : Element × Bool) (log : List (Element × Bool))
    : decided stays (entry :: log)
      = if entry.2 = stays then entry.1 :: decided stays log else decided stays log := by
  simp only [decided, List.filter_cons, decide_eq_true_eq]
  split <;> rfl

/-- Every element is one or the other. -/
theorem decided_perm (log : List (Element × Bool))
    : (decided false log ++ decided true log).Perm (log.map Prod.fst) := by
  induction log with
  | nil => exact .nil
  | cons entry rest ih =>
      obtain ⟨element, stays⟩ := entry
      cases stays with
      | false =>
          rw [decided_cons, decided_cons, if_pos rfl, if_neg Bool.false_ne_true]
          exact ih.cons element
      | true =>
          rw [decided_cons, decided_cons, if_pos rfl, if_neg (Ne.symm Bool.false_ne_true)]
          exact List.perm_middle.trans (ih.cons element)

namespace Sweeps

variable {elements last : List Element} {index place : Nat} {log : List (Element × Bool)}

/-- Of what lay behind the place, each element was looked at once or is still to come. -/
theorem seen (sweeps : Sweeps elements index log last place)
    : (log.map Prod.fst ++ last.drop place).Perm (elements.drop index) := by
  induction sweeps with
  | here => exact .refl _
  | @keep elements index element log last place found later ih =>
      obtain ⟨inside, rfl⟩ := List.getElem?_eq_some_iff.mp found
      rw [List.drop_eq_getElem_cons inside]
      exact ih.cons _
  | @drop elements index element log last place found later ih =>
      obtain ⟨inside, rfl⟩ := List.getElem?_eq_some_iff.mp found
      rw [List.drop_eq_getElem_cons inside]
      exact (ih.trans (swapRemove_drop found)).cons _

/-- What lies in front of the place are the elements that stayed. -/
theorem kept (sweeps : Sweeps elements index log last place)
    : last.take place = elements.take index ++ decided true log := by
  induction sweeps with
  | here => exact (List.append_nil _).symm
  | @keep elements index element log last place found later ih =>
      obtain ⟨inside, rfl⟩ := List.getElem?_eq_some_iff.mp found
      rw [ih, decided_cons, if_pos rfl, List.take_succ_eq_append_getElem inside, List.append_assoc,
        List.singleton_append]
  | @drop elements index element log last place found later ih =>
      have front := (split_at found).2
      rw [ih, swapRemove_eq found, List.take_append_of_le_length (Nat.le_of_eq front.symm),
        List.take_of_length_le (Nat.le_of_eq front), decided_cons, if_neg Bool.false_ne_true]

/-- A pass goes on by one more element, which stays. -/
theorem concat_keep (sweeps : Sweeps elements index log last place) {element : Element}
    (found : last[place]? = some element)
    : Sweeps elements index (log ++ [(element, true)]) last (place + 1) := by
  induction sweeps with
  | here => exact .keep found .here
  | keep earlier _ ih => exact .keep earlier (ih found)
  | drop earlier _ ih => exact .drop earlier (ih found)

/-- Or which is removed. -/
theorem concat_drop (sweeps : Sweeps elements index log last place) {element : Element}
    (found : last[place]? = some element)
    : Sweeps elements index (log ++ [(element, false)]) (swapRemove last place) place := by
  induction sweeps with
  | here => exact .drop found .here
  | keep earlier _ ih => exact .keep earlier (ih found)
  | drop earlier _ ih => exact .drop earlier (ih found)

section Whole

variable (sweeps : Sweeps elements 0 log last place) (ended : last.length ≤ place)
include sweeps ended

/-- A whole pass looks at every element exactly once. -/
theorem seen_all : (log.map Prod.fst).Perm elements := by
  have seen := sweeps.seen
  rwa [List.drop_of_length_le ended, List.append_nil, List.drop_zero] at seen

/-- What is left are the elements that stayed, in the order in which they were looked at. -/
theorem survivors : last = decided true log := by
  have kept := sweeps.kept
  rwa [List.take_of_length_le ended, List.take_zero, List.nil_append] at kept

/-- Only the elements that did not stay are missing. -/
theorem removed : (decided false log ++ last).Perm elements := by
  rw [sweeps.survivors ended]
  exact (decided_perm log).trans (sweeps.seen_all ended)

end Whole
end Sweeps
end NetworkAccess
