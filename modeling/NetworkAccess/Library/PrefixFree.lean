import Mathlib.Data.List.Basic

/-! Words of which none is the beginning of another one. A text of such words has one reading only.
-/

namespace NetworkAccess

variable {Letter : Type}

/-- No word begins another one, and none is empty. -/
structure PrefixFree (Word : List Letter → Prop) : Prop where
  nonempty : ¬ Word []
  eq_of_begins : ∀ left right, Word left → Word right → left <+: right → left = right

namespace PrefixFree

variable {Word : List Letter → Prop} (free : PrefixFree Word)
include free

/-- The first word of a text is determined, and with it what follows. -/
theorem first {left right rest later : List Letter} (one : Word left) (other : Word right)
    (same : left ++ rest = right ++ later)
    : left = right ∧ rest = later := by
  have equal : left = right := by
    rcases List.prefix_or_prefix_of_prefix (List.prefix_append left rest)
      (same ▸ List.prefix_append right later) with shorter | longer
    · exact free.eq_of_begins left right one other shorter
    · exact (free.eq_of_begins right left other one longer).symm
  subst equal
  exact ⟨rfl, List.append_cancel_left same⟩

/-- By induction on the words: the words of a text are determined. -/
theorem flatten_inj {words others : List (List Letter)} (left : ∀ word ∈ words, Word word)
    (right : ∀ word ∈ others, Word word) (same : words.flatten = others.flatten)
    : words = others := by
  have not_nil {rest : List (List Letter)} {word : List Letter} (is : Word word)
      : (word :: rest).flatten ≠ [] := by
    rw [List.flatten_cons]
    intro empty
    exact free.nonempty ((List.append_eq_nil_iff.mp empty).1 ▸ is)
  induction words generalizing others with
  | nil =>
      cases others with
      | nil => rfl
      | cons word rest => exact absurd same.symm (not_nil (right word List.mem_cons_self))
  | cons word rest ih =>
      cases others with
      | nil => exact absurd same (not_nil (left word List.mem_cons_self))
      | cons other more =>
          obtain ⟨here, later⟩ := List.forall_mem_cons.mp left
          obtain ⟨there, behind⟩ := List.forall_mem_cons.mp right
          rw [List.flatten_cons, List.flatten_cons] at same
          obtain ⟨rfl, tail⟩ := free.first here there same
          rw [ih later behind tail]

end PrefixFree
end NetworkAccess
