import Mathlib.Data.List.Basic

/-! Reading ahead. A stream arrives in pieces, and a reader fills an empty buffer with at most
`capacity` letters of the next piece: what it leaves unread in the buffer depends on where it stops.
-/

namespace NetworkAccess

/-- A buffer, and the pieces that it has not taken letters from yet. -/
structure Buffered (Letter : Type) where
  buffer : List Letter
  pieces : List (List Letter)
deriving DecidableEq

namespace Buffered

variable {Letter : Type} {capacity : Nat}

/-- Everything that is still to be read. -/
def stream (reader : Buffered Letter) : List Letter := reader.buffer ++ reader.pieces.flatten

/-- At most `size` letters of the first piece that has some. -/
def receive (size : Nat) : List (List Letter) → Option (List Letter × List (List Letter))
  | [] => none
  | [] :: rest => receive size rest
  | (letter :: more) :: rest =>
      some ((letter :: more).take size, (letter :: more).drop size :: rest)

/-- `count` letters end a piece, or a whole number of full buffers from the start of one. -/
def AtRefill (capacity : Nat) : List (List Letter) → Nat → Prop
  | [], count => count = 0
  | piece :: rest, count =>
      if count ≤ piece.length then
        count % capacity = 0 ∨ count = piece.length
      else
        AtRefill capacity rest (count - piece.length)

instance decidableAtRefill (capacity : Nat)
    : (pieces : List (List Letter)) → (count : Nat) → Decidable (AtRefill capacity pieces count)
  | [], count => inferInstanceAs (Decidable (count = 0))
  | piece :: rest, count =>
      have := decidableAtRefill capacity rest (count - piece.length)
      inferInstanceAs
        (Decidable
          (if count ≤ piece.length then
            count % capacity = 0 ∨ count = piece.length
          else
            AtRefill capacity rest (count - piece.length)))

/-- After `count` more letters the buffer is empty. -/
def Boundary (capacity : Nat) (reader : Buffered Letter) (count : Nat) : Prop :=
  reader.buffer.length ≤ count
  ∧ AtRefill capacity reader.pieces (count - reader.buffer.length)

/-- From `before` the reader has read `letters` and is at `after`. -/
structure Advances (capacity : Nat) (before : Buffered Letter) (letters : List Letter)
    (after : Buffered Letter)
    : Prop where
  stream : before.stream = letters ++ after.stream
  boundary
    : ∀ count,
        Boundary capacity before (letters.length + count) ↔ Boundary capacity after count

/-- Two stretches of reading are one stretch over the letters of both. -/
theorem Advances.trans {before middle after : Buffered Letter} {letters more : List Letter}
    (first : Advances capacity before letters middle)
    (second : Advances capacity middle more after)
    : Advances capacity before (letters ++ more) after where
  stream := by rw [first.stream, second.stream, List.append_assoc]
  boundary := by
    intro count
    rw [List.length_append, Nat.add_assoc, first.boundary, second.boundary]

/-- Before anything is read, a refill is due. -/
theorem atRefill_zero (pieces : List (List Letter)) : AtRefill capacity pieces 0 := by
  cases pieces with
  | nil => rfl
  | cons piece rest => simp [AtRefill]

/-- A refill is due at once exactly if the buffer is empty. -/
theorem boundary_zero {reader : Buffered Letter}
    : Boundary capacity reader 0 ↔ reader.buffer = [] := by
  constructor
  · exact fun boundary => List.eq_nil_of_length_eq_zero (Nat.le_zero.mp boundary.1)
  · intro empty
    exact ⟨by rw [empty]; exact Nat.le_refl _, by rw [Nat.zero_sub]; exact atRefill_zero _⟩

/-- Where the reader stops, its buffer is empty exactly at a boundary. -/
theorem Advances.buffer_nil_iff {pieces : List (List Letter)} {letters : List Letter}
    {after : Buffered Letter} (advances : Advances capacity ⟨[], pieces⟩ letters after)
    : after.buffer = [] ↔ AtRefill capacity pieces letters.length := by
  have boundary := advances.boundary 0
  rw [boundary_zero, Boundary] at boundary
  simpa using boundary.symm

/-- Nothing is received exactly if no piece has a letter. -/
theorem receive_eq_none_iff {size : Nat} {pieces : List (List Letter)}
    : receive size pieces = none ↔ pieces.flatten = [] := by
  induction pieces with
  | nil => simp [receive]
  | cons piece rest ih =>
      cases piece with
      | nil => rw [receive, ih, List.flatten_cons, List.nil_append]
      | cons letter more => simp [receive]

/-- A read takes some letters from the front of the stream. -/
theorem receive_stream {size : Nat} {pieces rest : List (List Letter)} {letters : List Letter}
    (received : receive size pieces = some (letters, rest))
    : pieces.flatten = letters ++ rest.flatten := by
  induction pieces with
  | nil => cases received
  | cons piece later ih =>
      cases piece with
      | nil =>
          rw [List.flatten_cons, List.nil_append]
          exact ih received
      | cons letter more =>
          cases received
          rw [List.flatten_cons, List.flatten_cons, ← List.append_assoc, List.take_append_drop]

/-- What is received into some room is not empty, by induction on the pieces. -/
theorem receive_ne_nil {size : Nat} (positive : 0 < size) {pieces rest : List (List Letter)}
    {letters : List Letter} (received : receive size pieces = some (letters, rest))
    : letters ≠ [] := by
  induction pieces with
  | nil => cases received
  | cons piece later ih =>
      cases piece with
      | nil => exact ih received
      | cons letter more =>
          obtain ⟨size, rfl⟩ := Nat.exists_eq_succ_of_ne_zero (Nat.pos_iff_ne_zero.mp positive)
          cases received
          exact List.cons_ne_nil _ _

/-- The pieces that bring something. -/
def filled (pieces : List (List Letter)) : List (List Letter) :=
  pieces.filter (fun piece => !piece.isEmpty)

/-- An empty piece fills no buffer. -/
theorem filled_nil_cons (rest : List (List Letter)) : filled ([] :: rest) = filled rest := rfl

/-- Pieces without letters do not matter. -/
theorem filled_append_nil {pieces : List (List Letter)} (none_ : pieces.flatten = [])
    (rest : List (List Letter))
    : filled (pieces ++ rest) = filled rest := by
  have empty : filled pieces = [] := by
    rw [filled, List.filter_eq_nil_iff]
    intro piece member
    rw [List.flatten_eq_nil_iff.mp none_ piece member]
    exact nofun
  rw [filled, List.filter_append, ← filled, ← filled, empty, List.nil_append]

/-- The filled buffers have the letters of the pieces. -/
theorem filled_flatten (pieces : List (List Letter)) : (filled pieces).flatten = pieces.flatten :=
  List.flatten_filter_not_isEmpty

/-- No buffer is filled with nothing. -/
theorem filled_ne_nil {pieces rest : List (List Letter)} {piece : List Letter}
    (first : filled pieces = piece :: rest)
    : piece ≠ [] := by
  have member : piece ∈ filled pieces := first ▸ List.mem_cons_self
  rintro rfl
  exact absurd (List.mem_filter.mp member).2 (by simp)

/-- A read takes from the first piece that brings something. -/
theorem receive_filled (size : Nat) {pieces rest : List (List Letter)} {piece : List Letter}
    (first : filled pieces = piece :: rest)
    : ∃ later,
        receive size pieces = some (piece.take size, piece.drop size :: later)
        ∧ filled later = rest := by
  induction pieces with
  | nil => cases first
  | cons head tail ih =>
      cases head with
      | nil => exact ih first
      | cons letter more =>
          cases first
          exact ⟨tail, rfl, rfl⟩

/-- Nothing is received where no buffer can be filled. -/
theorem receive_filled_nil {size : Nat} {pieces : List (List Letter)} (none_ : filled pieces = [])
    : receive size pieces = none := by
  induction pieces with
  | nil => rfl
  | cons head tail ih =>
      cases head with
      | nil => exact ih none_
      | cons letter more => cases none_

/-- A full read moves the boundaries along, other than the one where it takes place. -/
theorem receive_boundary {pieces rest : List (List Letter)} {letters : List Letter}
    (received : receive capacity pieces = some (letters, rest)) {count : Nat} (some_ : 0 < count)
    : AtRefill capacity pieces count ↔ Boundary capacity ⟨letters, rest⟩ count := by
  induction pieces with
  | nil => cases received
  | cons piece later ih =>
      cases piece with
      | nil =>
          rw [AtRefill, List.length_nil, if_neg (by omega), Nat.sub_zero]
          exact ih received
      | cons letter more =>
          cases received
          generalize letter :: more = piece
          rw [Boundary, AtRefill, AtRefill, List.length_take, List.length_drop]
          generalize piece.length = length
          by_cases long : capacity ≤ length
          · rw [Nat.min_eq_left long]
            by_cases reached : capacity ≤ count
            · have behind : count - capacity - (length - capacity) = count - length := by omega
              rw [← Nat.mod_eq_sub_mod reached, behind, and_iff_right reached]
              by_cases inside : count ≤ length
              · rw [if_pos inside, if_pos (by omega)]
                omega
              · rw [if_neg inside, if_neg (by omega)]
            · rw [if_pos (by omega), Nat.mod_eq_of_lt (Nat.not_le.mp reached)]
              omega
          · rw [Nat.min_eq_right (by omega), Nat.sub_eq_zero_of_le (Nat.le_of_not_le long)]
            by_cases inside : count ≤ length
            · rw [if_pos inside, if_pos (by omega), Nat.mod_eq_of_lt (by omega)]
              by_cases whole : count = length
              · simp [whole]
              · omega
            · rw [if_neg inside, if_neg (by omega), Nat.sub_zero, and_iff_right (by omega)]

/-- The buffer is used up before it is filled again. -/
theorem advances_buffered (letters more : List Letter) (pieces : List (List Letter))
    : Advances capacity ⟨letters ++ more, pieces⟩ letters ⟨more, pieces⟩ where
  stream := List.append_assoc _ _ _
  boundary := by
    intro count
    simp only [Boundary, List.length_append, Nat.add_le_add_iff_left, Nat.add_sub_add_left]

/-- A refill and the use of some of what it brought. -/
theorem advances_refilled {pieces rest : List (List Letter)} {letters more : List Letter}
    (used : letters ≠ []) (received : receive capacity pieces = some (letters ++ more, rest))
    : Advances capacity ⟨[], pieces⟩ letters ⟨more, rest⟩ where
  stream := by
    rw [stream, stream, receive_stream received, List.nil_append, List.append_assoc]
  boundary := by
    intro count
    have some_ : 0 < letters.length + count :=
      Nat.add_pos_left (List.length_pos_of_ne_nil used) count
    rw [← (advances_buffered letters more rest).boundary count,
      ← receive_boundary received some_, Boundary]
    simp

end Buffered

end NetworkAccess
