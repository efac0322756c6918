import Mathlib.Data.List.Basic
import Mathlib.Data.List.Nodup
import Mathlib.Data.List.Range

/-! A channel that takes some prefix of every buffer offered to it. What arrives is a prefix of all
that was offered exactly if nothing is taken of the offers behind one that was cut.
-/

namespace NetworkAccess

/-- A buffer, and how many of its letters the channel takes if there are so many. -/
structure Offer (Letter : Type) where
  buffer : List Letter
  taken : Nat
deriving DecidableEq

namespace Offer

variable {Letter : Type}

/-- What is transmitted of a buffer. -/
def sent (offer : Offer Letter) : List Letter := offer.buffer.take offer.taken

/-- A write that is short. -/
def Cut (offer : Offer Letter) : Prop := offer.taken < offer.buffer.length

instance : DecidablePred (Cut : Offer Letter → Prop) :=
  fun offer => inferInstanceAs (Decidable (offer.taken < offer.buffer.length))

/-- Nothing is taken behind a cut. -/
def Settled (offers : List (Offer Letter)) : Prop :=
  offers.Pairwise (fun earlier later => earlier.Cut → later.sent = [])

/-- The offers with the position of every letter in the whole text, from `start` on. -/
def number (start : Nat) : List (Offer Letter) → List (Offer (Letter × Nat))
  | [] => []
  | offer :: rest =>
      { buffer := offer.buffer.zipIdx start, taken := offer.taken }
        :: number (start + offer.buffer.length) rest

/-- What arrives is the beginning of the whole text: no letter is missing before another. -/
def InOrder (offers : List (Offer Letter)) : Prop :=
  (number 0 offers).flatMap sent <+: (offers.flatMap buffer).zipIdx

/-- A write that is not short transmits its buffer. -/
theorem sent_of_not_cut {offer : Offer Letter} (whole : ¬ offer.Cut) : offer.sent = offer.buffer :=
  List.take_of_length_le (Nat.not_lt.mp whole)

-----------------------------------------------------------------------------------------
-- Letters that are all different
-----------------------------------------------------------------------------------------

/-- Where nothing follows a short write, what is sent is the beginning of all, by induction on the
writes.
-/
theorem start_of_settled {offers : List (Offer Letter)} (settled : Settled offers)
    : offers.flatMap sent <+: offers.flatMap buffer := by
  induction offers with
  | nil => exact List.prefix_rfl
  | cons offer rest ih =>
      have later := List.pairwise_cons.mp settled
      rw [List.flatMap_cons, List.flatMap_cons]
      by_cases cut : offer.Cut
      · have silent : rest.flatMap sent = [] :=
          List.flatMap_eq_nil_iff.mpr (fun next member => later.1 next member cut)
        rw [silent, List.append_nil]
        exact (List.take_prefix _ _).trans (List.prefix_append _ _)
      · rw [sent_of_not_cut cut]
        exact (List.prefix_append_right_inj _).mpr (ih later.2)

/-- Behind a cut an arriving letter would stand in two buffers. -/
theorem silent_of_start {offer : Offer Letter} {arrived behind : List Letter}
    (cut : offer.Cut) (distinct : (offer.buffer ++ behind).Nodup)
    (inside : ∀ letter ∈ arrived, letter ∈ behind)
    (starts : offer.sent ++ arrived <+: offer.buffer ++ behind)
    : arrived = [] := by
  cases arrived with
  | nil => rfl
  | cons letter rest =>
      have length : offer.sent.length = offer.taken := by
        rw [sent, List.length_take, Nat.min_eq_left (Nat.le_of_lt cut)]
      have lost : (offer.buffer ++ behind)[offer.taken]? = some letter := by
        obtain ⟨more, whole⟩ := starts
        rw [← whole, List.append_assoc, List.getElem?_append_right (Nat.le_of_eq length), length,
          Nat.sub_self]
        rfl
      rw [List.getElem?_append_left cut] at lost
      exact absurd (inside letter List.mem_cons_self)
        (List.disjoint_of_nodup_append distinct (List.mem_of_getElem? lost))

/-- If no letter repeats, only settled offers arrive as a prefix. -/
theorem settled_of_start {offers : List (Offer Letter)} (distinct : (offers.flatMap buffer).Nodup)
    (starts : offers.flatMap sent <+: offers.flatMap buffer)
    : Settled offers := by
  induction offers with
  | nil => exact List.Pairwise.nil
  | cons offer rest ih =>
      rw [List.flatMap_cons] at distinct
      rw [List.flatMap_cons, List.flatMap_cons] at starts
      have later := (List.nodup_append.mp distinct).2.1
      have taken : ∀ letter ∈ rest.flatMap sent, letter ∈ rest.flatMap buffer := by
        intro letter member
        obtain ⟨next, member, arrives⟩ := List.mem_flatMap.mp member
        exact List.mem_flatMap.mpr ⟨next, member, List.mem_of_mem_take arrives⟩
      by_cases cut : offer.Cut
      · have silent := silent_of_start cut distinct taken starts
        have none_ : ∀ next ∈ rest, next.sent = [] := List.flatMap_eq_nil_iff.mp silent
        refine List.pairwise_cons.mpr ⟨fun next member _ => none_ next member, ih later ?_⟩
        rw [silent]
        exact List.nil_prefix
      · rw [sent_of_not_cut cut] at starts
        exact List.pairwise_cons.mpr ⟨fun _ _ isCut => absurd isCut cut,
          ih later ((List.prefix_append_right_inj _).mp starts)⟩

-----------------------------------------------------------------------------------------
-- Letters with their positions
-----------------------------------------------------------------------------------------

/-- The numbered buffers are the numbered letters of all buffers, by induction on them. -/
theorem number_buffers (start : Nat) (offers : List (Offer Letter))
    : (number start offers).flatMap buffer = (offers.flatMap buffer).zipIdx start := by
  induction offers generalizing start with
  | nil => rfl
  | cons offer rest ih =>
      rw [number, List.flatMap_cons, List.flatMap_cons, ih, List.zipIdx_append, Nat.add_comm]

/-- Numbering does not change what is sent. -/
theorem number_sent (start : Nat) (offers : List (Offer Letter))
    : ((number start offers).flatMap sent).map Prod.fst = offers.flatMap sent := by
  induction offers generalizing start with
  | nil => rfl
  | cons offer rest ih =>
      rw [number, List.flatMap_cons, List.flatMap_cons, List.map_append, ih, sent, sent,
        List.map_take, List.zipIdx_map_fst]

/-- What decides whether offers are settled. -/
def shape (offer : Offer Letter) : Nat × Nat := (offer.taken, offer.buffer.length)

/-- Whether anything follows a short write depends on the lengths only. -/
theorem settled_iff_shape (offers : List (Offer Letter))
    : Settled offers
      ↔ (offers.map shape).Pairwise
          (fun earlier later => earlier.1 < earlier.2 → later.1 = 0 ∨ later.2 = 0) := by
  have empty : ∀ offer : Offer Letter,
      offer.sent = [] ↔ offer.shape.1 = 0 ∨ offer.shape.2 = 0 := by
    intro offer
    rw [sent, List.take_eq_nil_iff, shape, List.length_eq_zero_iff]
  simp only [Settled, List.pairwise_map, empty]
  rfl

/-- Numbering keeps the lengths, by induction on the writes. -/
theorem number_shape (start : Nat) (offers : List (Offer Letter))
    : (number start offers).map shape = offers.map shape := by
  induction offers generalizing start with
  | nil => rfl
  | cons offer rest ih =>
      rw [number, List.map_cons, List.map_cons, ih, shape, List.length_zipIdx]
      rfl

/-- Numbering keeps whether anything follows a short write. -/
theorem number_settled (start : Nat) (offers : List (Offer Letter))
    : Settled (number start offers) ↔ Settled offers := by
  rw [settled_iff_shape, settled_iff_shape, number_shape]

/-- Arriving in order and being settled are one. -/
theorem inOrder_iff (offers : List (Offer Letter)) : InOrder offers ↔ Settled offers := by
  have distinct : ((number 0 offers).flatMap buffer).Nodup := by
    rw [number_buffers]
    apply List.Nodup.of_map Prod.snd
    rw [List.zipIdx_map_snd]
    exact List.nodup_range'
  rw [InOrder, ← number_buffers, ← number_settled 0]
  exact ⟨settled_of_start distinct, start_of_settled⟩

/-- Then the letters arrive as a prefix of the text. -/
theorem InOrder.sent_starts {offers : List (Offer Letter)} (inOrder : InOrder offers)
    : offers.flatMap sent <+: offers.flatMap buffer := by
  have starts := List.IsPrefix.map Prod.fst inOrder
  rwa [number_sent, List.zipIdx_map_fst] at starts

end Offer

end NetworkAccess
