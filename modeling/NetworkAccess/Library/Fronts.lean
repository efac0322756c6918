import Mathlib.Data.List.Infix

/-! The items of a list together with those before them, as the states before the events of a
history are given by the events before them.
-/

namespace NetworkAccess

variable {Item : Type}

/-- The items, each with those before it. -/
def withFronts (items : List Item) : List (List Item × Item) := items.inits.zip items

/-- The fronts of a longer list are those of its rest with the first item before them. -/
theorem withFronts_cons (item : Item) (rest : List Item)
    : withFronts (item :: rest)
      = ([], item) :: (withFronts rest).map (fun turn => (item :: turn.1, turn.2)) := by
  rw [withFronts, List.inits_cons, List.zip_cons_cons, List.zip_map_left]
  rfl

/-- Without their fronts the items are the list, by induction on it. -/
theorem withFronts_items (items : List Item) : (withFronts items).map Prod.snd = items := by
  induction items with
  | nil => rfl
  | cons item rest ih =>
      rw [withFronts_cons, List.map_cons, List.map_map]
      exact congrArg (item :: ·) ih

/-- A front and its item are a beginning of the list, by induction on it. -/
theorem withFronts_begins {items : List Item}
    : ∀ turn ∈ withFronts items, turn.1 ++ [turn.2] <+: items := by
  induction items with
  | nil => exact List.forall_mem_nil _
  | cons item rest ih =>
      rw [withFronts_cons, List.forall_mem_cons, List.forall_mem_map]
      refine ⟨List.prefix_append [item] rest, fun turn member => ?_⟩
      exact (List.prefix_cons_inj item).mpr (ih turn member)

/-- What is before an item is before all later ones, by induction on the items. -/
theorem withFronts_ordered (items : List Item)
    : (withFronts items).Pairwise (fun one later => one.1 ++ [one.2] <+: later.1) := by
  induction items with
  | nil => exact .nil
  | cons item rest ih =>
      rw [withFronts_cons, List.pairwise_cons, List.forall_mem_map, List.pairwise_map]
      refine ⟨fun turn _ => List.prefix_append [item] turn.1, ih.imp (fun begins => ?_)⟩
      exact (List.prefix_cons_inj item).mpr begins

end NetworkAccess
