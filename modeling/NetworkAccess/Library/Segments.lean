import NetworkAccess.Library.Reaction

/-! A stream reaches its reader in segments. A reader that handles whole segments is
compared with a machine that reads letter by letter: where every segment is handled as
the machine handles its letters, the segmentation leaves no trace in the outcome.
-/

namespace NetworkAccess
namespace Reaction

variable {Output Stop Final State Coarse Letter Segment : Type}

/-- Projecting a continued reaction projects both of its parts. -/
theorem project_andThen {live : Coarse → State} {final : Stop → Final}
    {first : Reaction Output Stop Coarse} {next : Coarse → Reaction Output Stop Coarse}
    {after : State → Reaction Output Final State}
    (agree : ∀ coarse, first.result = .ok coarse
      → (next coarse).project live final = after (live coarse))
    : (first.andThen next).project live final
      = (first.project live final).andThen after := by
  rcases first.cases_eq with ⟨outputs, coarse, rfl⟩ | ⟨outputs, reason, rfl⟩
  · simp only [project_emit, emit_andThen, project_prepend, agree coarse rfl]
  · simp

section Refinement

variable (handle : Coarse → Segment → Reaction Output Stop Coarse)
  (calm : Coarse → Segment → Prop)

/-- Every segment satisfies `calm` in the state in which it is handled. -/
def CalmAlong : Coarse → List Segment → Prop
  | _, [] => True
  | coarse, segment :: rest =>
      calm coarse segment
      ∧ ∀ next, (handle coarse segment).result = .ok next → CalmAlong next rest

variable {handle calm}

instance CalmAlong.decidable [∀ coarse segment, Decidable (calm coarse segment)]
    : ∀ coarse segments, Decidable (CalmAlong handle calm coarse segments)
  | _, [] => isTrue trivial
  | coarse, segment :: rest =>
      match result : (handle coarse segment).result with
      | .ok next =>
          have := decidable next rest
          decidable_of_iff (calm coarse segment ∧ CalmAlong handle calm next rest)
            (and_congr_right (fun _ => ⟨
              fun along _ same => Except.ok.inj (result.symm.trans same) ▸ along,
              fun along => along next result
            ⟩))
      | .error _ =>
          decidable_of_iff (calm coarse segment)
            ⟨fun here => ⟨here, fun _ same => nomatch result.symm.trans same⟩, And.left⟩

/-- The first part of a calm run is calm. -/
theorem CalmAlong.of_append {coarse : Coarse} {front back : List Segment}
    (along : CalmAlong handle calm coarse (front ++ back))
    : CalmAlong handle calm coarse front := by
  induction front generalizing coarse with
  | nil => trivial
  | cons segment rest ih => exact ⟨along.1, fun next continues => ih (along.2 next continues)⟩

/-- The part of a calm run behind its first one is calm. -/
theorem CalmAlong.of_result {coarse last : Coarse} {front back : List Segment}
    (along : CalmAlong handle calm coarse (front ++ back))
    (continues : (front.foldlM handle coarse).result = .ok last)
    : CalmAlong handle calm last back := by
  induction front generalizing coarse with
  | nil =>
      cases continues
      exact along
  | cons segment rest ih =>
      rw [List.foldlM_cons, bind_eq] at continues
      rcases (handle coarse segment).cases_eq with ⟨outputs, next, eq⟩ | ⟨outputs, reason, eq⟩
      · rw [eq, emit_andThen] at continues
        exact ih (along.2 next (by rw [eq]; rfl)) continues
      · rw [eq, stop_andThen] at continues
        cases continues

/-- A run can be calm in two ways at once. -/
theorem CalmAlong.both {other : Coarse → Segment → Prop} {coarse : Coarse}
    {segments : List Segment} (along : CalmAlong handle calm coarse segments)
    (also : CalmAlong handle other coarse segments)
    : CalmAlong handle (fun coarse segment => calm coarse segment ∧ other coarse segment) coarse
        segments := by
  induction segments generalizing coarse with
  | nil => trivial
  | cons segment rest ih =>
      exact ⟨
        ⟨along.1, also.1⟩,
        fun next continues => ih (along.2 next continues) (also.2 next continues)
      ⟩

/-- What all segments satisfy joins their calm. -/
theorem CalmAlong.and {extra : Segment → Prop} {coarse : Coarse} {segments : List Segment}
    (along : CalmAlong handle calm coarse segments)
    (all : ∀ segment ∈ segments, extra segment)
    : CalmAlong handle (fun coarse segment => calm coarse segment ∧ extra segment) coarse
        segments := by
  induction segments generalizing coarse with
  | nil => trivial
  | cons segment rest ih =>
      obtain ⟨here, later⟩ := List.forall_mem_cons.mp all
      exact ⟨⟨along.1, here⟩, fun next continues => ih (along.2 next continues) later⟩

variable (handle calm) (letters : Segment → List Letter)
  (step : State → Letter → Reaction Output Final State)
  (live : Coarse → State) (final : Stop → Final) (invariant : Coarse → Prop)

/-- `handle` reads one calm segment as the letter machine reads its letters, and keeps
its invariant whenever it goes on.
-/
structure ReadsAs : Prop where
  agrees
    : ∀ coarse segment,
        invariant coarse
        → calm coarse segment
        → (handle coarse segment).project live final
          = (letters segment).foldlM step (live coarse)
  keeps
    : ∀ coarse segment next,
        invariant coarse
        → calm coarse segment
        → (handle coarse segment).result = .ok next
        → invariant next

variable {handle calm letters step live final invariant}

/-- Handling calm segments is reading the concatenated letters, by induction on the
segments along the run.
-/
theorem ReadsAs.foldlM
    (reads : ReadsAs handle calm letters step live final invariant)
    {coarse : Coarse} (kept : invariant coarse) {segments : List Segment}
    (along : CalmAlong handle calm coarse segments)
    : (segments.foldlM handle coarse).project live final
      = (segments.flatMap letters).foldlM step (live coarse) := by
  induction segments generalizing coarse with
  | nil => rfl
  | cons segment rest ih =>
      rw [List.foldlM_cons, List.flatMap_cons, List.foldlM_append, bind_eq, bind_eq,
        ← reads.agrees coarse segment kept along.1]
      refine project_andThen (fun next continues => ?_)
      exact ih (reads.keeps coarse segment next kept along.1 continues) (along.2 next continues)

end Refinement
end Reaction
end NetworkAccess
