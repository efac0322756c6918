import NetworkAccess.Library.Segments

/-! One machine seen through a filter of its outputs, next to another machine: both show the
same and go on in related states. A machine that stops for an excused reason shows anything.
-/

namespace NetworkAccess
namespace Reaction

variable {Output Stop Final State Next Letter : Type}

/-- Seen through `visible`, the first reaction shows what the second one does, and their
outcomes are related.
-/
inductive Shows (visible : Output → Bool) (live : State → Next → Prop)
    (ended : Stop → Final → Prop) (excused : Stop → Prop)
    : Reaction Output Stop State → Reaction Output Final Next → Prop
  | emit {outputs more left right} (same : outputs.filter visible = more.filter visible)
    (related : live left right)
    : Shows visible live ended excused (.emit outputs left) (.emit more right)
  | stop {outputs more left right} (same : outputs.filter visible = more.filter visible)
    (related : ended left right)
    : Shows visible live ended excused (.stop outputs left) (.stop more right)
  | excuse {outputs left other} (reason : excused left)
    : Shows visible live ended excused (.stop outputs left) other

namespace Shows

variable {visible : Output → Bool} {live : State → Next → Prop} {ended : Stop → Final → Prop}
  {excused : Stop → Prop} {left : Reaction Output Stop State}
  {right : Reaction Output Final Next}

/-- What is shown, unless the first reaction is excused. -/
theorem same (shows_ : Shows visible live ended excused left right)
    (sound : ∀ reason, left.result = .error reason → ¬ excused reason)
    : left.emitted.filter visible = right.emitted.filter visible := by
  cases shows_ with
  | emit same => exact same
  | stop same => exact same
  | excuse reason => exact absurd reason (sound _ rfl)

/-- Reactions that show the same do so behind outputs that show the same. -/
theorem prepend {outputs more : List Output}
    (same : outputs.filter visible = more.filter visible)
    (shows_ : Shows visible live ended excused left right)
    : Shows visible live ended excused (left.prepend outputs) (right.prepend more) := by
  cases shows_ with
  | emit later related => exact .emit (by simp [same, later]) related
  | stop later related => exact .stop (by simp [same, later]) related
  | excuse reason => exact .excuse reason

/-- Related states go on to show the same. -/
theorem andThen {Later After : Type} {later : Later → After → Prop}
    {next : State → Reaction Output Stop Later} {follow : Next → Reaction Output Final After}
    (shows_ : Shows visible live ended excused left right)
    (goOn
      : ∀ state other,
          live state other → Shows visible later ended excused (next state) (follow other))
    : Shows visible later ended excused (left.andThen next) (right.andThen follow) := by
  cases shows_ with
  | emit same related => exact (goOn _ _ related).prepend same
  | stop same related => exact .stop same related
  | excuse reason => exact .excuse reason

/-- Machines whose calm steps show the same do so along a calm run, by induction on its
letters.
-/
theorem foldlM {step : State → Letter → Reaction Output Stop State}
    {walk : Next → Letter → Reaction Output Final Next} {calm : State → Letter → Prop}
    {translate : Letter → Letter}
    (steps
      : ∀ state next letter,
          live state next
          → calm state letter
          → Shows visible live ended excused (step state letter) (walk next (translate letter)))
    {state : State} {next : Next} (related : live state next) {letters : List Letter}
    (along : CalmAlong step calm state letters)
    : Shows visible live ended excused (letters.foldlM step state)
        ((letters.map translate).foldlM walk next) := by
  induction letters generalizing state next with
  | nil => exact .emit rfl related
  | cons letter rest ih =>
      rw [List.map_cons, List.foldlM_cons, List.foldlM_cons, bind_eq, bind_eq]
      have here := steps state next letter related along.1
      generalize turn : step state letter = left, walk next (translate letter) = right at here
      cases here with
      | emit same later => exact (ih later (along.2 _ (by rw [turn]; rfl))).prepend same
      | stop same related => exact .stop same related
      | excuse reason => exact .excuse reason

end Shows
end Reaction
end NetworkAccess
