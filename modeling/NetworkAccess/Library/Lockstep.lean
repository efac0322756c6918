import NetworkAccess.Library.Reaction

/-! Two machines that read the same letters in lockstep: they emit the same, and they go on
from related states or stop for related reasons.
-/

namespace NetworkAccess
namespace Reaction

variable {Output Stop Final State Next Letter : Type}

/-- Two reactions with the same outputs whose outcomes are related. -/
inductive Agree (live : State → Next → Prop) (ended : Stop → Final → Prop)
    : Reaction Output Stop State → Reaction Output Final Next → Prop
  | emit (outputs) {left right} (related : live left right)
    : Agree live ended (.emit outputs left) (.emit outputs right)
  | stop (outputs) {left right} (related : ended left right)
    : Agree live ended (.stop outputs left) (.stop outputs right)

namespace Agree

variable {live : State → Next → Prop} {ended : Stop → Final → Prop}
  {left : Reaction Output Stop State} {right : Reaction Output Final Next}

/-- Reactions that agree do so behind the same outputs. -/
theorem prepend (outputs : List Output) (agree : Agree live ended left right)
    : Agree live ended (left.prepend outputs) (right.prepend outputs) := by
  cases agree with
  | emit more related => exact .emit _ related
  | stop more related => exact .stop _ related

/-- Related states go on in lockstep. -/
theorem andThen {Later After : Type} {later : Later → After → Prop}
    {next : State → Reaction Output Stop Later} {follow : Next → Reaction Output Final After}
    (agree : Agree live ended left right)
    (goOn : ∀ state other, live state other → Agree later ended (next state) (follow other))
    : Agree later ended (left.andThen next) (right.andThen follow) := by
  cases agree with
  | emit outputs related => exact (goOn _ _ related).prepend outputs
  | stop outputs related => exact .stop outputs related

/-- What else is known of both outcomes joins the relation. -/
theorem refine {other : State → Next → Prop} {reason : Stop → Final → Prop}
    (agree : Agree live ended left right)
    (goesOn
      : ∀ state next,
          left.result = .ok state → right.result = .ok next → live state next → other state next)
    (stops : ∀ stop final, ended stop final → reason stop final)
    : Agree other reason left right := by
  cases agree with
  | emit outputs related => exact .emit outputs (goesOn _ _ rfl rfl related)
  | stop outputs related => exact .stop outputs (stops _ _ related)

/-- Reactions that agree after renaming agree before it. -/
theorem of_project {State' Next' Stop' Final' : Type} {back : State' → State}
    {reason : Stop' → Stop} {forth : Next' → Next} {cause : Final' → Final}
    {first : Reaction Output Stop' State'} {second : Reaction Output Final' Next'}
    (agree : Agree live ended (first.project back reason) (second.project forth cause))
    : Agree (fun state next => live (back state) (forth next))
        (fun stop final => ended (reason stop) (cause final)) first second := by
  rcases first.cases_eq with ⟨outputs, state, rfl⟩ | ⟨outputs, stop, rfl⟩
  · rcases second.cases_eq with ⟨more, next, rfl⟩ | ⟨more, final, rfl⟩
    · cases agree with | emit _ related => exact .emit _ related
    · cases agree
  · rcases second.cases_eq with ⟨more, next, rfl⟩ | ⟨more, final, rfl⟩
    · cases agree
    · cases agree with | stop _ related => exact .stop _ related

/-- Machines whose steps agree read a stream in lockstep, by induction on its letters. -/
theorem foldlM {step : State → Letter → Reaction Output Stop State}
    {walk : Next → Letter → Reaction Output Final Next}
    (steps
      : ∀ state next letter,
          live state next → Agree live ended (step state letter) (walk next letter))
    {state : State} {next : Next} (related : live state next) (letters : List Letter)
    : Agree live ended (letters.foldlM step state) (letters.foldlM walk next) := by
  induction letters generalizing state next with
  | nil => exact .emit [] related
  | cons letter rest ih =>
      rw [List.foldlM_cons, List.foldlM_cons]
      exact (steps state next letter related).andThen (fun _ _ later => ih later)

end Agree
end Reaction
end NetworkAccess
