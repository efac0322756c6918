import Mathlib.Data.List.Basic

/-! Accounts of what is opened and closed along a history of outputs. The account of a key is
in order while its openings and closings alternate, beginning with an opening.
-/

namespace NetworkAccess
namespace Ledger

/-- What one output means for the accounts. -/
inductive Entry (Key : Type) where
  | opens (key : Key)
  | closes (key : Key)
  | silent
deriving DecidableEq

variable {Key Output : Type} [DecidableEq Key] {entry : Output → Entry Key}

/-- Whether `key` is open after one more output, or `none` where it is opened while it is open
or closed while it is not.
-/
def post (entry : Output → Entry Key) (key : Key) (isOpen : Bool) (output : Output)
    : Option Bool :=
  match entry output with
  | .opens other =>
      if other = key then
        if isOpen then none else some true
      else
        some isOpen
  | .closes other =>
      if other = key then
        if isOpen then some false else none
      else
        some isOpen
  | .silent => some isOpen

/-- The account of `key` is in order after `trace`, and `key` is open or not. -/
def Account (entry : Output → Entry Key) (trace : List Output) (key : Key) (isOpen : Bool)
    : Prop :=
  trace.foldlM (post entry key) false = some isOpen

instance (entry : Output → Entry Key) (trace : List Output) (key : Key) (isOpen : Bool)
    : Decidable (Account entry trace key isOpen) :=
  inferInstanceAs (Decidable (_ = _))

/-- The output opens or closes `key`. -/
def Concerns (entry : Output → Entry Key) (key : Key) (output : Output) : Prop :=
  entry output = .opens key ∨ entry output = .closes key

namespace Account

variable {trace outputs : List Output} {output : Output} {key : Key} {isOpen : Bool}

/-- A key is closed before anything is posted. -/
theorem nil : Account entry [] key false := rfl

/-- An account is open or it is not. -/
theorem unique {other : Bool} (account : Account entry trace key isOpen)
    (again : Account entry trace key other)
    : isOpen = other :=
  Option.some.inj (account.symm.trans again)

/-- An output that does not concern a key leaves its entry open or closed. -/
theorem post_of_not_concerns (apart : ¬ Concerns entry key output)
    : post entry key isOpen output = some isOpen := by
  rw [Concerns, not_or] at apart
  cases kind : entry output with
  | opens other =>
      have differ : other ≠ key := fun same => apart.1 (same ▸ kind)
      simp [post, kind, differ]
  | closes other =>
      have differ : other ≠ key := fun same => apart.2 (same ▸ kind)
      simp [post, kind, differ]
  | silent => simp [post, kind]

/-- Outputs about other keys change nothing, by induction on the outputs. -/
theorem append_iff (apart : ∀ output ∈ outputs, ¬ Concerns entry key output)
    : Account entry (trace ++ outputs) key isOpen ↔ Account entry trace key isOpen := by
  have unchanged (start : Bool) : outputs.foldlM (post entry key) start = some start := by
    induction outputs with
    | nil => rfl
    | cons output rest ih =>
        obtain ⟨here, later⟩ := List.forall_mem_cons.mp apart
        rw [List.foldlM_cons, post_of_not_concerns here]
        exact ih later
  rw [Account, Account, List.foldlM_append]
  cases result : trace.foldlM (post entry key) false with
  | none => simp
  | some now => simp [unchanged]

/-- Outputs that do not concern a key leave its account as it is. -/
theorem append (account : Account entry trace key isOpen)
    (apart : ∀ output ∈ outputs, ¬ Concerns entry key output)
    : Account entry (trace ++ outputs) key isOpen :=
  (append_iff apart).mpr account

/-- One more output is posted to the account of the outputs before it. -/
theorem concat (account : Account entry trace key isOpen)
    : (trace ++ [output]).foldlM (post entry key) false = post entry key isOpen output := by
  rw [List.foldlM_append, account]
  exact bind_pure (post entry key isOpen output)

/-- An open key may be closed. -/
theorem closes (account : Account entry trace key true) (kind : entry output = .closes key)
    : Account entry (trace ++ [output]) key false := by
  rw [Account, account.concat]
  simp [post, kind]

/-- When a new key is opened, the open keys are one more. -/
theorem opens_perm {opened : Key} {keys after : List Key}
    (account : Account entry trace key (decide (key ∈ keys)))
    (kind : entry output = .opens opened) (fresh : opened ∉ keys)
    (perm : after.Perm (opened :: keys))
    : Account entry (trace ++ [output]) key (decide (key ∈ after)) := by
  rw [Account, account.concat]
  by_cases same : opened = key
  · subst same
    simp [post, kind, fresh, perm.mem_iff]
  · simp [post, kind, same, perm.mem_iff, Ne.symm same]

/-- When an open key is closed, the open keys are one less. -/
theorem closes_perm {closed : Key} {keys after : List Key}
    (account : Account entry trace key (decide (key ∈ keys)))
    (kind : entry output = .closes closed) (distinct : keys.Nodup)
    (perm : (closed :: after).Perm keys)
    : Account entry (trace ++ [output]) key (decide (key ∈ after)) := by
  have gone : closed ∉ after := (List.nodup_cons.mp (perm.nodup_iff.mpr distinct)).1
  rw [Account, account.concat]
  by_cases same : closed = key
  · subst same
    simp [post, kind, gone, ← perm.mem_iff]
  · simp [post, kind, same, ← perm.mem_iff, Ne.symm same]

/-- Closing each of some keys once closes the open ones among them, by induction on the keys. -/
theorem closes_all {close : Key → Output} (kind : ∀ key, entry (close key) = .closes key)
    {keys : List Key} (distinct : keys.Nodup)
    (account : Account entry trace key (decide (key ∈ keys)))
    : Account entry (trace ++ keys.map close) key false := by
  induction keys generalizing trace with
  | nil => simpa using account
  | cons first rest ih =>
      obtain ⟨fresh, distinct⟩ := List.nodup_cons.mp distinct
      rw [List.map_cons, ← List.singleton_append, ← List.append_assoc]
      refine ih distinct ?_
      by_cases same : key = first
      · subst same
        simp only [List.mem_cons, true_or, decide_true] at account
        simpa [fresh] using account.closes (kind key)
      · have apart : ∀ output ∈ [close first], ¬ Concerns entry key output := by
          intro output member
          rw [List.mem_singleton.mp member, Concerns, kind]
          simpa using Ne.symm same
        simpa [same] using account.append apart

end Account
end Ledger
end NetworkAccess
