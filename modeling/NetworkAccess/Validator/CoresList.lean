import NetworkAccess.Validator.Checker

/-! The section of the validator about `CORES_LIST`, and the names that it keeps for later ones.
-/

namespace NetworkAccess

/-- `available_platform` and `available_core`. -/
structure Available where
  platform : Bytes
  core : Option Bytes
deriving DecidableEq

/-- The text of `available_platform` before a platform is known. -/
def noPlatform : Bytes := ascii "PLACEHOLDER"

/-- The platform behind a record of a list. -/
def keepPlatform (platform : Bytes) (map : StringMap) : Bytes :=
  match map.lookup (ascii "platform") with
  | some found => if platform = noPlatform then found else platform
  | none => platform

/-- The core behind a record of a list. It tests `name` and unwraps `core`. -/
def keepCore (core : Option Bytes) (map : StringMap) : Except Failure (Option Bytes) :=
  if (map.lookup (ascii "name")).isSome ∧ core = none then
    match map.lookup (ascii "core") with
    | some found => .ok (some found)
    | none => .error .panics
  else
    .ok core

/-- The branch of a single record. -/
def coresListHash (reply : EmulatorReply) (map : StringMap) (available : Available)
    (checker : NWAChecker)
    : Except Failure (Available × NWAChecker) := do
  let (_, checker) ← checker.currentCheckAddKeyCheck reply (ascii "name") none
  let core := (map.lookup (ascii "name")).or available.core
  let (_, checker) ← checker.currentCheckAddKeyCheck reply (ascii "platform") none
  let platform := (map.lookup (ascii "platform")).getD available.platform
  let checker ← checker.setPassed true
  pure (⟨platform, core⟩, checker)

/-- One turn of the loop over the records of a list. The key checks are about the whole reply. -/
def coresListRecord (reply : EmulatorReply) (state : Available × NWAChecker) (map : StringMap)
    : Except Failure (Available × NWAChecker) := do
  let (available, checker) := state
  let (_, checker) ← checker.currentCheckAddKeyCheck reply (ascii "name") none
  let (_, checker) ← checker.currentCheckAddKeyCheck reply (ascii "platform") none
  let platform := keepPlatform available.platform map
  let core ← keepCore available.core map
  let checker ← checker.setPassed true
  pure (⟨platform, core⟩, checker)

/-- The section for a reply that was decoded. Other replies only print an error. -/
def coresList (reply : EmulatorReply) (checker : NWAChecker)
    : Except Failure (Available × NWAChecker) :=
  let checker := checker.newCheck (ascii "Mandatory CORES_LIST command")
    (ascii "Test if the mandatory CORES_LIST command reply")
  let available := ⟨noPlatform, none⟩
  match reply with
  | .ascii (.hash map) => coresListHash reply map available checker
  | .ascii (.listHash maps) => maps.foldlM (coresListRecord reply) (available, checker)
  | _ => .ok (available, checker)

-----------------------------------------------------------------------------------------
-- The names
-----------------------------------------------------------------------------------------

/-- The first platform of a list, unless it is the text that stands for none. -/
def firstPlatform (maps : List StringMap) : Option Bytes :=
  (maps.filterMap (fun map => map.lookup (ascii "platform"))).find? (· ≠ noPlatform)

/-- The first record with a name. -/
def firstNamed (maps : List StringMap) : Option StringMap :=
  maps.find? (fun map => (map.lookup (ascii "name")).isSome)

/-- The first record decides unless it has no platform, or the text that stands for none. -/
theorem firstPlatform_cons (map : StringMap) (rest : List StringMap)
    : firstPlatform (map :: rest)
      = match map.lookup (ascii "platform") with
        | some found => if found = noPlatform then firstPlatform rest else some found
        | none => firstPlatform rest := by
  rw [firstPlatform, List.filterMap_cons]
  cases map.lookup (ascii "platform") with
  | none => rfl
  | some found =>
      by_cases none_ : found = noPlatform
      · simp [none_, firstPlatform]
      · simp [none_]

/-- The loop over the records keeps the platform it has, or finds the first one. By induction on the
records.
-/
theorem foldl_keepPlatform (maps : List StringMap) (platform : Bytes)
    : maps.foldl keepPlatform platform
      = if platform = noPlatform then (firstPlatform maps).getD noPlatform else platform := by
  induction maps generalizing platform with
  | nil =>
      split
      case isTrue none_ => exact none_
      case isFalse => rfl
  | cons map rest ih =>
      rw [List.foldl_cons, firstPlatform_cons, keepPlatform]
      cases map.lookup (ascii "platform") with
      | none => exact ih platform
      | some found =>
          dsimp only
          by_cases none_ : platform = noPlatform
          · rw [if_pos none_, if_pos none_, ih]
            by_cases again : found = noPlatform
            · rw [if_pos again, if_pos again]
            · rw [if_neg again, if_neg again, Option.getD_some]
          · rw [if_neg none_, if_neg none_, ih, if_neg none_]

/-- A core that is known is kept, by induction on the records. -/
theorem foldlM_keepCore_some (maps : List StringMap) (core : Bytes)
    : maps.foldlM keepCore (some core) = .ok (some core) := by
  induction maps with
  | nil => rfl
  | cons map rest ih =>
      rw [List.foldlM_cons, keepCore, if_neg (by simp)]
      exact ih

/-- The first record with a name decides: its `core` is kept, and must be there. -/
theorem foldlM_keepCore_none (maps : List StringMap)
    : maps.foldlM keepCore none
      = match firstNamed maps with
        | none => .ok none
        | some first =>
            match first.lookup (ascii "core") with
            | some core => .ok (some core)
            | none => .error .panics := by
  induction maps with
  | nil => rfl
  | cons map rest ih =>
      rw [List.foldlM_cons, keepCore, firstNamed, List.find?_cons]
      cases named : (map.lookup (ascii "name")).isSome with
      | false =>
          rw [if_neg (by simp)]
          exact ih
      | true =>
          rw [if_pos ⟨rfl, rfl⟩]
          dsimp only
          cases map.lookup (ascii "core") with
          | none => rfl
          | some core => exact foldlM_keepCore_some rest core

-----------------------------------------------------------------------------------------
-- The check
-----------------------------------------------------------------------------------------

/-- The check behind one record. -/
def recordChecked (reply : EmulatorReply) (check : NWACheck) : NWACheck := {
  check with
  passed := true
  subChecks := check.subChecks
    ++ [NWAChecker.keyCheck reply (ascii "name") none,
      NWAChecker.keyCheck reply (ascii "platform") none]
}

/-- A key check changes the current check only. -/
theorem addKeyCheck_concat (reply : EmulatorReply) (key : Bytes) (value : Option Bytes)
    (before : List NWACheck) (check : NWACheck)
    : NWAChecker.currentCheckAddKeyCheck reply key value ⟨before ++ [check]⟩
      = .ok (
        NWAChecker.keyValue reply key,
        ⟨before
          ++ [{ check with
            subChecks := check.subChecks ++ [NWAChecker.keyCheck reply key value] }]⟩
      ) := by
  rw [NWAChecker.currentCheckAddKeyCheck, NWAChecker.updateCurrent_concat]
  rfl

/-- Deciding changes the current check only. -/
theorem setPassed_concat (passed : Bool) (before : List NWACheck) (check : NWACheck)
    : NWAChecker.setPassed passed ⟨before ++ [check]⟩ = .ok ⟨before ++ [{ check with passed }]⟩ :=
  NWAChecker.updateCurrent_concat _ _ _

/-- What the section makes of a single record: its platform and name, and its key checks. -/
theorem coresListHash_eq (reply : EmulatorReply) (map : StringMap) (available : Available)
    (before : List NWACheck) (check : NWACheck)
    : coresListHash reply map available ⟨before ++ [check]⟩
      = .ok (
        ⟨
          (map.lookup (ascii "platform")).getD available.platform,
          (map.lookup (ascii "name")).or available.core
        ⟩,
        ⟨before ++ [recordChecked reply check]⟩
      ) := by
  simp only [coresListHash, addKeyCheck_concat, setPassed_concat, bind, Except.bind,
    recordChecked, List.append_assoc]
  rfl

/-- What the section makes of one record of several. -/
theorem coresListRecord_eq (reply : EmulatorReply) (map : StringMap) (available : Available)
    (before : List NWACheck) (check : NWACheck)
    : coresListRecord reply (available, ⟨before ++ [check]⟩) map
      = (keepCore available.core map).map (fun core =>
        (
          ⟨keepPlatform available.platform map, core⟩,
          ⟨before ++ [recordChecked reply check]⟩
        )) := by
  simp only [coresListRecord, addKeyCheck_concat, bind, Except.bind]
  cases keepCore available.core map with
  | error failure => rfl
  | ok core =>
      simp only [setPassed_concat, recordChecked, List.append_assoc]
      rfl

/-- The loop over a list, by induction: the names and the check are kept apart. -/
theorem foldlM_coresListRecord (reply : EmulatorReply) (maps : List StringMap)
    (available : Available) (before : List NWACheck) (check : NWACheck)
    : maps.foldlM (coresListRecord reply) (available, ⟨before ++ [check]⟩)
      = (maps.foldlM keepCore available.core).map (fun core =>
        (
          ⟨maps.foldl keepPlatform available.platform, core⟩,
          ⟨before ++ [maps.foldl (fun check _ => recordChecked reply check) check]⟩
        )) := by
  induction maps generalizing available check with
  | nil => rfl
  | cons map rest ih =>
      rw [List.foldlM_cons, List.foldlM_cons, coresListRecord_eq]
      cases keepCore available.core map with
      | error failure => rfl
      | ok core => exact ih ⟨keepPlatform available.platform map, core⟩ (recordChecked reply check)

end NetworkAccess
