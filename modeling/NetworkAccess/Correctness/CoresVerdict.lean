import NetworkAccess.Validator.CoresList

/-! The verdict of the validator on replies to `CORES_LIST`, and the names that it keeps.
-/

namespace NetworkAccess

/-- The replies with records. -/
inductive CoresRecords : EmulatorReply → List StringMap → Prop
  | hash {map} : CoresRecords (.ascii (.hash map)) [map]
  | list {maps} (some_ : maps ≠ []) : CoresRecords (.ascii (.listHash maps)) maps

/-- A record of CORES_LIST that has both of the keys the protocol requires. -/
def CompleteRecord (record : StringMap) : Prop :=
  (record.lookup (ascii "name")).isSome ∧ (record.lookup (ascii "platform")).isSome

instance : DecidablePred CompleteRecord := fun record =>
  inferInstanceAs (Decidable
    ((record.lookup (ascii "name")).isSome ∧ (record.lookup (ascii "platform")).isSome))

/-- The names that are kept are those of the record. -/
structure Available.NamesOf (available : Available) (record : StringMap) : Prop where
  core : ∀ core, available.core = some core → record.lookup (ascii "name") = some core
  platform
    : available.platform ≠ noPlatform
      → record.lookup (ascii "platform") = some available.platform

/-- Whatever calls the rest of the run makes, from the next check on, the report at its end counts
the check if and only if `right` holds.
-/
def ReportCounts (before : NWAChecker) (check : NWACheck) (right : Prop) [Decidable right]
    : Prop :=
  ∀ (shortDescription description : Bytes) (calls : List CheckerCall) (final : NWAChecker),
    calls.foldlM NWAChecker.perform
        (NWAChecker.newCheck shortDescription description ⟨before.allChecks ++ [check]⟩)
      = .ok final
    → ∃ more : NWAChecker,
        final.allChecks = before.allChecks ++ check :: more.allChecks
        ∧ final.repport.passedCount
          = before.repport.passedCount + (if right then 1 else 0) + more.repport.passedCount

/-- The section ends without a panic, keeps the names of a record, and lets its check pass if and
only if all records are complete.
-/
def JudgesRight (reply : EmulatorReply) (records : List StringMap) (checker : NWAChecker) : Prop :=
  ∃ available check,
    coresList reply checker = .ok (available, ⟨checker.allChecks ++ [check]⟩)
    ∧ (∃ record ∈ records, available.NamesOf record)
    ∧ ReportCounts checker check (∀ record ∈ records, CompleteRecord record)

-----------------------------------------------------------------------------------------
-- The report
-----------------------------------------------------------------------------------------

/-- The verdict is that of the check behind the section. -/
theorem reportCounts_iff {before : NWAChecker} {check : NWACheck} {right : Prop}
    [Decidable right]
    : ReportCounts before check right ↔ (check.counts ↔ right) := by
  have counted (more : NWAChecker) {final : NWAChecker}
      (all : final.allChecks = before.allChecks ++ check :: more.allChecks)
      : final.repport.passedCount
        = before.repport.passedCount + (if check.counts then 1 else 0)
          + more.repport.passedCount := by
    simp only [NWAChecker.repport_passedCount, all, List.countP_append, List.countP_cons]
    omega
  constructor
  · intro counts
    obtain ⟨more, all, count⟩ := counts [] [] [] _ rfl
    rw [counted more all] at count
    by_cases passed : check.counts <;> by_cases holds : right <;> simp [passed, holds] at count ⊢
  · intro same shortDescription description calls final run
    have begins
        : (NWAChecker.newCheck shortDescription description ⟨before.allChecks ++ [check]⟩).Begins
          (before.allChecks ++ [check]) :=
      ⟨[⟨shortDescription, description, false, []⟩], List.cons_ne_nil _ _, rfl⟩
    obtain ⟨more, -, all⟩ := begins.foldlM_perform run
    rw [List.append_assoc, List.singleton_append] at all
    refine ⟨⟨more⟩, all, ?_⟩
    rw [counted ⟨more⟩ all]
    simp only [same]

/-- The check of a single record passes if the record is complete. -/
theorem recordChecked_counts (map : StringMap) (name description : Bytes)
    : (recordChecked (.ascii (.hash map)) ⟨name, description, false, []⟩).counts
      ↔ ∀ record ∈ [map], CompleteRecord record := by
  rw [NWACheck.counts, Bool.and_eq_true, NWACheck.cPassed_iff, List.forall_mem_singleton]
  simp [recordChecked, NWAChecker.keyCheck, NWAChecker.keyPassed, CompleteRecord]

/-- What fails once in a list of records fails at its end. -/
theorem mem_recordsChecked {reply : EmulatorReply} {subCheck : NWACheck} {check : NWACheck}
    (member : subCheck ∈ check.subChecks) (maps : List StringMap)
    : subCheck ∈ (maps.foldl (fun check _ => recordChecked reply check) check).subChecks := by
  induction maps generalizing check with
  | nil => exact member
  | cons map rest ih => exact ih (List.mem_append_left _ member)

/-- The check of a list never passes, since its key checks do not look at the records. -/
theorem recordsChecked_fails {maps : List StringMap} (some_ : maps ≠ []) (check : NWACheck)
    : let reply := .ascii (.listHash maps)
      ¬ (maps.foldl (fun check _ => recordChecked reply check) check).counts := by
  intro reply counts
  obtain ⟨map, rest, rfl⟩ := List.exists_cons_of_ne_nil some_
  rw [NWACheck.counts, Bool.and_eq_true, NWACheck.cPassed_iff, List.foldl_cons] at counts
  have here
      : NWAChecker.keyCheck reply (ascii "name") none ∈ (recordChecked reply check).subChecks :=
    List.mem_append_right _ List.mem_cons_self
  have passed := counts.1 _ (mem_recordsChecked here rest)
  cases passed

-----------------------------------------------------------------------------------------
-- The section
-----------------------------------------------------------------------------------------

/-- The first platform of a list is the platform of one of its records. -/
theorem firstPlatform_mem {maps : List StringMap} {platform : Bytes}
    (first : firstPlatform maps = some platform)
    : ∃ record ∈ maps, record.lookup (ascii "platform") = some platform :=
  List.mem_filterMap.mp (List.mem_of_find?_eq_some first)

/-- A record alone is judged right. -/
theorem coresListHash_judged (map : StringMap) (checker : NWAChecker)
    : JudgesRight (.ascii (.hash map)) [map] checker := by
  refine ⟨_, _, coresListHash_eq _ map _ checker.allChecks _, ⟨map, List.mem_cons_self, ?_, ?_⟩,
    reportCounts_iff.mpr (recordChecked_counts map _ _)⟩
  · intro core kept
    rwa [Option.or_none] at kept
  · intro some_
    cases found : map.lookup (ascii "platform") with
    | none =>
        rw [found] at some_
        exact absurd rfl some_
    | some platform => rfl

/-- Some record of the list is not complete. The first record that has a name, if there is one, has
a `core` too, and this is the name of a record whose platform is the first one of the list.
-/
def ListJudged (maps : List StringMap) : Prop :=
  (∃ record ∈ maps, ¬ CompleteRecord record)
  ∧ ∀ first,
      firstNamed maps = some first
      → ∃ core,
          first.lookup (ascii "core") = some core
          ∧ ∃ record ∈ maps,
              record.lookup (ascii "name") = some core
              ∧ ∀ platform,
                  firstPlatform maps = some platform
                  → record.lookup (ascii "platform") = some platform

/-- The section for a list: the core of the first record with a name decides about the panic. -/
theorem coresList_list (maps : List StringMap) (checker : NWAChecker)
    : let reply := .ascii (.listHash maps)
      let begun := ⟨ascii "Mandatory CORES_LIST command",
        ascii "Test if the mandatory CORES_LIST command reply", false, []⟩
      let check := maps.foldl (fun check _ => recordChecked reply check) begun
      coresList reply checker
        = (maps.foldlM keepCore none).map (fun core =>
          (⟨(firstPlatform maps).getD noPlatform, core⟩, ⟨checker.allChecks ++ [check]⟩)) := by
  intro reply begun check
  have run := foldlM_coresListRecord reply maps ⟨noPlatform, none⟩ checker.allChecks begun
  rw [foldl_keepPlatform, if_pos rfl] at run
  exact run

/-- The available core is named by a record exactly if the record has the core's name and the first
platform of the list.
-/
theorem namesOf_iff {maps : List StringMap} {core : Option Bytes} {record : StringMap}
    : Available.NamesOf ⟨(firstPlatform maps).getD noPlatform, core⟩ record
      ↔ (∀ kept, core = some kept → record.lookup (ascii "name") = some kept)
        ∧ ∀ platform,
            firstPlatform maps = some platform
            → record.lookup (ascii "platform") = some platform := by
  cases first : firstPlatform maps with
  | none =>
      refine ⟨fun names => ⟨names.core, nofun⟩, fun names => ⟨names.1, fun some_ => ?_⟩⟩
      exact absurd rfl some_
  | some platform =>
      have known : platform ≠ noPlatform := by simpa using List.find?_some first
      constructor
      · intro names
        refine ⟨names.core, fun other same => ?_⟩
        cases same
        exact names.platform known
      · exact fun names => ⟨names.1, fun _ => names.2 platform rfl⟩

/-- A list is judged right if it leads to no panic and to the names of a record, and should fail. -/
theorem judgesRight_list_iff {maps : List StringMap} (some_ : maps ≠ []) (checker : NWAChecker)
    : JudgesRight (.ascii (.listHash maps)) maps checker
      ↔ ∃ core,
          maps.foldlM keepCore none = .ok core
          ∧ (∃ record ∈ maps,
              Available.NamesOf ⟨(firstPlatform maps).getD noPlatform, core⟩ record)
          ∧ ∃ record ∈ maps, ¬ CompleteRecord record := by
  have run := coresList_list maps checker
  have fails := recordsChecked_fails some_ ⟨ascii "Mandatory CORES_LIST command",
    ascii "Test if the mandatory CORES_LIST command reply", false, []⟩
  dsimp only at run fails
  constructor
  · rintro ⟨available, check, ends, names, counts⟩
    cases kept : maps.foldlM keepCore none with
    | error failure =>
        rw [run, kept] at ends
        cases ends
    | ok core =>
        rw [run, kept] at ends
        obtain ⟨rfl, same⟩ := Prod.mk.inj (Except.ok.inj ends)
        obtain rfl := List.singleton_inj.mp (List.append_cancel_left (NWAChecker.mk.inj same))
        refine ⟨core, rfl, names, ?_⟩
        by_contra none_
        refine fails ((reportCounts_iff.mp counts).mpr (fun record member => ?_))
        by_contra misses
        exact none_ ⟨record, member, misses⟩
  · rintro ⟨core, kept, names, incomplete⟩
    rw [kept] at run
    refine ⟨_, _, run, names, reportCounts_iff.mpr ⟨fun counts => absurd counts fails, ?_⟩⟩
    obtain ⟨record, member, misses⟩ := incomplete
    exact fun complete => absurd (complete record member) misses

/-- A list of records is judged right exactly if it meets `ListJudged`. -/
theorem coresListRecords_judged_iff {maps : List StringMap} (some_ : maps ≠ [])
    (checker : NWAChecker)
    : JudgesRight (.ascii (.listHash maps)) maps checker ↔ ListJudged maps := by
  rw [judgesRight_list_iff some_, foldlM_keepCore_none, ListJudged]
  simp only [namesOf_iff]
  cases named : firstNamed maps with
  | none =>
      constructor
      · rintro ⟨core, -, -, incomplete⟩
        exact ⟨incomplete, nofun⟩
      · rintro ⟨incomplete, -⟩
        refine ⟨none, rfl, ?_, incomplete⟩
        cases first : firstPlatform maps with
        | none =>
            obtain ⟨record, rest, rfl⟩ := List.exists_cons_of_ne_nil some_
            exact ⟨record, List.mem_cons_self, nofun, nofun⟩
        | some platform =>
            obtain ⟨record, member, found⟩ := firstPlatform_mem first
            refine ⟨record, member, nofun, fun other same => ?_⟩
            rwa [← Option.some.inj same]
  | some first =>
      dsimp only
      cases core : first.lookup (ascii "core") with
      | none =>
          constructor
          · rintro ⟨kept, panics, -⟩
            cases panics
          · rintro ⟨-, each⟩
            obtain ⟨kept, found, -⟩ := each first rfl
            rw [core] at found
            cases found
      | some text =>
          constructor
          · rintro ⟨kept, ok, ⟨record, member, names, platforms⟩, incomplete⟩
            cases ok
            refine ⟨incomplete, fun other same => ?_⟩
            cases same
            exact ⟨text, core, record, member, names text rfl, platforms⟩
          · rintro ⟨incomplete, each⟩
            obtain ⟨kept, found, record, member, name, platforms⟩ := each first rfl
            cases core.symm.trans found
            refine ⟨some text, rfl, ⟨record, member, fun other same => ?_, platforms⟩, incomplete⟩
            rwa [← Option.some.inj same]

/-- For every reply with records and every state of the checker. -/
theorem coresList_judged_iff {reply : EmulatorReply} {records : List StringMap}
    (shape : CoresRecords reply records) (checker : NWAChecker)
    : JudgesRight reply records checker
      ↔ (∃ map, reply = .ascii (.hash map)) ∨ ListJudged records := by
  cases shape with
  | @hash map => exact ⟨fun _ => Or.inl ⟨map, rfl⟩, fun _ => coresListHash_judged map checker⟩
  | list some_ =>
      rw [coresListRecords_judged_iff some_]
      refine ⟨Or.inr, fun either => either.resolve_left ?_⟩
      rintro ⟨map, same⟩
      cases same

/-- A list without a platform, with a record that names itself twice. -/
theorem coresList_judged_unfinished
    : let record : StringMap :=
        (Finmap.insert (ascii "name") (ascii "snes") ∅).insert (ascii "core") (ascii "snes")
      JudgesRight (.ascii (.listHash [record])) [record] .new := by
  intro record
  refine (coresList_judged_iff (.list (List.cons_ne_nil _ _)) .new).mpr (Or.inr ⟨?_, ?_⟩)
  · exact ⟨record, List.mem_cons_self, by decide⟩
  · intro first same
    have named : firstNamed [record] = some record := by decide
    have none_ : firstPlatform [record] = none := by decide
    cases named.symm.trans same
    refine ⟨ascii "snes", by decide, record, List.mem_cons_self, by decide, fun _ found => ?_⟩
    rw [none_] at found
    cases found

/-- The panic on a list of one complete record. -/
theorem coresList_panics
    : let record : StringMap :=
        (Finmap.insert (ascii "name") (ascii "snes") ∅).insert (ascii "platform") (ascii "SNES")
      ¬ JudgesRight (.ascii (.listHash [record])) [record] .new := by
  intro record judged
  obtain ⟨available, check, ends, -⟩ := judged
  have panics : [record].foldlM keepCore none = .error .panics := rfl
  rw [coresList_list, panics] at ends
  cases ends

end NetworkAccess
