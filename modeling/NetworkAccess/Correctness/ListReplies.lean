import NetworkAccess.Validator.Decoding

/-! List replies: `get_reply` collects all pairs in one map, so it never returns a list.
-/

namespace NetworkAccess

/-- The records of a list reply: the first key of each is that of the others, and no key stands
twice in a record.
-/
structure RecordList (records : List (List (Bytes × Bytes))) : Prop where
  several : 2 ≤ records.length
  separator : ∃ key, ∀ record ∈ records, ∃ value rest, record = (key, value) :: rest
  distinct : ∀ record ∈ records, (record.map Prod.fst).Nodup
  clean : ∀ record ∈ records, ∀ pair ∈ record, CleanPair pair
  fits : ∀ record ∈ records, ∀ pair ∈ record, FittingPair pair

/-- One record as a map. -/
def recordMap (record : List (Bytes × Bytes)) : StringMap := record.foldl insertPair ∅

/-- A map is never turned into a list reply. -/
theorem mapReply_ne_list (map : StringMap) (maps : List StringMap)
    : mapReply map ≠ .ascii (.listHash maps) := by
  rw [mapReply]
  split
  · split <;> simp
  · simp

/-- No turn of the loop ends with a list, by induction on the turns. -/
theorem asciiLoop_ne_list {fuel : Nat} {map : StringMap} {reader after : BufReader}
    {reply : EmulatorReply} (returns : asciiLoop fuel map reader = .ok reply after)
    (maps : List StringMap)
    : reply ≠ .ascii (.listHash maps) := by
  induction fuel generalizing map reader with
  | zero => cases returns
  | succ fuel ih =>
      rw [asciiLoop] at returns
      cases reads : readUntil newline reader with
      | error failure next =>
          rw [Receiving.bind_error reads] at returns
          cases returns
      | ok line next =>
          rw [Receiving.bind_ok reads] at returns
          cases line with
          | nil => cases returns
          | cons first rest =>
              simp only at returns
              split at returns
              case isTrue =>
                cases returns
                simp
              case isFalse =>
                split at returns
                case isTrue =>
                  cases returns
                  exact mapReply_ne_list map maps
                case isFalse =>
                  cases scans : scanLine (first :: rest) with
                  | error failure =>
                      rw [scans] at returns
                      cases returns
                  | ok pair =>
                      rw [scans] at returns
                      exact ih returns

/-- A binary reply is none either. -/
theorem binaryReply_eq {reader after : BufReader} {reply : EmulatorReply}
    (returns : binaryReply reader = .ok reply after)
    : ∃ data, reply = .binary data := by
  rw [binaryReply] at returns
  cases header : read 4 reader with
  | error failure next =>
      rw [Receiving.bind_error header] at returns
      cases returns
  | ok bytes next =>
      rw [Receiving.bind_ok header] at returns
      cases data : read (headerSize (overlay 4 bytes)) next with
      | error failure last =>
          rw [Receiving.bind_error data] at returns
          cases returns
      | ok bytes last =>
          rw [Receiving.bind_ok data] at returns
          cases returns
          exact ⟨_, rfl⟩

/-- `get_reply` never returns a list of maps. -/
theorem readReply_ne_list {reader after : BufReader} {reply : EmulatorReply}
    (returns : readReply reader = .ok reply after) (maps : List StringMap)
    : reply ≠ .ascii (.listHash maps) := by
  rw [readReply] at returns
  cases reads : read 1 reader with
  | error failure next =>
      rw [Receiving.bind_error reads] at returns
      cases returns
  | ok bytes next =>
      rw [Receiving.bind_ok reads] at returns
      cases bytes with
      | nil => cases returns
      | cons first rest =>
          simp only at returns
          split at returns
          case isTrue => exact asciiLoop_ne_list returns maps
          case isFalse =>
            split at returns
            case isTrue =>
              obtain ⟨data, rfl⟩ := binaryReply_eq returns
              simp
            case isFalse => cases returns

/-- Whatever arrives, no list of records is returned. -/
theorem listReply_never (connection : Connection) (records : List (List (Bytes × Bytes)))
    : (getReply connection).1 ≠ .ok (.ascii (.listHash (records.map recordMap))) := by
  rw [getReply]
  cases returns : readReply (BufReader.new connection) with
  | error failure after => simp
  | ok reply after =>
      intro same
      exact readReply_ne_list returns _ (Except.ok.inj same)

/-- Two memories arrive as one. -/
theorem memories_merged
    : ¬ ∀ records connection,
        RecordList records
        → connection.arrivals.flatten = (Reply.hash records.flatten).text
        → (getReply connection).1 = .ok (.ascii (.listHash (records.map recordMap))) := by
  intro lossless
  let records := [[(ascii "name", ascii "WRAM")], [(ascii "name", ascii "SRAM")]]
  have list : RecordList records := by
    refine ⟨by decide, ⟨ascii "name", ?_⟩, by decide, ?_, by decide⟩
    · intro record member
      simp only [records, List.mem_cons, List.not_mem_nil, or_false] at member
      rcases member with rfl | rfl <;> exact ⟨_, [], rfl⟩
    · intro record member pair inRecord
      simp only [records, List.mem_cons, List.not_mem_nil, or_false] at member
      rcases member with rfl | rfl <;>
        cases List.mem_singleton.mp inRecord <;> exact ⟨by decide, by decide⟩
  have returned := lossless records ⟨[(Reply.hash records.flatten).text], .silent⟩ list (by decide)
  exact absurd returned (by decide)

end NetworkAccess
