import NetworkAccess.Validator.Lines
import NetworkAccess.Validator.ReadCounts

/-! What can come out of `get_reply`: never a list, and no value with a newline in it.
-/

namespace NetworkAccess

/-- No value of the map has a newline. -/
def StringMap.SingleLined (map : StringMap) : Prop :=
  ∀ key value, map.lookup key = some value → newline ∉ value

/-- What `get_reply` makes of bytes is no list, and the values of its maps have no newline. -/
def EmulatorReply.Decoded : EmulatorReply → Prop
  | .ascii (.hash map) => map.SingleLined
  | .ascii (.listHash _) => False
  | _ => True

/-- The loop that fills `value` ends at a newline, by induction on the line. -/
theorem scanValue_singleLine {line got value : Bytes} (open_ : newline ∉ got)
    (scans : scanValue line got = .ok value)
    : newline ∉ value := by
  induction line generalizing got with
  | nil => cases scans
  | cons letter rest ih =>
      rw [scanValue] at scans
      split at scans
      case isTrue inside =>
        split at scans
        case isTrue =>
          refine ih ?_ scans
          simpa using ⟨open_, Ne.symm inside⟩
        case isFalse => cases scans
      case isFalse =>
        cases scans
        exact open_

/-- The value of a scanned line has no newline. -/
theorem scanLine_singleLined {line : Bytes} {pair : Bytes × Bytes}
    (scans : scanLine line = .ok pair)
    : newline ∉ pair.2 := by
  rw [scanLine] at scans
  cases keys : scanKey line [] with
  | error failure =>
      rw [keys] at scans
      cases scans
  | ok found =>
      rw [keys] at scans
      simp only [bind, Except.bind] at scans
      split at scans
      case isTrue => cases scans
      case isFalse =>
        cases values : scanValue found.2.tail [] with
        | error failure =>
            rw [values] at scans
            cases scans
        | ok value =>
            rw [values] at scans
            cases scans
            intro member
            exact scanValue_singleLine List.not_mem_nil values
              (Utf8.mem_lossyFrom (by decide) member)

/-- One more value without a newline keeps the values without newlines. -/
theorem StringMap.SingleLined.insert {map : StringMap} (lined : map.SingleLined) (key : Bytes)
    {value : Bytes} (open_ : newline ∉ value)
    : SingleLined (Finmap.insert key value map) := by
  intro other found looks
  by_cases same : other = key
  · subst same
    rw [Finmap.lookup_insert] at looks
    cases looks
    exact open_
  · rw [Finmap.lookup_insert_of_ne _ same] at looks
    exact lined other found looks

/-- A map whose values have no newline makes a decoded reply. -/
theorem mapReply_decoded {map : StringMap} (lined : map.SingleLined) : (mapReply map).Decoded := by
  rw [mapReply]
  split
  case h_1 => split <;> trivial
  case h_2 => exact lined

/-- By induction on the lines: every turn adds a value without a newline. -/
theorem decodeLines_decoded {peer : Peer} {lines : List Bytes} {map : StringMap}
    (lined : map.SingleLined) {reply : EmulatorReply}
    (decodes : decodeLines peer lines map = .ok reply)
    : reply.Decoded := by
  induction lines generalizing map with
  | nil => cases peer <;> cases decodes
  | cons line rest ih =>
      rw [decodeLines] at decodes
      split at decodes
      case isTrue =>
        cases decodes
        rw [closing]
        split
        case isTrue => trivial
        case isFalse => exact mapReply_decoded lined
      case isFalse =>
        split at decodes
        case h_1 => cases decodes
        case h_2 key value scans =>
          exact ih (lined.insert key (scanLine_singleLined scans)) decodes

/-- A binary reply is decoded. -/
theorem binaryReply_decoded {reader after : BufReader} {reply : EmulatorReply}
    (replies : binaryReply reader = .ok reply after)
    : reply.Decoded := by
  rw [binaryReply] at replies
  cases header : read 4 reader with
  | error failure next =>
      rw [Receiving.bind_error header] at replies
      cases replies
  | ok bytes next =>
      rw [Receiving.bind_ok header] at replies
      cases data : read (headerSize (overlay 4 bytes)) next with
      | error failure last =>
          rw [Receiving.bind_error data] at replies
          cases replies
      | ok bytes last =>
          rw [Receiving.bind_ok data] at replies
          cases replies
          trivial

/-- Without a first byte there is no reply. -/
theorem getReply_nothing {connection : Connection} (nothing : connection.arrivals.flatten = [])
    (reply : EmulatorReply)
    : (getReply connection).1 ≠ .ok reply := by
  intro replies
  cases reads : read 1 (BufReader.new connection) with
  | error failure after =>
      rw [getReply, readReply, Receiving.bind_error reads] at replies
      cases replies
  | ok bytes after =>
      have stream : [] = bytes ++ after.stream := nothing.symm.trans (read_stream reads).1
      rw [(List.append_eq_nil_iff.mp stream.symm).1] at reads
      rw [getReply, readReply, Receiving.bind_ok reads] at replies
      cases replies

/-- Every reply that `get_reply` returns is decoded. -/
theorem getReply_decoded {connection : Connection} {reply : EmulatorReply}
    (replies : (getReply connection).1 = .ok reply)
    : reply.Decoded := by
  cases arrives : connection.arrivals.flatten with
  | nil => exact absurd replies (getReply_nothing arrives reply)
  | cons first behind =>
      by_cases starts : first = newline
      · subst starts
        rw [getReply_lines arrives] at replies
        exact decodeLines_decoded (fun _ _ looks => by cases looks) replies
      · obtain ⟨next, -, -, reads⟩ := readReply_first arrives
        rw [if_neg starts] at reads
        rw [getReply, reads] at replies
        by_cases zero : first = 0
        · rw [if_pos zero] at replies
          cases binary : binaryReply next with
          | error failure after =>
              rw [binary] at replies
              cases replies
          | ok decoded after =>
              rw [binary] at replies
              cases replies
              exact binaryReply_decoded binary
        · rw [if_neg zero] at replies
          cases replies

end NetworkAccess
