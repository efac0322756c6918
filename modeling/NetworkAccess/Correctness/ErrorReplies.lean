import NetworkAccess.Validator.Decoding

/-! Error replies from `send_error` to the `NWAError` of `get_reply`.
-/

namespace NetworkAccess

/-- The kind is that of no other error type, and of no text that the server does not know. -/
def Identifies (kind : NWAErrorKind) (errorType : ErrorType) : Prop :=
  (∀ other, other ≠ errorType → errorKind (errorTypeText other) ≠ kind)
  ∧ ∀ text, (∀ known, errorTypeText known ≠ text) → errorKind text ≠ kind

/-- The reply is written whole, and decoded to its reason and a kind that identifies its type,
whatever comes behind it.
-/
structure ErrorRoundTrips (errorType : ErrorType) (reason : Bytes) : Prop where
  whole {Emulator : Type} (host : Host Emulator) (socket : SOCKET) (emulator : Emulator)
    : sendError host socket errorType reason emulator
      = .emit [.errorReply socket errorType reason]
          (host.write socket
            (ascii "\nerror:" ++ errorTypeText errorType ++ ascii "\nreason:" ++ reason
              ++ ascii "\n\n")
            emulator)
  decodes
    : ∃ kind,
        (∀ (connection : Connection) behind,
          connection.arrivals.flatten = errorReplyText errorType reason ++ behind
          → (getReply connection).1 = .ok (.error ⟨kind, reason⟩))
        ∧ Identifies kind errorType

/-- An error reply has two pairs. -/
def errorPairs (errorType : ErrorType) (reason : Bytes) : List (Bytes × Bytes) := [
  (ascii "error", errorTypeText errorType),
  (ascii "reason", reason)
]

/-- An error reply is the hash reply of its two pairs. -/
theorem errorReplyText_pairs (errorType : ErrorType) (reason : Bytes)
    : errorReplyText errorType reason = asciiText (errorPairs errorType reason) := by
  rw [errorReplyText_eq]
  simp [asciiText, errorPairs, pairLine, ascii, newline, colon]

/-- The text of an error type is a clean value that fits into the buffers and is valid UTF-8. -/
theorem errorTypeText_clean (errorType : ErrorType)
    : CleanPair (ascii "error", errorTypeText errorType)
      ∧ FittingPair (ascii "error", errorTypeText errorType)
      ∧ Utf8.fromUtf8Lossy (errorTypeText errorType) = errorTypeText errorType := by
  cases errorType <;> exact ⟨⟨by decide, by decide⟩, by decide, by decide⟩

section Decoding

variable {reason : Bytes} (clean : newline ∉ reason ∧ (0 : UInt8) ∉ reason)
include clean

/-- Both pairs of an error reply are clean if its reason is. -/
theorem errorPairs_clean (errorType : ErrorType)
    : ∀ pair ∈ errorPairs errorType reason, CleanPair pair := by
  simp only [errorPairs, List.forall_mem_cons]
  have key : colon ∉ ascii "reason" ∧ newline ∉ ascii "reason" ∧ (0 : UInt8) ∉ ascii "reason" := by
    decide
  exact ⟨(errorTypeText_clean errorType).1, ⟨key, clean⟩, nofun⟩

omit clean in

/-- Both pairs of an error reply fit into the buffers exactly if its reason does. -/
theorem errorPairs_fitting (errorType : ErrorType)
    : (∀ pair ∈ errorPairs errorType reason, FittingPair pair) ↔ reason.length ≤ valueSize := by
  have key : (ascii "reason").length ≤ keySize := by decide
  simp only [errorPairs, List.forall_mem_cons]
  exact ⟨fun all => all.2.1.2,
    fun fits => ⟨(errorTypeText_clean errorType).2.1, ⟨key, fits⟩, nofun⟩⟩

omit clean in

/-- The pairs of an error reply are decoded to the error of this kind and reason. -/
theorem decoded_errorPairs (errorType : ErrorType)
    : decoded (errorPairs errorType reason)
      = .error ⟨errorKind (errorTypeText errorType), Utf8.fromUtf8Lossy reason⟩ := by
  have error : Utf8.fromUtf8Lossy (ascii "error") = ascii "error" := by decide
  have reason_ : Utf8.fromUtf8Lossy (ascii "reason") = ascii "reason" := by decide
  have differs : ascii "error" ≠ ascii "reason" := by decide
  rw [errorPairs, decoded_eq_mapReply (List.cons_ne_nil _ _), List.foldl_cons, List.foldl_cons,
    List.foldl_nil, insertPair, insertPair, error, reason_, (errorTypeText_clean errorType).2.2,
    mapReply, Finmap.lookup_insert_of_ne _ differs, Finmap.lookup_insert, Finmap.lookup_insert]

/-- The reply is decoded, with what is not UTF-8 replaced, unless its reason is too long. -/
theorem getReply_error (errorType : ErrorType) {behind : Bytes} {connection : Connection}
    (arrives : connection.arrivals.flatten = errorReplyText errorType reason ++ behind)
    : (getReply connection).1
      = if reason.length ≤ valueSize then
          .ok (.error ⟨errorKind (errorTypeText errorType), Utf8.fromUtf8Lossy reason⟩)
        else
          .error .panics := by
  rw [errorReplyText_pairs] at arrives
  obtain ⟨after, run⟩ := readReply_ascii (errorPairs_clean clean errorType) arrives
  rw [getReply]
  by_cases fits : reason.length ≤ valueSize
  · rw [if_pos ((errorPairs_fitting errorType).mpr fits)] at run
    rw [run.2, if_pos fits, decoded_errorPairs errorType]
  · rw [if_neg (fun all => fits ((errorPairs_fitting errorType).mp all))] at run
    rw [run, if_neg fits]

end Decoding

/-- The kind of a `command_error` is that of a text that is not known. -/
theorem errorKind_identifies_iff (errorType : ErrorType)
    : Identifies (errorKind (errorTypeText errorType)) errorType ↔ errorType ≠ .commandError := by
  constructor
  · rintro ⟨-, unknown⟩ rfl
    exact unknown [] (fun known => by cases known <;> decide) rfl
  · intro known
    constructor
    · intro other differs
      revert known differs
      cases errorType <;> cases other <;> decide
    · intro text unknown same
      have differs (known : ErrorType) : text ≠ errorTypeText known := Ne.symm (unknown known)
      have none_ : errorKind text = .invalidError := by
        rw [errorKind, if_neg (show text ≠ ascii "protocol_error" from differs .protocolError),
          if_neg (show text ≠ ascii "invalid_command" from differs .invalidCommand),
          if_neg (show text ≠ ascii "invalid_argument" from differs .invalidArgument),
          if_neg (show text ≠ ascii "not_allowed" from differs .notAllowed)]
      rw [none_] at same
      revert known same
      cases errorType <;> decide

/-- For every error type and every C string without a newline as its reason. -/
theorem errorRoundTrips_iff (errorType : ErrorType) (reason : Bytes)
    (clean : newline ∉ reason ∧ (0 : UInt8) ∉ reason)
    : ErrorRoundTrips errorType reason
      ↔ errorType ≠ .commandError ∧ reason.length ≤ valueSize ∧ Utf8.Valid reason := by
  constructor
  · rintro ⟨-, kind, decodes, identifies⟩
    let connection : Connection := ⟨[errorReplyText errorType reason], .silent⟩
    have arrives : connection.arrivals.flatten = errorReplyText errorType reason ++ [] := by
      simp [connection]
    have here := decodes connection [] arrives
    rw [getReply_error clean errorType arrives] at here
    split at here
    case isTrue fits =>
      obtain ⟨rfl, same⟩ := NWAError.mk.inj (EmulatorReply.error.inj (Except.ok.inj here))
      exact ⟨(errorKind_identifies_iff errorType).mp identifies, fits,
        Utf8.fromUtf8Lossy_eq_iff.mp same⟩
    case isFalse => cases here
  · rintro ⟨known, fits, valid⟩
    constructor
    · intro Emulator host socket emulator
      rw [sendError, errorReplyText_eq]
    · refine ⟨errorKind (errorTypeText errorType), ?_,
        (errorKind_identifies_iff errorType).mpr known⟩
      intro connection behind arrives
      rw [getReply_error clean errorType arrives, if_pos fits, Utf8.fromUtf8Lossy_valid valid]

/-- A reply that is identified. -/
theorem errorRoundTrips_notAllowed : ErrorRoundTrips .notAllowed (ascii "No memory") :=
  (errorRoundTrips_iff .notAllowed (ascii "No memory") (by decide)).mpr
    ⟨by decide, by decide, "No memory".toList, by decide⟩

/-- The validator has no kind for a `command_error`. -/
theorem not_errorRoundTrips_commandError : ¬ ErrorRoundTrips .commandError (ascii "No memory") := by
  intro trips
  exact ((errorRoundTrips_iff .commandError (ascii "No memory") (by decide)).mp trips).1 rfl

end NetworkAccess
