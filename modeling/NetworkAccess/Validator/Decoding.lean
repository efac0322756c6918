import NetworkAccess.Validator.GetReply

/-! What `get_reply` makes of ASCII replies that arrive completely, however they are cut.
-/

namespace NetworkAccess

/-- A pair that one line can carry; as a C string it holds no NUL. -/
structure CleanPair (pair : Bytes × Bytes) : Prop where
  key : colon ∉ pair.1 ∧ newline ∉ pair.1 ∧ (0 : UInt8) ∉ pair.1
  value : newline ∉ pair.2 ∧ (0 : UInt8) ∉ pair.2

/-- A pair for which the arrays of `get_reply` are large enough. -/
def FittingPair (pair : Bytes × Bytes) : Prop :=
  pair.1.length ≤ keySize ∧ pair.2.length ≤ valueSize

instance : DecidablePred FittingPair :=
  fun pair => inferInstanceAs (Decidable (pair.1.length ≤ keySize ∧ pair.2.length ≤ valueSize))

/-- `map.insert`. -/
def insertPair (map : StringMap) (pair : Bytes × Bytes) : StringMap :=
  map.insert (Utf8.fromUtf8Lossy pair.1) (Utf8.fromUtf8Lossy pair.2)

/-- What the newline behind the pairs ends with. -/
def closing (map : StringMap) : EmulatorReply := if map = ∅ then .ascii .ok else mapReply map

/-- The reply that `get_reply` decodes from the pairs of an ASCII reply. -/
def decoded (pairs : List (Bytes × Bytes)) : EmulatorReply := closing (pairs.foldl insertPair ∅)

/-- A map with a pair in it is not empty. -/
theorem insertPair_ne_empty (map : StringMap) (pair : Bytes × Bytes) : insertPair map pair ≠ ∅ := by
  intro empty
  have found := Finmap.lookup_insert map (a := Utf8.fromUtf8Lossy pair.1)
    (b := Utf8.fromUtf8Lossy pair.2)
  rw [← insertPair, empty] at found
  cases found

/-- A reply with pairs is decided by the map of all of them. -/
theorem decoded_eq_mapReply {pairs : List (Bytes × Bytes)} (some_ : pairs ≠ [])
    : decoded pairs = mapReply (pairs.foldl insertPair ∅) := by
  obtain rfl | ⟨front, last, rfl⟩ := List.eq_nil_or_concat pairs
  · exact absurd rfl some_
  · rw [decoded, closing, List.concat_eq_append, List.foldl_concat,
      if_neg (insertPair_ne_empty _ _)]

-----------------------------------------------------------------------------------------
-- One line
-----------------------------------------------------------------------------------------

/-- The scan of a key ends at the first colon or newline if the key fits, by induction on the key.
-/
theorem scanKey_clean {key : Bytes} (clean : colon ∉ key ∧ newline ∉ key) {last : UInt8}
    (ends : ¬ (last ≠ colon ∧ last ≠ newline)) (rest got : Bytes) (fits : got.length ≤ keySize)
    : scanKey (key ++ last :: rest) got
      = if got.length + key.length ≤ keySize then
          .ok (got ++ key, last :: rest)
        else
          .error .panics := by
  induction key generalizing got with
  | nil =>
      rw [List.nil_append, scanKey, if_neg ends, List.length_nil, if_pos (by omega),
        List.append_nil]
  | cons letter more ih =>
      simp only [List.mem_cons, not_or] at clean
      have inside : letter ≠ colon ∧ letter ≠ newline := ⟨Ne.symm clean.1.1, Ne.symm clean.2.1⟩
      rw [List.cons_append, scanKey, if_pos inside]
      by_cases room : got.length < keySize
      · have length : (got ++ [letter]).length = got.length + 1 := List.length_append
        rw [if_pos room, ih ⟨clean.1.2, clean.2.2⟩ _ (by omega), length, List.append_assoc,
          List.length_cons, List.singleton_append, Nat.add_assoc, Nat.add_comm 1]
      · rw [if_neg room, if_neg]
        rw [List.length_cons]
        omega

/-- The scan of a value ends at the newline if the value fits, by induction on the value. -/
theorem scanValue_clean {value : Bytes} (clean : newline ∉ value) (got : Bytes)
    (fits : got.length ≤ valueSize)
    : scanValue (value ++ [newline]) got
      = if got.length + value.length ≤ valueSize then .ok (got ++ value) else .error .panics := by
  induction value generalizing got with
  | nil => simp [scanValue, fits]
  | cons letter more ih =>
      simp only [List.mem_cons, not_or] at clean
      rw [List.cons_append, scanValue, if_pos (Ne.symm clean.1)]
      by_cases room : got.length < valueSize
      · have length : (got ++ [letter]).length = got.length + 1 := List.length_append
        rw [if_pos room, ih clean.2 _ (by omega), length, List.append_assoc, List.length_cons,
          List.singleton_append, Nat.add_assoc, Nat.add_comm 1]
      · rw [if_neg room, if_neg]
        rw [List.length_cons]
        omega

/-- A line gives back its pair, unless it is too long for the arrays. -/
theorem scanLine_pairLine {pair : Bytes × Bytes} (clean : CleanPair pair)
    : scanLine (pairLine pair)
      = if FittingPair pair then
          .ok (Utf8.fromUtf8Lossy pair.1, Utf8.fromUtf8Lossy pair.2)
        else
          .error .panics := by
  have key := scanKey_clean ⟨clean.key.1, clean.key.2.1⟩ (fun other => other.1 rfl)
    (pair.2 ++ [newline]) [] (Nat.zero_le _)
  have value := scanValue_clean clean.value.1 [] (Nat.zero_le _)
  rw [List.length_nil, Nat.zero_add, List.nil_append] at key value
  have differs : colon ≠ newline := by decide
  rw [scanLine, pairLine, List.append_assoc, List.cons_append, key]
  by_cases keyFits : pair.1.length ≤ keySize
  · by_cases valueFits : pair.2.length ≤ valueSize <;>
      simp [keyFits, valueFits, value, FittingPair, bind, Except.bind, pure, Except.pure, differs]
  · simp [keyFits, FittingPair, bind, Except.bind]

-----------------------------------------------------------------------------------------
-- A whole reply
-----------------------------------------------------------------------------------------

/-- The first byte that arrives. -/
theorem read_one {reader : BufReader} {byte : UInt8} {rest : Bytes}
    (stream : reader.stream = byte :: rest)
    : ∃ after, read 1 reader = .ok [byte] after ∧ reader.Advances [byte] after := by
  have some_ : reader.stream ≠ [] := by simp [stream]
  obtain ⟨available, filled, fills, nonempty, buffer, same, uses⟩ := fillBuf_stream some_
  cases available with
  | nil => exact absurd rfl nonempty
  | cons first more =>
      have first_ : first = byte := by
        have whole : first :: (more ++ filled.connection.arrivals.flatten) = byte :: rest := by
          rw [← stream, ← same, ← List.cons_append, ← buffer]
          rfl
        exact (List.cons.inj whole).1
      subst first_
      refine ⟨{ filled with buffer := more }, ?_, uses [first] more rfl (List.cons_ne_nil _ _)⟩
      have small : ¬ (reader.buffer = [] ∧ BufReader.capacity ≤ 1) := fun big =>
        absurd big.2 (by decide)
      rw [read, if_neg small, Receiving.bind_ok fills, Receiving.bind_ok (consume_eq _ _), buffer]
      simp [pure, EStateM.pure]

/-- A line is no end of the reply, as it begins with a byte of its key or with its colon. -/
theorem pairLine_head {pair : Bytes × Bytes} (clean : CleanPair pair)
    : ∃ first more, pairLine pair = first :: more ∧ first ≠ newline := by
  obtain ⟨key, value⟩ := pair
  cases key with
  | nil => exact ⟨colon, _, rfl, by decide⟩
  | cons letter rest =>
      refine ⟨letter, _, rfl, ?_⟩
      rintro rfl
      exact clean.key.2.1 List.mem_cons_self

/-- Reading up to a newline reads the line of the pair. -/
theorem readUntil_pairLine {pair : Bytes × Bytes} (clean : CleanPair pair) {rest : Bytes}
    {reader : BufReader} (stream : reader.stream = pairLine pair ++ rest)
    : ∃ after,
        readUntil newline reader = .ok (pairLine pair) after
        ∧ reader.Advances (pairLine pair) after := by
  have open_ : newline ∉ pair.1 ++ colon :: pair.2 := by
    rw [List.mem_append, List.mem_cons, not_or, not_or]
    exact ⟨clean.key.2.1, by decide, clean.value.1⟩
  rw [pairLine, List.append_assoc] at stream
  exact readUntil_line open_ stream

/-- One turn of the loop reads one line. -/
theorem asciiLoop_pairLine {pair : Bytes × Bytes} (clean : CleanPair pair) {rest : Bytes}
    {reader : BufReader} (stream : reader.stream = pairLine pair ++ rest) (fuel : Nat)
    (map : StringMap)
    : ∃ after,
        reader.Advances (pairLine pair) after
        ∧ asciiLoop (fuel + 1) map reader
          = if FittingPair pair then
              asciiLoop fuel (insertPair map pair) after
            else
              .error .panics after := by
  obtain ⟨after, reads, advances⟩ := readUntil_pairLine clean stream
  obtain ⟨first, more, line, inside⟩ := pairLine_head clean
  have scans := scanLine_pairLine clean
  refine ⟨after, advances, ?_⟩
  rw [asciiLoop, Receiving.bind_ok reads, line]
  rw [line] at scans
  simp only [inside, false_and, if_false, scans]
  by_cases fits : FittingPair pair
  · rw [if_pos fits, if_pos fits]
    rfl
  · rw [if_neg fits, if_neg fits]
    rfl

/-- The newline behind the lines ends the loop. -/
theorem asciiLoop_newline {rest : Bytes} {reader : BufReader}
    (stream : reader.stream = newline :: rest) (fuel : Nat) (map : StringMap)
    : ∃ after,
        reader.Advances [newline] after
        ∧ asciiLoop (fuel + 1) map reader = .ok (closing map) after := by
  have line : reader.stream = [] ++ newline :: rest := stream
  obtain ⟨after, reads, advances⟩ := readUntil_line List.not_mem_nil line
  refine ⟨after, advances, ?_⟩
  rw [asciiLoop, Receiving.bind_ok reads, closing]
  by_cases empty : map = ∅ <;> simp [empty, pure, EStateM.pure]

/-- The loop reads all lines of a reply, by induction on the pairs. -/
theorem asciiLoop_pairs {pairs : List (Bytes × Bytes)} (clean : ∀ pair ∈ pairs, CleanPair pair)
    {rest : Bytes} {reader : BufReader}
    (stream : reader.stream = pairs.flatMap pairLine ++ newline :: rest) {fuel : Nat}
    (enough : pairs.length < fuel) (map : StringMap)
    : ∃ after,
        if ∀ pair ∈ pairs, FittingPair pair then
          reader.Advances (pairs.flatMap pairLine ++ [newline]) after
          ∧ asciiLoop fuel map reader = .ok (closing (pairs.foldl insertPair map)) after
        else
          asciiLoop fuel map reader = .error .panics after := by
  induction pairs generalizing reader fuel map with
  | nil =>
      cases fuel with
      | zero => omega
      | succ fuel =>
          obtain ⟨after, advances, ends⟩ := asciiLoop_newline stream fuel map
          exact ⟨after, by simpa using ⟨advances, ends⟩⟩
  | cons pair more ih =>
      cases fuel with
      | zero => omega
      | succ fuel =>
          have first := clean pair List.mem_cons_self
          rw [List.flatMap_cons, List.append_assoc] at stream
          rw [List.length_cons] at enough
          obtain ⟨next, advances, turn⟩ := asciiLoop_pairLine first stream fuel map
          by_cases fits : FittingPair pair
          · rw [if_pos fits] at turn
            have later : next.stream = more.flatMap pairLine ++ newline :: rest :=
              List.append_cancel_left (advances.stream.symm.trans stream)
            have fewer : more.length < fuel := by omega
            obtain ⟨after, run⟩ := ih
              (fun pair member => clean pair (List.mem_cons_of_mem _ member)) later fewer
              (insertPair map pair)
            refine ⟨after, ?_⟩
            simp only [List.forall_mem_cons, fits, true_and, turn]
            split at run
            case isTrue all =>
              rw [if_pos all, List.flatMap_cons, List.append_assoc]
              exact ⟨advances.trans run.1, run.2⟩
            case isFalse some_ =>
              rw [if_neg some_]
              exact run
          · rw [if_neg fits] at turn
            refine ⟨next, ?_⟩
            rw [if_neg (fun all => fits (all pair List.mem_cons_self))]
            exact turn

/-- There are no more pairs than bytes in their lines. -/
theorem length_le_lines (pairs : List (Bytes × Bytes))
    : pairs.length ≤ (pairs.flatMap pairLine).length := by
  induction pairs with
  | nil => exact Nat.le_refl _
  | cons pair rest ih =>
      rw [List.flatMap_cons, List.length_append, List.length_cons, pairLine, List.length_append,
        List.length_singleton]
      omega

/-- For an ASCII reply with anything behind it, `get_reply` reads the text of the reply and decodes
it, or panics on a pair that its arrays cannot hold.
-/
theorem readReply_ascii {pairs : List (Bytes × Bytes)} (clean : ∀ pair ∈ pairs, CleanPair pair)
    {behind : Bytes} {connection : Connection}
    (arrives : connection.arrivals.flatten = asciiText pairs ++ behind)
    : ∃ after,
        if ∀ pair ∈ pairs, FittingPair pair then
          (BufReader.new connection).Advances (asciiText pairs) after
          ∧ readReply (BufReader.new connection) = .ok (decoded pairs) after
        else
          readReply (BufReader.new connection) = .error .panics after := by
  have stream : (BufReader.new connection).stream
      = newline :: (pairs.flatMap pairLine ++ newline :: behind) := by
    have whole : (BufReader.new connection).stream = connection.arrivals.flatten := rfl
    rw [whole, arrives, asciiText, List.cons_append, List.cons_append, List.append_assoc,
      List.singleton_append]
  obtain ⟨next, reads, advances⟩ := read_one stream
  have later : next.stream = pairs.flatMap pairLine ++ newline :: behind :=
    (List.cons.inj (advances.stream.symm.trans stream)).2
  have enough : pairs.length < next.stream.length + 1 := by
    have lines := length_le_lines pairs
    rw [later, List.length_append]
    omega
  obtain ⟨after, run⟩ := asciiLoop_pairs clean later enough ∅
  have goes : readReply (BufReader.new connection) = asciiReply next := by
    rw [readReply, Receiving.bind_ok reads]
    rfl
  refine ⟨after, ?_⟩
  rw [goes]
  split at run
  case isTrue all =>
    rw [if_pos all]
    exact ⟨advances.trans run.1, run.2⟩
  case isFalse some_ =>
    rw [if_neg some_]
    exact run

end NetworkAccess
