import NetworkAccess.Validator.Decoding

/-! A full hash reply of the server comes back from `get_reply` as the mapping that was sent.
-/

namespace NetworkAccess

/-- Pairs that are one mapping, in texts that the reply can carry and `get_reply` can hold. -/
structure MappingPairs (pairs : List (Bytes × Bytes)) : Prop where
  clean : ∀ pair ∈ pairs, CleanPair pair
  fits : ∀ pair ∈ pairs, FittingPair pair
  utf8 : ∀ pair ∈ pairs, Utf8.Valid pair.1 ∧ Utf8.Valid pair.2
  distinct : (pairs.map Prod.fst).Nodup
  noError : ∀ pair ∈ pairs, pair.1 ≠ ascii "error"

/-- Pairs with new keys are added to a mapping, by induction on the pairs. -/
theorem lookup_foldl_insertPair {pairs : List (Bytes × Bytes)}
    (utf8 : ∀ pair ∈ pairs, Utf8.Valid pair.1 ∧ Utf8.Valid pair.2)
    (distinct : (pairs.map Prod.fst).Nodup) (map : StringMap)
    (fresh : ∀ pair ∈ pairs, map.lookup pair.1 = none) (key value : Bytes)
    : (pairs.foldl insertPair map).lookup key = some value
      ↔ map.lookup key = some value ∨ (key, value) ∈ pairs := by
  induction pairs generalizing map with
  | nil => simp
  | cons pair rest ih =>
      obtain ⟨validKey, validValue⟩ := utf8 pair List.mem_cons_self
      have inserted : insertPair map pair = map.insert pair.1 pair.2 := by
        rw [insertPair, Utf8.fromUtf8Lossy_valid validKey, Utf8.fromUtf8Lossy_valid validValue]
      rw [List.map_cons, List.nodup_cons] at distinct
      have differs : ∀ other ∈ rest, other.1 ≠ pair.1 :=
        fun other member same => distinct.1 (List.mem_map.mpr ⟨other, member, same⟩)
      have later : ∀ other ∈ rest, (map.insert pair.1 pair.2).lookup other.1 = none := by
        intro other member
        rw [Finmap.lookup_insert_of_ne _ (differs other member)]
        exact fresh other (List.mem_cons_of_mem _ member)
      rw [List.foldl_cons, inserted,
        ih (fun other member => utf8 other (List.mem_cons_of_mem _ member)) distinct.2 _ later,
        List.mem_cons]
      by_cases here : key = pair.1
      · subst here
        rw [Finmap.lookup_insert, fresh pair List.mem_cons_self]
        have absent : (pair.1, value) ∉ rest := fun member => differs _ member rfl
        simp [absent, Prod.ext_iff, eq_comm]
      · rw [Finmap.lookup_insert_of_ne _ here]
        have other : (key, value) ≠ pair := fun same => here (congrArg Prod.fst same)
        simp [other]

/-- Such pairs decode to the mapping, or to the simple reply if there are none. -/
theorem MappingPairs.decoded {pairs : List (Bytes × Bytes)} (mapping : MappingPairs pairs)
    : ∃ map : StringMap,
        (∀ key value, map.lookup key = some value ↔ (key, value) ∈ pairs)
        ∧ NetworkAccess.decoded pairs = .ascii (if pairs = [] then .ok else .hash map) := by
  let map := pairs.foldl insertPair ∅
  have lookups : ∀ key value, map.lookup key = some value ↔ (key, value) ∈ pairs := by
    intro key value
    have found := lookup_foldl_insertPair mapping.utf8 mapping.distinct ∅ (fun _ _ => rfl) key value
    rwa [or_iff_right (by simp)] at found
  have noError : map.lookup (ascii "error") = none := by
    rw [Option.eq_none_iff_forall_ne_some]
    exact fun value found => mapping.noError _ ((lookups _ value).mp found) rfl
  refine ⟨map, lookups, ?_⟩
  by_cases empty : pairs = []
  · subst empty
    rfl
  · rw [decoded_eq_mapReply empty, mapReply, noError, if_neg empty]

/-- For every mapping, the bytes that the sender of a full hash reply writes, cut in any way and
with anything behind them, are decoded without a panic: to the simple reply if there are no pairs,
otherwise to that mapping.
-/
theorem hashReply_roundTrip (socket : SOCKET) (pairs : List (Bytes × Bytes))
    (mapping : MappingPairs pairs) (connection : Connection) (behind : Bytes)
    (arrives
      : connection.arrivals.flatten = sendFullHashReply transmit socket pairs [] ++ behind)
    : ∃ map : StringMap,
        (∀ key value, map.lookup key = some value ↔ (key, value) ∈ pairs)
        ∧ (getReply connection).1 = .ok (.ascii (if pairs = [] then .ok else .hash map)) := by
  have short : ∀ pair ∈ pairs, pair.1.length + pair.2.length < 2 ^ 32 := by
    intro pair member
    have fits := mapping.fits pair member
    rw [FittingPair, keySize, valueSize] at fits
    omega
  have sends : sendFullHashReply transmit socket pairs [] = (Reply.hash pairs).text :=
    Reply.send_transmitting socket (.hash pairs) []
  rw [sends, hash_text short] at arrives
  obtain ⟨after, run⟩ := readReply_ascii mapping.clean arrives
  rw [if_pos mapping.fits] at run
  obtain ⟨map, lookups, decodes⟩ := mapping.decoded
  refine ⟨map, lookups, ?_⟩
  rw [getReply, run.2, decodes]

/-- A value with a colon and an empty pair, byte by byte. -/
theorem hashReply_roundTrip_bytes
    : let pairs := [(ascii "name", ascii "a:b"), ([], [])]
      let arrivals := (sendFullHashReply transmit 4 pairs []).map (fun byte => [byte])
      ∃ map : StringMap,
        (∀ key value, map.lookup key = some value ↔ (key, value) ∈ pairs)
        ∧ (getReply ⟨arrivals, .silent⟩).1 = .ok (.ascii (.hash map)) := by
  intro pairs arrivals
  have mapping : MappingPairs pairs := by
    refine ⟨?_, by decide, ?_, by decide, by decide⟩
    · rintro pair member
      simp only [pairs, List.mem_cons, List.not_mem_nil, or_false] at member
      rcases member with rfl | rfl <;> exact ⟨by decide, by decide⟩
    · rintro pair member
      simp only [pairs, List.mem_cons, List.not_mem_nil, or_false] at member
      rcases member with rfl | rfl
      · exact ⟨⟨"name".toList, by decide⟩, ⟨"a:b".toList, by decide⟩⟩
      · exact ⟨⟨[], rfl⟩, ⟨[], rfl⟩⟩
  exact hashReply_roundTrip 4 pairs mapping ⟨arrivals, .silent⟩ [] (by decide)

end NetworkAccess
