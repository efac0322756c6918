import NetworkAccess.Server.Commands

/-! How many arguments a line has: the tokenizer goes through exactly if its argument vector has
room for them.
-/

namespace NetworkAccess

/-- The bytes before the first space or newline. -/
def commandName (line : Bytes) : Bytes :=
  line.takeWhile (fun letter => letter ≠ space ∧ letter ≠ newline)

/-- What the argument loop reads: the line behind its name as `strlen` measures it. -/
def argumentText (line : Bytes) : Bytes := line.drop (cString (commandName line)).length

/-- The name is read up to the space or newline behind it, by induction on the name. -/
theorem splitName_clean {name : Bytes} (clean : space ∉ name ∧ newline ∉ name)
    {letter : UInt8} (ends : letter = space ∨ letter = newline) (rest : Bytes)
    : splitName (name ++ letter :: rest) = some (name, decide (letter ≠ newline)) := by
  induction name with
  | nil => exact if_pos ends
  | cons first more ih =>
      obtain ⟨noSpace, noNewline⟩ := clean
      rw [List.mem_cons, not_or] at noSpace noNewline
      have inside : ¬ (first = space ∨ first = newline) := by
        rw [not_or]
        exact ⟨Ne.symm noSpace.1, Ne.symm noNewline.1⟩
      rw [List.cons_append, splitName, if_neg inside, ih ⟨noSpace.2, noNewline.2⟩]
      rfl

/-- Up to that letter the line is its name. -/
theorem commandName_append {name : Bytes} (clean : space ∉ name ∧ newline ∉ name)
    {letter : UInt8} (ends : letter = space ∨ letter = newline) (rest : Bytes)
    : commandName (name ++ letter :: rest) = name := by
  have named : ∀ byte ∈ name, decide (byte ≠ space ∧ byte ≠ newline) = true := by
    refine fun byte member => decide_eq_true ⟨?_, ?_⟩
    · rintro rfl
      exact clean.1 member
    · rintro rfl
      exact clean.2 member
  have last : ¬ decide (letter ≠ space ∧ letter ≠ newline) = true := by
    rw [decide_eq_true_iff, ← not_or]
    exact not_not_intro ends
  rw [commandName, List.takeWhile_append_of_pos named, List.takeWhile_cons, if_neg last,
    List.append_nil]

/-- The argument vector has room for the arguments of a line: one more than there are semicolons. -/
def ArgumentsFit (line : Bytes) : Prop :=
  space ∉ line ∨ (argumentText line).count semicolon < maxArgs

instance : DecidablePred ArgumentsFit := fun line =>
  inferInstanceAs (Decidable (space ∉ line ∨ (argumentText line).count semicolon < maxArgs))

/-- The tokenizer of the model stops at the first store that leaves the vector. -/
theorem splitArgs_ok_iff {body : Bytes} (open_ : newline ∉ body) {index : Nat} {current : Bytes}
    (slot : index < maxArgs) (room : current.length + body.length < argSize)
    : (∃ args, splitArgs (body ++ [newline]) index current = .ok args)
      ↔ index + body.count semicolon < maxArgs := by
  induction body generalizing index current with
  | nil =>
      have short : ¬ argSize ≤ current.length := Nat.not_le.mpr room
      simp [splitArgs, short, slot]
  | cons letter rest ih =>
      simp only [List.mem_cons, not_or, List.length_cons] at open_ room
      have short : ¬ argSize ≤ current.length := by omega
      rw [List.cons_append, splitArgs, if_neg short, if_neg (Ne.symm open_.1)]
      by_cases separates : letter = semicolon
      · rw [if_pos separates, separates, List.count_cons_self]
        by_cases next : index + 1 < maxArgs
        · have later := ih open_.2 next (show ([] : Bytes).length + rest.length < argSize by
            simp only [List.length_nil]
            omega)
          rw [if_pos next, ← Nat.add_assoc, Nat.add_right_comm, ← later]
          cases splitArgs (rest ++ [newline]) (index + 1) [] <;> simp [Except.map]
        · rw [if_neg next]
          constructor
          · rintro ⟨args, same⟩
            cases same
          · intro fits
            omega
      · rw [if_neg separates, List.count_cons_of_ne separates]
        exact ih open_.2 slot (by
          rw [List.length_append, List.length_singleton]
          omega)

/-- Skipped spaces are no semicolons. -/
theorem count_dropWhile_space (text : Bytes)
    : (text.dropWhile (· = space)).count semicolon = text.count semicolon := by
  induction text with
  | nil => rfl
  | cons letter rest ih =>
      by_cases skipped : letter = space
      · rw [List.dropWhile_cons, if_pos (decide_eq_true skipped), ih, skipped,
          List.count_cons_of_ne (by decide)]
      · rw [List.dropWhile_cons, if_neg (by simpa using skipped)]

/-- The text of a line with a space keeps the newline of the line as its only one. -/
theorem argumentText_split {name rest : Bytes} (clean : space ∉ name ∧ newline ∉ name)
    (open_ : newline ∉ rest)
    : ∃ body,
        (argumentText (name ++ space :: rest ++ [newline])).dropWhile (· = space)
          = body ++ [newline]
        ∧ newline ∉ body
        ∧ body.length ≤ (name ++ space :: rest).length
        ∧ body.count semicolon
          = (argumentText (name ++ space :: rest ++ [newline])).count semicolon := by
  have named : commandName (name ++ space :: rest ++ [newline]) = name := by
    rw [List.append_assoc, List.cons_append]
    exact commandName_append clean (Or.inl rfl) _
  have short : (cString name).length ≤ (name ++ space :: rest).length := by
    have kept : (cString name).length ≤ name.length := (List.takeWhile_sublist _).length_le
    simp only [List.length_append]
    omega
  let text := (name ++ space :: rest).drop (cString name).length
  have whole : argumentText (name ++ space :: rest ++ [newline]) = text ++ [newline] := by
    rw [argumentText, named, List.drop_append_of_le_length short]
  have inText : newline ∉ text := by
    intro member
    have member := List.mem_of_mem_drop member
    simp only [List.mem_append, List.mem_cons] at member
    rcases member with inName | isSpace | inRest
    · exact clean.2 inName
    · exact absurd isSpace (by decide)
    · exact open_ inRest
  have skips : (text ++ [newline]).dropWhile (· = space)
      = text.dropWhile (· = space) ++ [newline] := by
    rw [List.dropWhile_append]
    cases dropped : text.dropWhile (· = space) with
    | nil => rfl
    | cons letter rest => rfl
  refine ⟨text.dropWhile (· = space), whole ▸ skips, ?_, ?_, ?_⟩
  · exact fun member => inText ((List.dropWhile_sublist _).subset member)
  · exact ((List.dropWhile_sublist _).trans (List.drop_sublist _ _)).length_le
  · rw [whole, List.count_append, count_dropWhile_space]
    rfl

/-- The tokenizer goes through a line exactly if its arguments fit. -/
theorem tokenize_ok_iff {body : Bytes} (open_ : newline ∉ body)
    (fits : (body ++ [newline]).length ≤ 2048)
    : (∃ tokens, tokenize (body ++ [newline]) = .ok tokens) ↔ ArgumentsFit (body ++ [newline]) := by
  by_cases spaced : space ∈ body
  · obtain ⟨name, rest, rfl, free⟩ := List.eq_append_cons_of_mem spaced
    have clean : space ∉ name ∧ newline ∉ name :=
      ⟨free, fun member => open_ (List.mem_append_left _ member)⟩
    have open_ : newline ∉ rest := fun member =>
      open_ (List.mem_append_right _ (List.mem_cons_of_mem _ member))
    have present : ¬ space ∉ name ++ space :: rest ++ [newline] :=
      not_not_intro (List.mem_append_left _ spaced)
    obtain ⟨text, skipped, textOpen, short, count⟩ := argumentText_split clean open_
    have room : ([] : Bytes).length + text.length < argSize := by
      rw [List.length_append, List.length_singleton] at fits
      rw [argSize, List.length_nil]
      omega
    have split := splitArgs_ok_iff textOpen (by decide : 0 < maxArgs) room
    have found : splitName (name ++ space :: rest ++ [newline]) = some (name, true) := by
      rw [List.append_assoc, List.cons_append]
      exact splitName_clean clean (Or.inl rfl) _
    have named : commandName (name ++ space :: rest ++ [newline]) = name := by
      rw [List.append_assoc, List.cons_append]
      exact commandName_append clean (Or.inl rfl) _
    rw [ArgumentsFit, or_iff_right present, ← count, ← Nat.zero_add (text.count semicolon), ← split]
    rw [argumentText, named] at skipped
    rw [tokenize, found]
    simp only [if_pos, skipped]
    cases splitArgs (text ++ [newline]) 0 [] <;> simp [Except.map]
  · have found : splitName (body ++ [newline]) = some (body, false) :=
      splitName_clean ⟨spaced, open_⟩ (Or.inr rfl) []
    have absent : space ∉ body ++ [newline] := by
      rw [List.mem_append, List.mem_singleton]
      rintro (inBody | ends)
      · exact spaced inBody
      · exact absurd ends (by decide)
    rw [tokenize, found]
    exact ⟨fun _ => Or.inl absent, fun _ => ⟨_, rfl⟩⟩

end NetworkAccess
