import NetworkAccess.Server.Arguments
import NetworkAccess.Server.TokenStores
import NetworkAccess.Validator.Reading

/-! No check bounds the number of arguments, so tokenizing stays inside its arrays exactly if
few enough semicolons stand behind the name.
-/

namespace NetworkAccess

-----------------------------------------------------------------------------------------
-- The loops
-----------------------------------------------------------------------------------------

/-- The name of a command ends at the first space or newline behind it, whatever follows. -/
theorem nameLength_append {name : Bytes} (clean : space ∉ name ∧ newline ∉ name)
    {letter : UInt8} (ends : letter = space ∨ letter = newline) (rest : Bytes)
    : nameLength (name ++ letter :: rest) = some name.length := by
  induction name with
  | nil => simp [nameLength, List.findIdx?_cons, ends]
  | cons first more ih =>
      simp only [List.mem_cons, not_or] at clean
      have inside : decide (first = space ∨ first = newline) = false := by
        simp [Ne.symm clean.1.1, Ne.symm clean.2.1]
      have later := ih ⟨clean.1.2, clean.2.2⟩
      rw [nameLength] at later
      rw [List.cons_append, nameLength, List.findIdx?_cons, inside, later]
      rfl

/-- The name and its terminator fit `cmd`. -/
theorem nameStores_inBounds {line : Bytes} {store : Store} (member : store ∈ nameStores line)
    : store.InBounds line.length := by
  rw [nameStores] at member
  cases found : nameLength line with
  | none =>
      rw [found] at member
      cases member
  | some i =>
      have inside : i < line.length := (List.findIdx?_eq_some_iff_getElem.mp found).1
      rw [found] at member
      rcases List.mem_append.mp member with before | last
      · obtain ⟨index, less, rfl⟩ := List.mem_map.mp before
        exact Nat.lt_trans (List.mem_range.mp less) inside
      · rw [List.mem_singleton.mp last]
        exact inside

/-- Closing the name of a command allocates no slot of the argument vector. -/
theorem nameStores_allocates (line : Bytes)
    : (nameStores line).filterMap Store.allocates = [] := by
  rw [nameStores]
  cases nameLength line with
  | none => rfl
  | some i => simp [Store.allocates]

section ArgumentLoop

variable {body : Bytes} (open_ : newline ∉ body)
include open_

/-- The argument loop stays inside exactly if it has room for one argument more than it meets
semicolons, by induction on the text.
-/
theorem argumentStores_inBounds_iff (size : Nat) {index position : Nat} (slot : index < maxArgs)
    (room : position + body.length < argSize)
    : (∀ store ∈ argumentStores (body ++ [newline]) index position, store.InBounds size)
      ↔ index + body.count semicolon < maxArgs := by
  induction body generalizing index position with
  | nil => simpa [argumentStores, Store.InBounds, slot] using room
  | cons letter rest ih =>
      simp only [List.mem_cons, not_or, List.length_cons] at open_ room
      rw [List.cons_append, argumentStores, if_neg (Ne.symm open_.1)]
      have here : Store.InBounds size (.argument index position) := ⟨slot, by omega⟩
      by_cases separates : letter = semicolon
      · rw [if_pos separates, separates, List.count_cons_self]
        simp only [List.forall_mem_cons, here, true_and]
        by_cases next : index + 1 < maxArgs
        · have later := ih open_.2 next (show 0 + rest.length < argSize by omega)
          rw [later, Store.InBounds]
          omega
        · rw [Store.InBounds]
          omega
      · rw [if_neg separates, List.count_cons_of_ne separates]
        simp only [List.forall_mem_cons, here, true_and]
        exact ih open_.2 slot (by omega)

/-- The argument loop allocates one buffer for each semicolon. -/
theorem argumentStores_allocates (index position : Nat)
    : (argumentStores (body ++ [newline]) index position).filterMap Store.allocates
      = List.range' (index + 1) (body.count semicolon) := by
  induction body generalizing index position with
  | nil => rfl
  | cons letter rest ih =>
      simp only [List.mem_cons, not_or] at open_
      rw [List.cons_append, argumentStores, if_neg (Ne.symm open_.1)]
      by_cases separates : letter = semicolon
      · have allocates : Store.allocates (.args (index + 1) true) = some (index + 1) := rfl
        rw [if_pos separates, separates, List.filterMap_cons_none rfl,
          List.filterMap_cons_some allocates, ih open_.2, List.count_cons_self, List.range'_succ]
      · rw [if_neg separates, List.filterMap_cons_none rfl, ih open_.2,
          List.count_cons_of_ne separates]

/-- The semicolons of a line are added to the count. By induction on the line. -/
theorem countArguments_eq (nbArg : Nat)
    : countArguments (body ++ [newline]) nbArg = nbArg + body.count semicolon := by
  induction body generalizing nbArg with
  | nil => rfl
  | cons letter rest ih =>
      simp only [List.mem_cons, not_or] at open_
      rw [List.cons_append, countArguments, if_neg (Ne.symm open_.1)]
      by_cases separates : letter = semicolon
      · rw [if_pos separates, separates, ih open_.2, List.count_cons_self]
        omega
      · rw [if_neg separates, ih open_.2, List.count_cons_of_ne separates]

end ArgumentLoop

-----------------------------------------------------------------------------------------
-- Whole lines
-----------------------------------------------------------------------------------------

/-- The stores of a line with arguments. -/
theorem tokenStores_arguments {name : Bytes} (clean : space ∉ name ∧ newline ∉ name)
    (rest : Bytes)
    : let line := name ++ space :: rest
      let text := (argumentText line).dropWhile (· = space)
      tokenStores line
        = {
            stores := .args 0 false :: nameStores line ++ .args 0 true :: argumentStores text 0 0
            freed := List.range (countArguments text 1)
          } := by
  intro line text
  have length : nameLength line = some name.length := nameLength_append clean (Or.inl rfl) rest
  have named : commandName line = name := commandName_append clean (Or.inl rfl) rest
  have taken : line.take name.length = name := List.take_left
  have ended : (line)[name.length]? = some space := by simp [line]
  have spaced : some space ≠ some newline := by decide
  rw [tokenStores, length]
  simp only [Option.getD_some, Option.bind_some, taken, ended, if_pos spaced]
  rw [← named]
  rfl

/-- The stores of a line without. -/
theorem tokenStores_noArguments {body : Bytes} (noSpace : space ∉ body) (open_ : newline ∉ body)
    : tokenStores (body ++ [newline]) = ⟨.args 0 false :: nameStores (body ++ [newline]), []⟩ := by
  have length : nameLength (body ++ [newline]) = some body.length :=
    nameLength_append ⟨noSpace, open_⟩ (Or.inr rfl) []
  simp [tokenStores, length]

/-- A line with arguments: what is freed was allocated, so only the vector can be too short. -/
theorem tokenStores_arguments_safe {name rest : Bytes} (clean : space ∉ name ∧ newline ∉ name)
    (open_ : newline ∉ rest) (fits : (name ++ space :: rest ++ [newline]).length ≤ 2048)
    : let line := name ++ space :: rest ++ [newline]
      (tokenStores line).Safe line.length ↔ (argumentText line).count semicolon < maxArgs := by
  intro line
  obtain ⟨text, skipped, textOpen, short, count⟩ := argumentText_split clean open_
  have stores := tokenStores_arguments clean (rest ++ [newline])
  rw [← List.cons_append, ← List.append_assoc] at stores
  simp only [skipped] at stores
  have first : 0 < maxArgs := by decide
  have room : 0 + text.length < argSize := by
    rw [List.length_append, List.length_singleton] at fits
    rw [argSize]
    omega
  have named : ∀ store ∈ nameStores line, store.InBounds line.length :=
    fun _ member => nameStores_inBounds member
  have freed : List.range (countArguments (text ++ [newline]) 1)
      = (Store.args 0 false :: nameStores line
        ++ Store.args 0 true :: argumentStores (text ++ [newline]) 0 0).filterMap
          Store.allocates := by
    have allocates : Store.allocates (.args 0 true) = some 0 := rfl
    rw [List.filterMap_append, List.filterMap_cons_none rfl, nameStores_allocates,
      List.filterMap_cons_some allocates, argumentStores_allocates textOpen,
      countArguments_eq textOpen, List.range_eq_range', Nat.add_comm, List.range'_succ]
    rfl
  have bounded := argumentStores_inBounds_iff textOpen line.length first room
  rw [Nat.zero_add, count] at bounded
  rw [stores, TokenStores.Safe, ← bounded]
  simp only [List.forall_mem_append, List.forall_mem_cons]
  constructor
  · exact fun safe => safe.1.2.2
  · exact fun inside => ⟨⟨⟨first, named⟩, first, inside⟩, freed⟩

/-- A line without arguments stores its name and nothing else. -/
theorem tokenStores_noArguments_safe {body : Bytes} (noSpace : space ∉ body)
    (open_ : newline ∉ body)
    : (tokenStores (body ++ [newline])).Safe (body ++ [newline]).length := by
  have first : 0 < maxArgs := by decide
  rw [tokenStores_noArguments noSpace open_, TokenStores.Safe]
  constructor
  · exact List.forall_mem_cons.mpr ⟨first, fun _ member => nameStores_inBounds member⟩
  · rw [List.filterMap_cons_none rfl, nameStores_allocates]

/-- All stores stay inside their arrays exactly if the arguments fit. -/
theorem tokenStores_safe {body : Bytes} (open_ : newline ∉ body)
    (fits : (body ++ [newline]).length ≤ 2048)
    : (tokenStores (body ++ [newline])).Safe (body ++ [newline]).length
      ↔ ArgumentsFit (body ++ [newline]) := by
  by_cases spaced : space ∈ body
  · obtain ⟨name, rest, rfl, free⟩ := List.eq_append_cons_of_mem spaced
    have clean : space ∉ name ∧ newline ∉ name :=
      ⟨free, fun member => open_ (List.mem_append_left _ member)⟩
    have present : ¬ space ∉ name ++ space :: rest ++ [newline] :=
      not_not_intro (List.mem_append_left _ spaced)
    rw [ArgumentsFit, or_iff_right present]
    exact tokenStores_arguments_safe clean
      (fun member => open_ (List.mem_append_right _ (List.mem_cons_of_mem _ member))) fits
  · have absent : space ∉ body ++ [newline] := by
      rw [List.mem_append, List.mem_singleton]
      rintro (inBody | ends)
      · exact spaced inBody
      · exact absurd ends (by decide)
    exact ⟨fun _ => Or.inl absent, fun _ => tokenStores_noArguments_safe spaced open_⟩

/-- For every line that can be handed to `process_command`, all stores of its tokenizer stay
inside their arrays and exactly the allocated arguments are freed if and only if the line has no
space or at most 19 semicolons stand behind its name.
-/
theorem tokenStores_safe_iff (line : Bytes) (command : CommandLine line)
    (fits : line.length ≤ 2048)
    : (tokenStores line).Safe line.length
      ↔ space ∉ line ∨ (argumentText line).count semicolon < maxArgs := by
  obtain ⟨-, body, rfl, open_⟩ := command
  exact tokenStores_safe open_ fits

/-- A `CORE_READ` of `count` ranges of one byte. -/
def rangesLine (count : Nat) : Bytes :=
  ascii "CORE_READ WRAM" ++ (List.replicate count (ascii ";0;1")).flatten ++ [newline]

/-- A CORE_READ line with any number of ranges is a command line. -/
theorem rangesLine_commandLine {count : Nat} : CommandLine (rangesLine count) := by
  refine ⟨⟨67, rfl, by decide⟩, _, rfl, fun member => ?_⟩
  rcases List.mem_append.mp member with name | range
  · exact absurd name (by decide)
  · obtain ⟨text, member, inText⟩ := List.mem_flatten.mp range
    rw [(List.mem_replicate.mp member).2] at inText
    exact absurd inText (by decide)

/-- Nine ranges fit. -/
theorem tokenStores_safe_iff_nine
    : (rangesLine 9).length ≤ 2048
      ∧ (tokenStores (rangesLine 9)).Safe (rangesLine 9).length := by
  have fits : (rangesLine 9).length ≤ 2048 := by decide
  exact ⟨fits,
    (tokenStores_safe_iff (rangesLine 9) rangesLine_commandLine fits).mpr (Or.inr (by decide))⟩

/-- Ten ranges store a pointer behind the vector. -/
theorem rangesLine_leaves_vector
    : ¬ ∀ line, CommandLine line → line.length ≤ 2048 → (tokenStores line).Safe line.length := by
  intro safe
  have whole := (safe (rangesLine 10) rangesLine_commandLine (by decide)).1
  have inside := whole (.args 20 true) (by decide)
  exact absurd inside (by decide)

end NetworkAccess
