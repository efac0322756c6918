import Mathlib.Data.List.Basic

/-! UTF-8 as a decoder takes it that replaces what is not UTF-8. Exactly text that is UTF-8 comes
back unchanged.
-/

namespace NetworkAccess.Utf8

/-- The bytes of a text. -/
def Valid (bytes : List UInt8) : Prop :=
  ∃ text : List Char, text.flatMap String.utf8EncodeChar = bytes

/-- The encoding of the replacement character. -/
def replacement : List UInt8 := [0xEF, 0xBF, 0xBD]

/-- The value of a byte, or 0 behind the end. -/
def byteAt (bytes : List UInt8) (index : Nat) : Nat := (bytes.getD index 0).toNat

/-- A byte that continues a character. -/
def isTail (byte : Nat) : Bool := 0x80 ≤ byte ∧ byte ≤ 0xBF

/-- The second bytes that may follow a leading byte of three or four. -/
def isSecond (leading byte : Nat) : Bool :=
  if leading = 0xE0 then 0xA0 ≤ byte ∧ byte ≤ 0xBF
  else if leading = 0xED then 0x80 ≤ byte ∧ byte ≤ 0x9F
  else if leading = 0xF0 then 0x90 ≤ byte ∧ byte ≤ 0xBF
  else if leading = 0xF4 then 0x80 ≤ byte ∧ byte ≤ 0x8F
  else isTail byte

/-- How many bytes the decoder looks at before it can tell whether a character stands here, and
whether one does.
-/
def inspect (bytes : List UInt8) : Nat × Bool :=
  let leading := byteAt bytes 0
  if leading < 0x80 then
    (1, true)
  else if leading < 0xC2 ∨ 0xF4 < leading then
    (1, false)
  else if leading ≤ 0xDF then
    if isTail (byteAt bytes 1) then (2, true) else (1, false)
  else if ¬ isSecond leading (byteAt bytes 1) then
    (1, false)
  else if ¬ isTail (byteAt bytes 2) then
    (2, false)
  else if leading ≤ 0xEF then
    (3, true)
  else if isTail (byteAt bytes 3) then
    (4, true)
  else
    (3, false)

/-- Characters are kept, and everything else that was looked at is replaced. -/
def lossyFrom : Nat → List UInt8 → List UInt8
  | 0, _ => []
  | _ + 1, [] => []
  | fuel + 1, byte :: rest =>
      let (length, isCharacter) := inspect (byte :: rest)
      (if isCharacter then (byte :: rest).take length else replacement)
        ++ lossyFrom fuel ((byte :: rest).drop length)

/-- The decoder looks at one byte at least in each turn. -/
def fromUtf8Lossy (bytes : List UInt8) : List UInt8 := lossyFrom bytes.length bytes

section Encodings

variable {value : Nat} (rest : List UInt8)

/-- An ASCII byte is a character of one byte. -/
theorem inspect_one (range : value ≤ 0x7F)
    : inspect (UInt8.ofNat value :: rest) = (1, true) := by
  simp only [inspect, byteAt, List.getD_cons_zero, UInt8.toNat_ofNat']
  rw [if_pos (by omega)]

/-- The encoding of a code point of up to 11 bits is a character of two bytes. -/
theorem inspect_two (range : 0x7F < value ∧ value ≤ 0x7FF)
    : inspect
        (UInt8.ofNat (value / 64 % 0x20 + 0xC0) :: UInt8.ofNat (value % 0x40 + 0x80) :: rest)
      = (2, true) := by
  simp only [inspect, byteAt, List.getD_cons_zero, List.getD_cons_succ, UInt8.toNat_ofNat',
    isTail, decide_eq_true_eq]
  rw [if_neg (by omega), if_neg (by omega), if_pos (by omega), if_pos (by omega)]

/-- The second byte excludes what shorter encodings and surrogates would have. -/
theorem inspect_three (range : 0x7FF < value ∧ value ≤ 0xFFFF)
    (scalar : value < 0xD800 ∨ 0xDFFF < value)
    : inspect
        (UInt8.ofNat (value / 4096 % 0x10 + 0xE0) :: UInt8.ofNat (value / 64 % 0x40 + 0x80)
          :: UInt8.ofNat (value % 0x40 + 0x80) :: rest)
      = (3, true) := by
  have second : isSecond ((value / 4096 % 0x10 + 0xE0) % 2 ^ 8)
      ((value / 64 % 0x40 + 0x80) % 2 ^ 8) := by
    simp only [isSecond, isTail, decide_eq_true_eq, Bool.ite_eq_true_distrib]
    split_ifs <;> omega
  simp only [inspect, byteAt, List.getD_cons_zero, List.getD_cons_succ, UInt8.toNat_ofNat',
    second, isTail, decide_eq_true_eq]
  rw [if_neg (by omega), if_neg (by omega), if_neg (by omega), if_neg (by simp),
    if_neg (by omega), if_pos (by omega)]

/-- The encoding of a code point behind the first plane is a character of four bytes. -/
theorem inspect_four (range : 0xFFFF < value ∧ value < 0x110000)
    : inspect
        (UInt8.ofNat (value / 262144 % 0x08 + 0xF0) :: UInt8.ofNat (value / 4096 % 0x40 + 0x80)
          :: UInt8.ofNat (value / 64 % 0x40 + 0x80) :: UInt8.ofNat (value % 0x40 + 0x80) :: rest)
      = (4, true) := by
  have second : isSecond ((value / 262144 % 0x08 + 0xF0) % 2 ^ 8)
      ((value / 4096 % 0x40 + 0x80) % 2 ^ 8) := by
    simp only [isSecond, isTail, decide_eq_true_eq, Bool.ite_eq_true_distrib]
    split_ifs <;> omega
  simp only [inspect, byteAt, List.getD_cons_zero, List.getD_cons_succ, UInt8.toNat_ofNat',
    second, isTail, decide_eq_true_eq]
  rw [if_neg (by omega), if_neg (by omega), if_neg (by omega), if_neg (by simp),
    if_neg (by omega), if_neg (by omega), if_pos (by omega)]

end Encodings

/-- The inspection finds the character that an encoding begins with, by the length of the encoding.
-/
theorem inspect_utf8EncodeChar (letter : Char) (rest : List UInt8)
    : inspect (String.utf8EncodeChar letter ++ rest)
      = ((String.utf8EncodeChar letter).length, true) := by
  have scalar : letter.val.toNat < 0xD800
      ∨ 0xDFFF < letter.val.toNat ∧ letter.val.toNat < 0x110000 := letter.valid
  rw [String.utf8EncodeChar]
  generalize letter.val.toNat = value at scalar
  by_cases one : value ≤ 0x7F
  · rw [if_pos one]
    exact inspect_one rest one
  · by_cases two : value ≤ 0x7FF
    · rw [if_neg one, if_pos two]
      exact inspect_two rest ⟨by omega, two⟩
    · by_cases three : value ≤ 0xFFFF
      · rw [if_neg one, if_neg two, if_pos three]
        exact inspect_three rest ⟨by omega, three⟩ (by omega)
      · rw [if_neg one, if_neg two, if_neg three]
        exact inspect_four rest ⟨by omega, by omega⟩

/-- A text comes back unchanged, by induction on its characters. -/
theorem lossyFrom_encoded (text : List Char) {fuel : Nat}
    (enough : (text.flatMap String.utf8EncodeChar).length ≤ fuel)
    : lossyFrom fuel (text.flatMap String.utf8EncodeChar)
      = text.flatMap String.utf8EncodeChar := by
  induction text generalizing fuel with
  | nil => cases fuel <;> rfl
  | cons letter more ih =>
      have found := inspect_utf8EncodeChar letter (more.flatMap String.utf8EncodeChar)
      rw [List.flatMap_cons] at enough ⊢
      rw [List.length_append] at enough
      generalize encoded : String.utf8EncodeChar letter = front at enough found ⊢
      cases front with
      | nil => exact absurd encoded String.utf8EncodeChar_ne_nil
      | cons byte tail =>
          rw [List.length_cons] at enough
          cases fuel with
          | zero => omega
          | succ fuel =>
              rw [List.cons_append] at found ⊢
              rw [lossyFrom, found]
              simp only [if_pos, ← List.cons_append, List.take_left, List.drop_left]
              rw [ih (by omega)]

/-- Valid text is decoded as it is, by the characters it is made of. -/
theorem fromUtf8Lossy_valid {bytes : List UInt8} (valid : Valid bytes)
    : fromUtf8Lossy bytes = bytes := by
  obtain ⟨text, rfl⟩ := valid
  exact lossyFrom_encoded text (Nat.le_refl _)

-----------------------------------------------------------------------------------------
-- What the decoder makes is UTF-8
-----------------------------------------------------------------------------------------

/-- Every scalar value is that of a character. -/
theorem exists_char {value : Nat}
    (scalar : value < 0xD800 ∨ 0xDFFF < value ∧ value < 0x110000)
    : ∃ letter : Char, letter.val.toNat = value := by
  have same : (UInt32.ofNat value).toNat = value :=
    UInt32.toNat_ofNat_of_lt' (show value < 4294967296 by omega)
  exact ⟨⟨UInt32.ofNat value, by rw [UInt32.isValidChar, same]; exact scalar⟩, same⟩

/-- The range of a continuation byte. -/
theorem isTail_bounds {byte : Nat} (tail : isTail byte) : 0x80 ≤ byte ∧ byte ≤ 0xBF :=
  of_decide_eq_true tail

/-- Where the decoder sees a tail, there is a byte. -/
theorem exists_of_isTail {bytes : List UInt8} (tail : isTail (byteAt bytes 0))
    : ∃ first rest, bytes = first :: rest ∧ 0x80 ≤ first.toNat ∧ first.toNat ≤ 0xBF := by
  cases bytes with
  | nil => cases tail
  | cons first rest => exact ⟨first, rest, rfl, isTail_bounds tail⟩

/-- The second byte of a character is a continuation byte, in a smaller range behind four of the
leading bytes.
-/
theorem isSecond_bounds {leading byte : Nat} (second : isSecond leading byte)
    : isTail byte
      ∧ (leading = 0xE0 → 0xA0 ≤ byte)
      ∧ (leading = 0xED → byte ≤ 0x9F)
      ∧ (leading = 0xF0 → 0x90 ≤ byte)
      ∧ (leading = 0xF4 → byte ≤ 0x8F) := by
  simp only [isSecond, isTail, decide_eq_true_eq, Bool.ite_eq_true_distrib] at second ⊢
  split_ifs at second <;> omega

/-- A byte is made from its own value. -/
theorem ofNat_eq {byte : UInt8} {value : Nat} (same : value = byte.toNat)
    : UInt8.ofNat value = byte := by
  rw [same, UInt8.ofNat_toNat]

section Characters

variable {first second third fourth : UInt8}

/-- A byte below 0x80 encodes a character. -/
theorem character_one (range : first.toNat < 0x80)
    : ∃ letter : Char, [first] = String.utf8EncodeChar letter := by
  obtain ⟨letter, value⟩ := exists_char (Or.inl (by omega : first.toNat < 0xD800))
  refine ⟨letter, ?_⟩
  rw [String.utf8EncodeChar, value, if_pos (by omega), UInt8.ofNat_toNat]

/-- Two bytes in their ranges encode a character. Witness: the code point from their bits. -/
theorem character_two (range : 0xC2 ≤ first.toNat ∧ first.toNat ≤ 0xDF)
    (tail : 0x80 ≤ second.toNat ∧ second.toNat ≤ 0xBF)
    : ∃ letter : Char, [first, second] = String.utf8EncodeChar letter := by
  have scalar : (first.toNat - 0xC0) * 64 + (second.toNat - 0x80) < 0xD800 := by omega
  obtain ⟨letter, value⟩ := exists_char (Or.inl scalar)
  refine ⟨letter, ?_⟩
  rw [String.utf8EncodeChar, value, if_neg (by omega), if_pos (by omega),
    ofNat_eq (show _ = first.toNat by omega), ofNat_eq (show _ = second.toNat by omega)]

/-- Three bytes in their ranges encode a character, where the second one excludes overlong forms and
surrogates.
-/
theorem character_three (range : 0xE0 ≤ first.toNat ∧ first.toNat ≤ 0xEF)
    (leads : isSecond first.toNat second.toNat)
    (tail : 0x80 ≤ third.toNat ∧ third.toNat ≤ 0xBF)
    : ∃ letter : Char, [first, second, third] = String.utf8EncodeChar letter := by
  obtain ⟨continues, low, surrogate, -⟩ := isSecond_bounds leads
  have bounds := isTail_bounds continues
  obtain ⟨letter, value⟩ := exists_char
    (show (first.toNat - 0xE0) * 4096 + (second.toNat - 0x80) * 64 + (third.toNat - 0x80) < 0xD800
        ∨ 0xDFFF < _ ∧ _ < 0x110000 by
      omega)
  refine ⟨letter, ?_⟩
  rw [String.utf8EncodeChar, value, if_neg (by omega), if_neg (by omega), if_pos (by omega),
    ofNat_eq (show _ = first.toNat by omega), ofNat_eq (show _ = second.toNat by omega),
    ofNat_eq (show _ = third.toNat by omega)]

/-- Four bytes in their ranges encode a character, where the second one excludes overlong forms and
values that are too large.
-/
theorem character_four (range : 0xF0 ≤ first.toNat ∧ first.toNat ≤ 0xF4)
    (leads : isSecond first.toNat second.toNat)
    (tail : 0x80 ≤ third.toNat ∧ third.toNat ≤ 0xBF)
    (more : 0x80 ≤ fourth.toNat ∧ fourth.toNat ≤ 0xBF)
    : ∃ letter : Char, [first, second, third, fourth] = String.utf8EncodeChar letter := by
  obtain ⟨continues, -, -, low, high⟩ := isSecond_bounds leads
  have bounds := isTail_bounds continues
  obtain ⟨letter, value⟩ := exists_char
    (show (first.toNat - 0xF0) * 262144 + (second.toNat - 0x80) * 4096 + (third.toNat - 0x80) * 64
          + (fourth.toNat - 0x80) < 0xD800
        ∨ 0xDFFF < _ ∧ _ < 0x110000 by
      omega)
  refine ⟨letter, ?_⟩
  rw [String.utf8EncodeChar, value, if_neg (by omega), if_neg (by omega), if_neg (by omega),
    ofNat_eq (show _ = first.toNat by omega), ofNat_eq (show _ = second.toNat by omega),
    ofNat_eq (show _ = third.toNat by omega), ofNat_eq (show _ = fourth.toNat by omega)]

end Characters

/-- What the decoder takes for a character is the encoding of one. -/
theorem inspect_character {first : UInt8} {rest : List UInt8} {length : Nat}
    (found : inspect (first :: rest) = (length, true))
    : ∃ letter : Char, (first :: rest).take length = String.utf8EncodeChar letter := by
  have zeroth : byteAt (first :: rest) 0 = first.toNat := rfl
  simp only [inspect, zeroth] at found
  by_cases one : first.toNat < 0x80
  · rw [if_pos one] at found
    cases found
    exact character_one one
  rw [if_neg one] at found
  by_cases outside : first.toNat < 0xC2 ∨ 0xF4 < first.toNat
  · rw [if_pos outside] at found
    cases found
  rw [if_neg outside] at found
  by_cases two : first.toNat ≤ 0xDF
  · rw [if_pos two] at found
    by_cases tail : isTail (byteAt (first :: rest) 1)
    · rw [if_pos tail] at found
      cases found
      obtain ⟨second, rest, rfl, bounds⟩ := exists_of_isTail (show isTail (byteAt rest 0) from tail)
      exact character_two ⟨by omega, two⟩ bounds
    · rw [if_neg tail] at found
      cases found
  rw [if_neg two] at found
  by_cases leads : isSecond first.toNat (byteAt (first :: rest) 1)
  swap
  · rw [if_pos leads] at found
    cases found
  rw [if_neg (not_not.mpr leads)] at found
  obtain ⟨second, rest, rfl, -⟩ :=
    exists_of_isTail (show isTail (byteAt rest 0) from (isSecond_bounds leads).1)
  by_cases tail : isTail (byteAt (first :: second :: rest) 2)
  swap
  · rw [if_pos tail] at found
    cases found
  rw [if_neg (not_not.mpr tail)] at found
  obtain ⟨third, rest, rfl, bounds⟩ := exists_of_isTail (show isTail (byteAt rest 0) from tail)
  by_cases three : first.toNat ≤ 0xEF
  · rw [if_pos three] at found
    cases found
    exact character_three ⟨by omega, three⟩ leads bounds
  rw [if_neg three] at found
  by_cases last : isTail (byteAt (first :: second :: third :: rest) 3)
  · rw [if_pos last] at found
    cases found
    obtain ⟨fourth, rest, rfl, more⟩ := exists_of_isTail (show isTail (byteAt rest 0) from last)
    exact character_four ⟨by omega, by omega⟩ leads bounds more
  · rw [if_neg last] at found
    cases found

/-- The replacement for what is invalid is valid itself. -/
theorem valid_replacement : Valid replacement := ⟨['\uFFFD'], by decide⟩

/-- Two valid texts are one valid text. -/
theorem Valid.append {left right : List UInt8} (one : Valid left) (other : Valid right)
    : Valid (left ++ right) := by
  obtain ⟨text, rfl⟩ := one
  obtain ⟨more, rfl⟩ := other
  exact ⟨text ++ more, List.flatMap_append⟩

/-- What the decoder returns is valid, by induction on its turns. -/
theorem lossyFrom_isValid (fuel : Nat) (bytes : List UInt8) : Valid (lossyFrom fuel bytes) := by
  induction fuel generalizing bytes with
  | zero => exact ⟨[], rfl⟩
  | succ fuel ih =>
      cases bytes with
      | nil => exact ⟨[], rfl⟩
      | cons byte rest =>
          rw [lossyFrom]
          cases found : inspect (byte :: rest) with
          | mk length isCharacter =>
              refine Valid.append ?_ (ih _)
              cases isCharacter with
              | false => exact valid_replacement
              | true =>
                  obtain ⟨letter, encoded⟩ := inspect_character found
                  exact ⟨[letter], by simpa using encoded.symm⟩

/-- The replacement has no ASCII byte, so it adds no separator to a text. -/
theorem high_of_mem_replacement {byte : UInt8} (member : byte ∈ replacement) : ¬ byte < 0x80 := by
  simp only [replacement, List.mem_cons, List.not_mem_nil, or_false] at member
  rcases member with rfl | rfl | rfl
  all_goals decide

/-- Decoding adds no ASCII, by induction on the turns of the decoder. -/
theorem mem_lossyFrom {byte : UInt8} (low : byte < 0x80) {fuel : Nat} {bytes : List UInt8}
    (member : byte ∈ lossyFrom fuel bytes)
    : byte ∈ bytes := by
  induction fuel generalizing bytes with
  | zero => cases member
  | succ fuel ih =>
      cases bytes with
      | nil => cases member
      | cons first rest =>
          rw [lossyFrom] at member
          cases found : inspect (first :: rest) with
          | mk length isCharacter =>
              rw [found] at member
              rcases List.mem_append.mp member with here | later
              · cases isCharacter with
                | false => exact absurd low (high_of_mem_replacement here)
                | true => exact List.mem_of_mem_take here
              · exact List.mem_of_mem_drop (ih later)

/-- Exactly UTF-8 comes back unchanged. -/
theorem fromUtf8Lossy_eq_iff {bytes : List UInt8} : fromUtf8Lossy bytes = bytes ↔ Valid bytes := by
  refine ⟨fun same => ?_, fromUtf8Lossy_valid⟩
  rw [← same]
  exact lossyFrom_isValid _ _

end NetworkAccess.Utf8
