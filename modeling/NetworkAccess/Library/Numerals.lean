import Mathlib.Data.Nat.Digits.Defs

/-! Numbers in text, as the conversions of the C library read them: leading white space, a sign, the
digits up to the first other letter, and the nearest value that the result type has.
-/

namespace NetworkAccess.Numerals

/-- `isspace` of the C locale. -/
def isSpace (letter : UInt8) : Bool := letter = 32 ∨ 9 ≤ letter ∧ letter ≤ 13

/-- `-`. -/
def minus : UInt8 := 45

/-- `+`. -/
def plus : UInt8 := 43

/-- The value of a digit; letters are digits of bases above 10. -/
def digitValue (letter : UInt8) : Option Nat :=
  if 48 ≤ letter ∧ letter ≤ 57 then some (letter.toNat - 48)
  else if 97 ≤ letter ∧ letter ≤ 122 then some (letter.toNat - 87)
  else if 65 ≤ letter ∧ letter ≤ 90 then some (letter.toNat - 55)
  else none

/-- The digits of `base` at the front of a text, added to those read before. -/
def readDigits (base : Nat) : List UInt8 → Nat → Nat
  | [], value => value
  | letter :: rest, value =>
      match digitValue letter with
      | some digit => if digit < base then readDigits base rest (value * base + digit) else value
      | none => value

/-- The sign in front of the digits, if there is one: whether it is negative, and the rest. -/
def readSign : List UInt8 → Bool × List UInt8
  | [] => (false, [])
  | letter :: rest =>
      if letter = minus then (true, rest)
      else if letter = plus then (false, rest)
      else (false, letter :: rest)

/-- `strtoll` of base 10, which is `strtol` where `long` has 64 bits. -/
def strtoll (text : List UInt8) : Int :=
  let (negative, digits) := readSign (text.dropWhile isSpace)
  let magnitude : Int := readDigits 10 digits 0
  max (-2 ^ 63) (min (2 ^ 63 - 1) (if negative then -magnitude else magnitude))

/-- The prefix that hexadecimal numbers may have, if a digit follows it. -/
def dropHexPrefix (text : List UInt8) : List UInt8 :=
  match text with
  | zero :: letter :: digit :: rest =>
      if zero = 48 ∧ (letter = 120 ∨ letter = 88) ∧ ((digitValue digit).any (· < 16)) then
        digit :: rest
      else
        text
  | _ => text

/-- `strtoull` of base 16. A negative number wraps. -/
def strtoull16 (text : List UInt8) : Nat :=
  let (negative, digits) := readSign (text.dropWhile isSpace)
  let magnitude := readDigits 16 (dropHexPrefix digits) 0
  if 2 ^ 64 ≤ magnitude then 2 ^ 64 - 1
  else if negative then (2 ^ 64 - magnitude) % 2 ^ 64
  else magnitude

-----------------------------------------------------------------------------------------
-- Texts of numbers
-----------------------------------------------------------------------------------------

/-- The letters are digits of a base, and these digits are those of the number. -/
def Writes (base : Nat) (text : List UInt8) (value : Nat) : Prop :=
  ∃ digits : List Nat,
    digits ≠ []
    ∧ text.map digitValue = digits.map some
    ∧ (∀ digit ∈ digits, digit < base)
    ∧ Nat.ofDigits base digits.reverse = value

/-- Reading digits one after the other. -/
theorem readDigits_foldl {base : Nat} {text : List UInt8} {digits : List Nat}
    (letters : text.map digitValue = digits.map some) (small : ∀ digit ∈ digits, digit < base)
    (value : Nat)
    : readDigits base text value
      = digits.foldl (fun value digit => value * base + digit) value := by
  induction digits generalizing text value with
  | nil =>
      obtain rfl : text = [] := List.map_eq_nil_iff.mp letters
      rfl
  | cons digit rest ih =>
      obtain ⟨letter, more, rfl, here, later⟩ := List.map_eq_cons_iff.mp letters
      rw [readDigits, here]
      simp only [if_pos (small digit List.mem_cons_self), List.foldl_cons]
      exact ih later (fun other member => small other (List.mem_cons_of_mem _ member)) _

/-- The digits of a number are read as the number. -/
theorem Writes.readDigits {base : Nat} {text : List UInt8} {value : Nat}
    (writes : Writes base text value)
    : readDigits base text 0 = value := by
  obtain ⟨digits, -, letters, small, rfl⟩ := writes
  rw [readDigits_foldl letters small, Nat.ofDigits_eq_foldr, List.foldr_reverse]
  congr 1
  funext value digit
  rw [Nat.cast_id, Nat.mul_comm, Nat.add_comm]

/-- A number is smaller than the power of its base with as many digits. -/
theorem Writes.lt_pow {base : Nat} {text : List UInt8} {value : Nat}
    (writes : Writes base text value) (large : 1 < base)
    : value < base ^ text.length := by
  obtain ⟨digits, -, letters, small, rfl⟩ := writes
  have length := congrArg List.length letters
  rw [List.length_map, List.length_map] at length
  rw [length, ← List.length_reverse]
  exact Nat.ofDigits_lt_base_pow_length large
    (fun digit member => small digit (List.mem_reverse.mp member))

/-- The first letter is a digit. -/
theorem Writes.cons {base : Nat} {text : List UInt8} {value : Nat}
    (writes : Writes base text value)
    : ∃ letter rest digit,
        text = letter :: rest ∧ digitValue letter = some digit ∧ digit < base := by
  obtain ⟨digits, nonempty, letters, small, -⟩ := writes
  obtain ⟨digit, more, rfl⟩ := List.exists_cons_of_ne_nil nonempty
  obtain ⟨letter, rest, rfl, here, -⟩ := List.map_eq_cons_iff.mp letters
  exact ⟨letter, rest, digit, rfl, here, small digit List.mem_cons_self⟩

/-- Every letter is a digit. -/
theorem Writes.digit {base : Nat} {text : List UInt8} {value : Nat}
    (writes : Writes base text value) {letter : UInt8} (member : letter ∈ text)
    : ∃ digit, digitValue letter = some digit ∧ digit < base := by
  obtain ⟨digits, -, letters, small, -⟩ := writes
  have image : digitValue letter ∈ digits.map some := letters ▸ List.mem_map_of_mem member
  obtain ⟨digit, inside, same⟩ := List.mem_map.mp image
  exact ⟨digit, same.symm, small digit inside⟩

/-- No digit is white space. -/
theorem isSpace_digit {letter : UInt8} {digit : Nat} (found : digitValue letter = some digit)
    : isSpace letter = false := by
  have least : 48 ≤ letter.toNat := by
    by_contra small
    rw [digitValue, if_neg, if_neg, if_neg] at found
    · cases found
    all_goals
      rintro ⟨low, -⟩
      have bound := UInt8.le_iff_toNat_le.mp low
      exact small (Nat.le_trans (by decide) bound)
  rw [isSpace, decide_eq_false_iff_not]
  rintro (rfl | ⟨-, high⟩)
  · exact absurd least (by decide)
  · have bound := UInt8.le_iff_toNat_le.mp high
    exact absurd (Nat.le_trans least bound) (by decide)

/-- No space or sign stands before the digits, whatever is behind them. -/
theorem Writes.unspaced {base : Nat} {text : List UInt8} {value : Nat}
    (writes : Writes base text value) (behind : List UInt8)
    : (text ++ behind).dropWhile isSpace = text ++ behind := by
  obtain ⟨letter, rest, digit, rfl, found, -⟩ := writes.cons
  rw [List.cons_append, List.dropWhile_cons, isSpace_digit found, if_neg Bool.false_ne_true]

/-- A numeral has no sign, whatever is behind it. -/
theorem Writes.readSign {base : Nat} {text : List UInt8} {value : Nat}
    (writes : Writes base text value) (behind : List UInt8)
    : readSign (text ++ behind) = (false, text ++ behind) := by
  obtain ⟨letter, rest, digit, rfl, found, -⟩ := writes.cons
  have noMinus : letter ≠ minus := by
    rintro rfl
    cases found
  have noPlus : letter ≠ plus := by
    rintro rfl
    cases found
  rw [List.cons_append, Numerals.readSign, if_neg noMinus, if_neg noPlus]

/-- Nothing is skipped before a numeral. -/
theorem Writes.unsigned {base : Nat} {text : List UInt8} {value : Nat}
    (writes : Writes base text value)
    : Numerals.readSign (text.dropWhile isSpace) = (false, text) := by
  have spaces := writes.unspaced []
  have sign := writes.readSign []
  rw [List.append_nil] at spaces sign
  rw [spaces, sign]

/-- The prefix is no number of its own. -/
theorem Writes.dropHexPrefix {text : List UInt8} {value : Nat} (writes : Writes 16 text value)
    : dropHexPrefix text = text := by
  unfold Numerals.dropHexPrefix
  split
  case h_1 zero letter digit rest =>
    rw [if_neg]
    rintro ⟨-, rfl | rfl, -⟩
    all_goals
      obtain ⟨digit, found, small⟩ := writes.digit (List.mem_cons_of_mem _ List.mem_cons_self)
      cases found
      exact absurd small (by decide)
  case h_2 => rfl

/-- A decimal number is read as itself, or as the greatest one. -/
theorem strtoll_writes {text : List UInt8} {value : Nat} (writes : Writes 10 text value)
    : strtoll text = min value (2 ^ 63 - 1) := by
  rw [strtoll, writes.unsigned]
  simp only [writes.readDigits, Bool.false_eq_true, if_false]
  omega

/-- `strtoull` returns the value of a hexadecimal numeral, or the largest one. -/
theorem strtoull16_writes {text : List UInt8} {value : Nat} (writes : Writes 16 text value)
    : strtoull16 text = min value (2 ^ 64 - 1) := by
  rw [strtoull16, writes.unsigned]
  simp only [writes.dropHexPrefix, writes.readDigits, Bool.false_eq_true, if_false]
  split <;> omega

/-- A text that begins with another letter is no number. -/
theorem strtoll_other {letter : UInt8} (noSpace : isSpace letter = false)
    (noSign : letter ≠ minus ∧ letter ≠ plus) (noDigit : digitValue letter = none)
    (rest : List UInt8)
    : strtoll (letter :: rest) = 0 := by
  rw [strtoll, List.dropWhile_cons, noSpace, if_neg Bool.false_ne_true, readSign, if_neg noSign.1,
    if_neg noSign.2]
  simp only [readDigits, noDigit]
  decide

-----------------------------------------------------------------------------------------
-- The text of a number
-----------------------------------------------------------------------------------------

/-- A number in decimal digits. -/
def decimal (value : Nat) : List UInt8 :=
  if value = 0 then
    [48]
  else
    (Nat.digits 10 value).reverse.map (fun digit => UInt8.ofNat (48 + digit))

/-- A letter that is a decimal digit. -/
def IsDigit (letter : UInt8) : Prop := ∃ digit, digit < 10 ∧ letter = UInt8.ofNat (48 + digit)

/-- The letter of a decimal digit has the value of the digit. -/
theorem digitValue_ofNat {digit : Nat} (small : digit < 10)
    : digitValue (UInt8.ofNat (48 + digit)) = some digit := by
  revert digit
  decide

/-- A number is written with digits only. -/
theorem decimal_digits (value : Nat) : ∀ letter ∈ decimal value, IsDigit letter := by
  intro letter member
  rw [decimal] at member
  split at member
  case isTrue =>
    rw [List.mem_singleton.mp member]
    exact ⟨0, by decide, rfl⟩
  case isFalse =>
    obtain ⟨digit, inDigits, rfl⟩ := List.mem_map.mp member
    exact ⟨digit, Nat.digits_lt_base (by decide) (List.mem_reverse.mp inDigits), rfl⟩

/-- A digit of `%X`. -/
def hexDigit (digit : Nat) : UInt8 := UInt8.ofNat (if digit < 10 then 48 + digit else 55 + digit)

/-- A number in hexadecimal digits, with upper case letters. -/
def hexadecimal (value : Nat) : List UInt8 :=
  if value = 0 then [48] else (Nat.digits 16 value).reverse.map hexDigit

/-- One digit writes zero in every base. -/
theorem writes_zero {base : Nat} (positive : 0 < base) : Writes base [48] 0 :=
  ⟨[0], List.cons_ne_nil _ _, rfl, by simpa using positive, rfl⟩

/-- The digits of a number write it. -/
theorem writes_digits {base : Nat} (large : 1 < base) {letter : Nat → UInt8}
    (letters : ∀ digit, digit < base → digitValue (letter digit) = some digit) {value : Nat}
    (positive : value ≠ 0)
    : Writes base ((Nat.digits base value).reverse.map letter) value := by
  have small : ∀ digit ∈ (Nat.digits base value).reverse, digit < base := fun digit member =>
    Nat.digits_lt_base large (List.mem_reverse.mp member)
  refine ⟨(Nat.digits base value).reverse, ?_, ?_, small, ?_⟩
  · rw [Ne, List.reverse_eq_nil_iff, Nat.digits_eq_nil_iff_eq_zero]
    exact positive
  · rw [List.map_map]
    exact List.map_congr_left (fun digit member => letters digit (small digit member))
  · rw [List.reverse_reverse, Nat.ofDigits_digits]

/-- The decimal text of a number writes it. -/
theorem decimal_writes (value : Nat) : Writes 10 (decimal value) value := by
  rw [decimal]
  split
  case isTrue zero =>
    rw [zero]
    exact writes_zero (by decide)
  case isFalse positive =>
    exact writes_digits (by decide) (fun _ small => digitValue_ofNat small) positive

/-- The hexadecimal text of a number writes it. -/
theorem hexadecimal_writes (value : Nat) : Writes 16 (hexadecimal value) value := by
  rw [hexadecimal]
  split
  case isTrue zero =>
    rw [zero]
    exact writes_zero (by decide)
  case isFalse positive =>
    refine writes_digits (by decide) ?_ positive
    decide

end NetworkAccess.Numerals
