import Mathlib.Data.List.TakeWhile
import NetworkAccess.Library.Numerals

/-! Reading a file with the functions of the C library: a position in its bytes, and the directives
of `fscanf`, each of which takes letters from there.
-/

namespace NetworkAccess.Stdio

open Numerals

/-- A file that is open for reading. Its position may stand behind its end. -/
structure Stream where
  contents : List UInt8
  position : Nat

namespace Stream

/-- What has not been read yet. -/
def rest (stream : Stream) : List UInt8 := stream.contents.drop stream.position

/-- `fseek` with `SEEK_SET`. -/
def fseekSet (offset : Nat) (stream : Stream) : Stream := { stream with position := offset }

/-- `fseek` with `SEEK_CUR`. -/
def fseekCur (offset : Nat) (stream : Stream) : Stream :=
  { stream with position := stream.position + offset }

/-- `fread` of `size` single bytes: as many of them as the file has. -/
def fread (size : Nat) (stream : Stream) : List UInt8 × Stream :=
  let bytes := stream.rest.take size
  (bytes, { stream with position := stream.position + bytes.length })

end Stream

/-- The directives `%nc` and `%nd`, and a letter, no white space, that stands for itself. -/
inductive Directive where
  | chars (width : Nat)
  | decimal (width : Nat)
  | literal (letter : UInt8)
deriving DecidableEq

/-- What a directive stores. -/
inductive Converted where
  | chars (letters : List UInt8)
  | decimal (value : Int)
deriving DecidableEq

/-- White space, a sign, and digits, of which the last two fill the width. Numbers of up to nine
digits are those of an `int`.
-/
def scanDecimal (width : Nat) (text : List UInt8)
    : Except (List UInt8) (List Converted × List UInt8) :=
  let unspaced := text.dropWhile isSpace
  let (negative, digits) := readSign unspaced
  let room := width - (unspaced.length - digits.length)
  let item := (digits.take room).takeWhile (fun letter => (digitValue letter).any (· < 10))
  if item = [] then
    .error digits
  else
    let magnitude : Int := readDigits 10 item 0
    .ok ([.decimal (if negative then -magnitude else magnitude)], digits.drop item.length)

/-- The letters behind a directive, also where it does not match. -/
def Directive.scan (text : List UInt8)
    : Directive → Except (List UInt8) (List Converted × List UInt8)
  | .chars width =>
      if width ≤ text.length then .ok ([.chars (text.take width)], text.drop width) else .error []
  | .decimal width => scanDecimal width text
  | .literal letter =>
      if text.head? = some letter then .ok ([], text.tail) else .error text

/-- The directives of a format up to the first one that does not match. What `fscanf` returns is the
number of conversions, or an error in place of 0.
-/
def scanf : List Directive → List UInt8 → List Converted × List UInt8
  | [], text => ([], text)
  | directive :: format, text =>
      match directive.scan text with
      | .error text => ([], text)
      | .ok (stored, text) =>
          let (more, text) := scanf format text
          (stored ++ more, text)

/-- `fscanf`, which moves the stream behind what the format has taken. -/
def Stream.fscanf (format : List Directive) (stream : Stream) : List Converted × Stream :=
  let scanned := scanf format stream.rest
  let taken := stream.rest.length - scanned.2.length
  (scanned.1, { stream with position := stream.position + taken })

-----------------------------------------------------------------------------------------
-- What is left of a text
-----------------------------------------------------------------------------------------

/-- Behind the sign is the rest of the text. -/
theorem readSign_suffix (text : List UInt8) : (readSign text).2 <:+ text := by
  cases text with
  | nil => exact List.suffix_rfl
  | cons letter rest =>
      rw [readSign]
      split
      case isTrue => exact List.suffix_cons letter rest
      case isFalse =>
        split
        case isTrue => exact List.suffix_cons letter rest
        case isFalse => exact List.suffix_rfl

/-- Whether or not there is a number, what is left is the rest of the text. -/
theorem scanDecimal_suffix (width : Nat) (text : List UInt8)
    : match scanDecimal width text with
      | .ok (_, rest) => rest <:+ text
      | .error rest => rest <:+ text := by
  have sign := (readSign_suffix (text.dropWhile isSpace)).trans (List.dropWhile_suffix _)
  rw [scanDecimal]
  dsimp only
  split
  case h_1 scans =>
    split at scans
    case isTrue => cases scans
    case isFalse =>
      cases scans
      exact (List.drop_suffix _ _).trans sign
  case h_2 scans =>
    split at scans
    case isTrue =>
      cases scans
      exact sign
    case isFalse => cases scans

/-- What any directive leaves is the end of its text. -/
theorem Directive.scan_suffix (directive : Directive) (text : List UInt8)
    : match directive.scan text with
      | .ok (_, rest) => rest <:+ text
      | .error rest => rest <:+ text := by
  cases directive with
  | chars width =>
      rw [scan]
      by_cases enough : width ≤ text.length
      · rw [if_pos enough]
        exact List.drop_suffix width text
      · rw [if_neg enough]
        exact List.nil_suffix
  | decimal width => exact scanDecimal_suffix width text
  | literal letter =>
      simp only [scan]
      by_cases here : text.head? = some letter
      · simp only [if_pos here]
        exact List.tail_suffix text
      · simp only [if_neg here]
        exact List.suffix_rfl

/-- Letters are only taken from the front, by induction on the directives. -/
theorem scanf_suffix (format : List Directive) (text : List UInt8)
    : (scanf format text).2 <:+ text := by
  induction format generalizing text with
  | nil => exact List.suffix_rfl
  | cons directive format ih =>
      have taken := directive.scan_suffix text
      rw [scanf]
      cases scans : directive.scan text with
      | error rest =>
          rw [scans] at taken
          exact taken
      | ok result =>
          rw [scans] at taken
          exact (ih result.2).trans taken

/-- What is left of a stream that was moved over the letters at its position. -/
theorem Stream.rest_moved {stream : Stream} {taken behind : List UInt8}
    (here : stream.rest = taken ++ behind)
    : Stream.rest { stream with position := stream.position + taken.length } = behind := by
  rw [rest, ← List.drop_drop, ← rest, here, List.drop_left]

/-- `fscanf` converts what `scanf` does with the rest of the stream. -/
theorem Stream.fscanf_converted (format : List Directive) (stream : Stream)
    : (stream.fscanf format).1 = (scanf format stream.rest).1 := rfl

/-- Behind `fscanf` the rest of the stream is what `scanf` leaves. -/
theorem Stream.fscanf_rest (format : List Directive) (stream : Stream)
    : (stream.fscanf format).2.rest = (scanf format stream.rest).2 := by
  obtain ⟨taken, split⟩ := scanf_suffix format stream.rest
  have length := congrArg List.length split
  rw [List.length_append] at length
  have count : stream.rest.length - (scanf format stream.rest).2.length = taken.length := by omega
  rw [fscanf]
  simp only [count]
  exact stream.rest_moved split.symm

/-- A conversion of letters that goes well takes them from the text. -/
theorem scanf_chars_length {width : Nat} {format : List Directive} {text : List UInt8}
    (converts : (scanf (.chars width :: format) text).1 ≠ [])
    : (scanf (.chars width :: format) text).2.length + width ≤ text.length := by
  rw [scanf, Directive.scan] at converts ⊢
  by_cases enough : width ≤ text.length
  · rw [if_pos enough]
    have taken := (scanf_suffix format (text.drop width)).length_le
    rw [List.length_drop] at taken
    dsimp only
    omega
  · rw [if_neg enough] at converts
    exact absurd rfl converts

-----------------------------------------------------------------------------------------
-- Texts that match
-----------------------------------------------------------------------------------------

/-- `%nc` takes as many letters as it says. -/
theorem scan_chars (letters rest : List UInt8)
    : (Directive.chars letters.length).scan (letters ++ rest) = .ok ([.chars letters], rest) := by
  rw [Directive.scan, if_pos (by simp), List.take_left, List.drop_left]

/-- A letter of the format takes the same letter. -/
theorem scan_literal (letter : UInt8) (rest : List UInt8)
    : (Directive.literal letter).scan (letter :: rest) = .ok ([], rest) :=
  if_pos rfl

/-- A number that fills the width is read as it is, whatever stands behind it. -/
theorem scan_decimal {digits : List UInt8} {value : Nat} (writes : Writes 10 digits value)
    (rest : List UInt8)
    : (Directive.decimal digits.length).scan (digits ++ rest) = .ok ([.decimal value], rest) := by
  have item : digits.takeWhile (fun letter => (digitValue letter).any (· < 10)) = digits := by
    refine List.takeWhile_eq_self_iff.mpr (fun letter member => ?_)
    obtain ⟨digit, found, small⟩ := writes.digit member
    rw [found]
    exact decide_eq_true small
  have some_ : digits ≠ [] := by
    obtain ⟨letter, more, digit, rfl, -⟩ := writes.cons
    exact List.cons_ne_nil _ _
  -- neither white space nor a sign takes a part of the width
  rw [Directive.scan, scanDecimal, writes.unspaced rest, writes.readSign rest]
  simp only [Nat.sub_self, Nat.sub_zero, List.take_left, item, if_neg some_, List.drop_left,
    writes.readDigits, Bool.false_eq_true, if_false]

end NetworkAccess.Stdio
