import Mathlib.Data.Finmap
import NetworkAccess.Library.LossyText
import NetworkAccess.Server.Replies
import NetworkAccess.Validator.BufReader

/-! `NWASyncClient::get_reply`. A Rust string is given as its UTF-8 bytes.
-/

namespace NetworkAccess

/-- `HashMap<String, String>`. -/
abbrev StringMap := Finmap (fun _ : Bytes => Bytes)

/-- The text replies. `get_reply` makes no list of maps, but the checks ask for one. -/
inductive AsciiReply where
  | ok
  | hash (map : StringMap)
  | listHash (maps : List StringMap)
deriving DecidableEq

/-- The Rust `ErrorKind` of an error reply. -/
inductive NWAErrorKind where
  | invalidError
  | invalidCommand
  | invalidArgument
  | notAllowed
  | protocolError
deriving DecidableEq, Repr

/-- An error that the emulator replies with. -/
structure NWAError where
  kind : NWAErrorKind
  reason : Bytes
deriving DecidableEq

/-- What `get_reply` returns. -/
inductive EmulatorReply where
  | ascii (reply : AsciiReply)
  | error (error : NWAError)
  | binary (data : Bytes)
deriving DecidableEq

/-- The sizes of the arrays `key` and `value`. -/
def keySize : Nat := 100

/-- The length of the array for a value. -/
def valueSize : Nat := 1024

/-- The loop that fills `key`, and the line from the byte on at which it ends. It indexes `line` and
`key`, so it panics behind the end of either.
-/
def scanKey : Bytes → Bytes → Except Failure (Bytes × Bytes)
  | [], _ => .error .panics
  | letter :: rest, key =>
      if letter ≠ colon ∧ letter ≠ newline then
        if key.length < keySize then
          scanKey rest (key ++ [letter])
        else
          .error .panics
      else
        .ok (key, letter :: rest)

/-- The loop that fills `value`. -/
def scanValue : Bytes → Bytes → Except Failure Bytes
  | [], _ => .error .panics
  | letter :: rest, value =>
      if letter ≠ newline then
        if value.length < valueSize then
          scanValue rest (value ++ [letter])
        else
          .error .panics
      else
        .ok value

/-- A line that is not empty, up to `map.insert`. -/
def scanLine (line : Bytes) : Except Failure (Bytes × Bytes) := do
  let (key, rest) ← scanKey line []
  if rest.head? = some newline then
    throw (.io ⟨.other, ascii "Mal formed reply"⟩)
  let value ← scanValue rest.tail []
  pure (Utf8.fromUtf8Lossy key, Utf8.fromUtf8Lossy value)

/-- The kind of an error by its text. Every other text is an invalid error. -/
def errorKind (text : Bytes) : NWAErrorKind :=
  if text = ascii "protocol_error" then .protocolError
  else if text = ascii "invalid_command" then .invalidCommand
  else if text = ascii "invalid_argument" then .invalidArgument
  else if text = ascii "not_allowed" then .notAllowed
  else .invalidError

/-- What the pairs of a reply amount to. -/
def mapReply (map : StringMap) : EmulatorReply :=
  match map.lookup (ascii "error") with
  | some kind =>
      match map.lookup (ascii "reason") with
      | some reason => .error ⟨errorKind kind, reason⟩
      | none => .error ⟨.invalidError, ascii "Invalid reason"⟩
  | none => .ascii (.hash map)

/-- The loop of an ASCII reply. Its test of `rep == 0` comes behind `line[0]`, which panics first.
-/
def asciiLoop : Nat → StringMap → Receiving EmulatorReply
  | 0, _ => throw .waits
  | fuel + 1, map => do
      let line ← readUntil newline
      match line with
      | [] => throw .panics
      | first :: _ =>
          if first = newline ∧ map = ∅ then
            pure (.ascii .ok)
          else if first = newline then
            pure (mapReply map)
          else
            match scanLine line with
            | .error failure => throw failure
            | .ok (key, value) => asciiLoop fuel (map.insert key value)

/-- Every turn of the loop reads a byte. -/
def asciiReply : Receiving EmulatorReply := fun reader =>
  asciiLoop (reader.stream.length + 1) ∅ reader

/-- A zeroed buffer after bytes were read to its start. -/
def overlay (size : Nat) (bytes : Bytes) : Bytes :=
  bytes ++ List.replicate (size - bytes.length) 0

/-- The value that `get_reply` makes of the four bytes of a header. -/
def headerSize (header : Bytes) : Nat :=
  (header.getD 0 0).toNat <<< 24 + (header.getD 1 0).toNat <<< 16 + (header.getD 2 0).toNat <<< 8
    + (header.getD 3 0).toNat

/-- A size is read back from the header that it is written into. -/
theorem headerSize_htonl {size : Nat} (fits : size < 2 ^ 32) : headerSize (htonl size) = size := by
  simp only [headerSize, htonl, List.getD_cons_zero, List.getD_cons_succ, UInt8.toNat_ofNat',
    Nat.shiftRight_eq_div_pow, Nat.shiftLeft_eq]
  omega

/-- Neither read looks at how many bytes it got. -/
def binaryReply : Receiving EmulatorReply := do
  let header ← read 4
  let size := headerSize (overlay 4 header)
  let data ← read size
  pure (.binary (overlay size data))

/-- A reply as it is read from a new `BufReader`. -/
def readReply : Receiving EmulatorReply := do
  let bytes ← read 1
  match bytes with
  | [] => throw (.io ⟨.connectionAborted, ascii "Read 0 byte"⟩)
  | first :: _ =>
      if first = newline then
        asciiReply
      else if first = 0 then
        binaryReply
      else
        throw (.io ⟨.other, ascii "Invalid reply"⟩)

/-- `get_reply`: the reader is dropped at the end, with the bytes in its buffer. -/
def getReply (connection : Connection) : Except Failure EmulatorReply × Connection :=
  match readReply (BufReader.new connection) with
  | .ok reply reader => (.ok reply, reader.connection)
  | .error failure reader => (.error failure, reader.connection)

end NetworkAccess
