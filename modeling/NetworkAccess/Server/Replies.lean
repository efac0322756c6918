import NetworkAccess.Server.Commands

/-! The replies of the server and of the programs that embed it, each as the calls of `write` that
it makes. The result of these calls is never looked at.
-/

namespace NetworkAccess

variable {Emulator : Type} (write : SOCKET → Bytes → Emulator → Emulator) (socket : SOCKET)

/-- `:`. -/
def colon : UInt8 := 58

/-- The buffer of one pair of C strings. The newline takes the place of the NUL of `snprintf`, and
`size_kv` is an `unsigned int`.
-/
def hashLine (key value : Bytes) : Bytes :=
  let sizeKv := (key.length + value.length) % 2 ^ 32
  (key ++ colon :: value).take (sizeKv + 1) ++ [newline]

/-- `generic_poll_server_start_hash_reply`. -/
def startHashReply (emulator : Emulator) : Emulator := write socket [newline] emulator

/-- `generic_poll_server_end_hash_reply`. -/
def endHashReply (emulator : Emulator) : Emulator := write socket [newline] emulator

/-- `__send_hash_reply`. -/
def sendHashReply (ends : Bool) (pairs : List (Bytes × Bytes)) (emulator : Emulator) : Emulator :=
  let emulator := pairs.foldl
    (fun emulator pair => write socket (hashLine pair.1 pair.2) emulator) emulator
  if ends then endHashReply write socket emulator else emulator

/-- `generic_poll_server_send_full_hash_reply`. -/
def sendFullHashReply (pairs : List (Bytes × Bytes)) (emulator : Emulator) : Emulator :=
  sendHashReply write socket true pairs (startHashReply write socket emulator)

/-- The bytes in memory of a 32 bit value in network order. -/
def htonl (size : Nat) : Bytes := [
  UInt8.ofNat (size >>> 24),
  UInt8.ofNat (size >>> 16),
  UInt8.ofNat (size >>> 8),
  UInt8.ofNat size
]

/-- `generic_poll_server_send_binary_block`. -/
def sendBinaryBlock (data : Bytes) (emulator : Emulator) : Emulator :=
  let emulator := write socket [0] emulator
  let emulator := write socket (htonl data.length) emulator
  write socket data emulator

/-- One reply of any kind. The size of a block is a `uint32_t`. -/
inductive Reply where
  | hash (pairs : List (Bytes × Bytes))
  | block (data : Bytes) (fits : data.length < 2 ^ 32)
  | error (errorType : ErrorType) (reason : Bytes)
deriving DecidableEq

namespace Reply

/-- Send a reply through the function for its kind. -/
def send (host : Host Emulator) (socket : SOCKET) : Reply → Emulator → Emulator
  | .hash pairs, emulator => sendFullHashReply host.write socket pairs emulator
  | .block data _, emulator => sendBinaryBlock host.write socket data emulator
  | .error errorType reason, emulator =>
      (sendError host socket errorType reason emulator).result.toOption.getD emulator

/-- The buffers that a reply gives to `write`. -/
def writes : Reply → List Bytes
  | .hash pairs => [newline] :: pairs.map (fun pair => hashLine pair.1 pair.2) ++ [[newline]]
  | .block data _ => [[0], htonl data.length, data]
  | .error errorType reason => [errorReplyText errorType reason]

/-- The complete reply. -/
def text (reply : Reply) : Bytes := reply.writes.flatten

/-- Sending is nothing but these calls in their order. -/
theorem send_eq (host : Host Emulator) (socket : SOCKET) (reply : Reply) (emulator : Emulator)
    : reply.send host socket emulator
      = reply.writes.foldl (fun emulator buffer => host.write socket buffer emulator) emulator := by
  cases reply with
  | hash pairs =>
      rw [writes, List.cons_append, List.foldl_cons, List.foldl_append, List.foldl_map]
      rfl
  | block data fits => rfl
  | error errorType reason => rfl

end Reply

/-- A `write` that transmits all it is given; its state is what has been transmitted. -/
def transmit (_ : SOCKET) (buffer sent : Bytes) : Bytes := sent ++ buffer

/-- A server whose socket transmits all it is given. -/
def transmitting : Host Bytes := {
  genericMap := []
  customMap := []
  writeFunction := fun _ _ sent => (true, sent)
  write := transmit
}

/-- What the sender of a reply transmits is its text. -/
theorem Reply.send_transmitting (socket : SOCKET) (reply : Reply) (sent : Bytes)
    : reply.send transmitting socket sent = sent ++ reply.text := by
  have calls (buffers : List Bytes) (sent : Bytes)
      : buffers.foldl (fun sent buffer => transmit socket buffer sent) sent
        = sent ++ buffers.flatten := by
    induction buffers generalizing sent with
    | nil => rw [List.foldl_nil, List.flatten_nil, List.append_nil]
    | cons buffer rest ih =>
        rw [List.foldl_cons, ih, transmit, List.append_assoc, List.flatten_cons]
  exact (reply.send_eq transmitting socket sent).trans (calls reply.writes sent)

/-- One line of an ASCII reply. -/
def pairLine (pair : Bytes × Bytes) : Bytes := pair.1 ++ colon :: pair.2 ++ [newline]

/-- An ASCII reply as the protocol describes it. -/
def asciiText (pairs : List (Bytes × Bytes)) : Bytes :=
  newline :: pairs.flatMap pairLine ++ [newline]

/-- Nothing is cut from a pair of a usual length. -/
theorem hashLine_eq {key value : Bytes} (short : key.length + value.length < 2 ^ 32)
    : hashLine key value = pairLine (key, value) := by
  have whole : (key ++ colon :: value).length ≤ key.length + value.length + 1 := by
    rw [List.length_append, List.length_cons]
    omega
  simp only [hashLine, Nat.mod_eq_of_lt short, List.take_of_length_le whole, pairLine]

/-- The text of a hash reply whose pairs are not cut. -/
theorem hash_text {pairs : List (Bytes × Bytes)}
    (short : ∀ pair ∈ pairs, pair.1.length + pair.2.length < 2 ^ 32)
    : (Reply.hash pairs).text = asciiText pairs := by
  have lines : pairs.map (fun pair => hashLine pair.1 pair.2) = pairs.map pairLine :=
    List.map_congr_left (fun pair member => hashLine_eq (short pair member))
  rw [Reply.text, Reply.writes, lines, asciiText]
  simp [List.flatMap_def]

/-- Nothing is cut from an error reply, as its buffer has one byte more than its text. -/
theorem errorReplyText_eq (errorType : ErrorType) (reason : Bytes)
    : errorReplyText errorType reason
      = ascii "\nerror:" ++ errorTypeText errorType ++ ascii "\nreason:" ++ reason
        ++ ascii "\n\n" := by
  apply List.take_of_length_le
  have lengths : (ascii "\nerror:").length = (ascii "error").length + 2
      ∧ (ascii "\nreason:").length = (ascii "reason").length + 2
      ∧ (ascii "\n\n").length = 2 := by decide
  simp only [List.length_append, lengths]
  omega

end NetworkAccess
