import NetworkAccess.Correctness.BinaryReplies
import NetworkAccess.Correctness.RoundTrip
import NetworkAccess.Dummy.Replies

/-! One reply per request: the dummy sends nothing for half of its commands, and loses the reply of
a write unless the block completes it.
-/

namespace NetworkAccess

open Buffered (filled)

/-- A request, and the pieces in which the bytes sent for it arrive. -/
structure Exchange where
  request : Request
  pieces : List Bytes

/-- The dummy behind the request. -/
def Exchange.after (exchange : Exchange) (socket : SOCKET) (dummy : Dummy) : Dummy :=
  (exchange.request.perform Dummy.host socket dummy).2

/-- What holds in the state before each request. -/
def AtEach (socket : SOCKET) (holds : Dummy → Exchange → Prop) : Dummy → List Exchange → Prop
  | _, [] => True
  | dummy, exchange :: rest =>
      holds dummy exchange ∧ AtEach socket holds (exchange.after socket dummy) rest

/-- An implemented command. `CORE_READ` has three arguments, for bytes that are in a memory; the
block of `bCORE_WRITE` matches the size, if there is one, and is for a place in a memory.
-/
def Accepted (dummy : Dummy) (exchange : Exchange) : Prop :=
  match exchange.request with
  | .text name args =>
      (∃ entry ∈ Dummy.host.genericMap, lookupCommand name = some entry.command)
      ∧ (lookupCommand name = some .coreRead
        → ∃ memory offset size rest data,
            args = memory :: offset :: size :: rest
            ∧ dummy.load (memoryNamed memory) (getOffset offset) (toUnsigned (atoi size))
              = some data)
  | .write args data =>
      ∃ name offset rest memory,
        args = name :: offset :: rest
        ∧ memoryNamed name = some memory
        ∧ getOffset offset + data.length ≤ (dummy.memory memory).bytes.length
        ∧ ∀ size, rest = [size] → toUnsigned (atoi size) = data.length

/-- The pieces are what the server sends. -/
def Delivered (socket : SOCKET) (dummy : Dummy) (exchange : Exchange) : Prop :=
  dummy.Transmits socket exchange.pieces.flatten (exchange.after socket dummy)

/-- The request leads to one complete reply, and `get_reply` reads it to its end. `left` is what an
earlier call has left on the connection.
-/
def Exchange.OneReply (exchange : Exchange) (socket : SOCKET) (dummy : Dummy) (left : List Bytes)
    : Prop :=
  CompleteReply exchange.pieces.flatten
  ∧ (exchange.after socket dummy).undefined = false
  ∧ ReadsWhole ⟨left ++ exchange.pieces, .silent⟩

/-- The client calls `get_reply` once behind each request. -/
def OneReplyEach (socket : SOCKET) : Dummy → List Bytes → List Exchange → Prop
  | _, _, [] => True
  | dummy, left, exchange :: rest =>
      exchange.OneReply socket dummy left
      ∧ OneReplyEach socket (exchange.after socket dummy)
          (getReply ⟨left ++ exchange.pieces, .silent⟩).2.arrivals rest

/-- The command is one of the seven that have an ASCII reply, or a `CORE_READ` whose bytes arrive as
`get_reply` reads them, or a write that its block completes. A ROM path with newlines adds lines to
the reply of `GAME_INFO`.
-/
def InStep (dummy : Dummy) (exchange : Exchange) : Prop :=
  match exchange.request with
  | .text name args =>
      match lookupCommand name with
      | some .emulatorInfo | some .emulationStatus | some .coresList | some .coreInfo
      | some .coreCurrentInfo | some .coreMemories => True
      | some .gameInfo =>
          ∀ line ∈ completeLines (hashLine (ascii "file") dummy.romPath), Scannable line
      | some .coreRead =>
          let size := toUnsigned (atoi (args.getD 2 []))
          HexStringFits size ∧ BlockArrives size .silent (filled exchange.pieces)
      | _ => False
  | .write args data =>
      HexStringFits data.length
      ∧ if dummy.sizeHeaderGet then
          args.length = 3
        else
          4 < data.length ∧ ntohl data = data.length - 4

-----------------------------------------------------------------------------------------
-- What a request does
-----------------------------------------------------------------------------------------

/-- A text request does to the emulator what the handler of its entry does. -/
theorem text_performs {name : Bytes} {command : EmulatorCommand} {entry : GenericEntry Dummy}
    (found : lookupCommand name = some command)
    (here : Dummy.host.genericMap.find? (fun entry => entry.command = command) = some entry)
    (args : List Bytes) (socket : SOCKET) (dummy : Dummy)
    : ((Request.text name args).perform Dummy.host socket dummy).2
      = (entry.function socket args dummy).2 := by
  have resolved : resolve Dummy.host name = .generic command entry := by
    rw [resolve, show lookupCustom Dummy.host.customMap 0 name = none from rfl]
    simp only [found, here]
  rw [Request.perform, Request.served, show (Request.text name args).name = name from rfl,
    resolved]
  rfl

/-- The size that a write announces. -/
def sizeArgument : List Bytes → Nat
  | [size] => toUnsigned (atoi size)
  | _ => 0

/-- A write request does to the emulator what its handler and then `write_to_memory` do. -/
theorem write_performs {name : Bytes} {memory : MemoryName}
    (named : memoryNamed name = some memory) (offset : Bytes) (rest : List Bytes) (data : Bytes)
    (socket : SOCKET) (dummy : Dummy)
    : let request := Request.write (name :: offset :: rest) data
      let size := sizeArgument rest
      (request.served Dummy.host socket dummy).size = size
      ∧ (request.perform Dummy.host socket dummy).2
        = (writeToMemory socket data (dummy.announce memory (getOffset offset) size)).2 := by
  intro request size
  have handled : dummyCoreMemoryWrite socket (name :: offset :: rest) dummy
      = ((size : Int), dummy.announce memory (getOffset offset) size) := by
    simp only [dummyCoreMemoryWrite, named, Option.some_or, Dummy.announce]
    rfl
  have served : request.served Dummy.host socket dummy
      = let result := dummyCoreMemoryWrite socket (name :: offset :: rest) dummy
        ⟨
          result.1,
          result.2,
          [.handled socket (.generic .bCoreWrite) (name :: offset :: rest) result.1]
        ⟩ := rfl
  rw [handled] at served
  refine ⟨congrArg Served.size served, ?_⟩
  rw [Request.perform.eq_def, served]
  simp only [request]
  rw [if_neg (by omega)]
  rfl

/-- A write in which the sizes match. -/
theorem sizeArgument_cases {rest : List Bytes} {length : Nat}
    (matching : ∀ size, rest = [size] → toUnsigned (atoi size) = length)
    : sizeArgument rest = if rest.length = 1 then length else 0 := by
  match rest with
  | [] => rfl
  | [size] => exact matching size rfl
  | _ :: _ :: _ => simp [sizeArgument]

-----------------------------------------------------------------------------------------
-- One exchange
-----------------------------------------------------------------------------------------

section One

variable {socket : SOCKET} {dummy : Dummy} {exchange : Exchange}
  (delivered : Delivered socket dummy exchange) {left : List Bytes} (none_ : left.flatten = [])
include delivered

/-- Without bytes there is no reply. -/
theorem not_oneReply_silent (silent : dummy.Transmits socket [] (exchange.after socket dummy))
    : ¬ exchange.OneReply socket dummy left := by
  intro one
  have complete := one.1
  rw [delivered.unique silent] at complete
  exact completeReply_prefixFree.nonempty complete

include none_

/-- A reply that is sent as lines is read as one reply exactly if every line can be scanned. -/
theorem oneReply_lines_iff {lines : List Bytes} (closed : ∀ line ∈ lines, newline ∉ line)
    (defined : (exchange.after socket dummy).undefined = false)
    (sends : dummy.Transmits socket (linesText lines) (exchange.after socket dummy))
    : exchange.OneReply socket dummy left ↔ ∀ line ∈ lines, Scannable line := by
  have text := delivered.unique sends
  have arrives : (Connection.mk (left ++ exchange.pieces) .silent).arrivals.flatten
      = linesText lines := by
    rw [List.flatten_append, none_, text, List.nil_append]
  rw [Exchange.OneReply, text, and_iff_right defined]
  exact linesReply_iff closed arrives

/-- A reply that is sent as a block is read as one reply exactly if its data arrives as the one read
of it needs.
-/
theorem oneReply_block_iff {data : Bytes} (fits : data.length < 2 ^ 32)
    (defined : (exchange.after socket dummy).undefined = false)
    (sends
      : dummy.Transmits socket (0 :: (htonl data.length ++ data)) (exchange.after socket dummy))
    : exchange.OneReply socket dummy left
      ↔ BlockArrives data.length .silent (filled exchange.pieces) := by
  have text := delivered.unique sends
  have arrives : (Connection.mk (left ++ exchange.pieces) .silent).arrivals.flatten
      = 0 :: (htonl data.length ++ (data ++ [])) := by
    rw [List.flatten_append, none_, text, List.nil_append, List.append_nil]
  have complete : CompleteReply (0 :: (htonl data.length ++ data)) := .inr ⟨data, fits, rfl⟩
  have pieces := readsBlock_iff fits arrives
  rw [List.append_nil] at arrives
  rw [Exchange.OneReply, text, and_iff_right complete, and_iff_right defined,
    readsWhole_block fits arrives, pieces, Buffered.filled_append_nil none_]

/-- A handler that replies with a hash is read as one reply exactly if every line of the hash can be
scanned.
-/
theorem oneReply_hash_iff (pairs : List (String × Bytes)) (defined : dummy.undefined = false)
    (performs : exchange.after socket dummy = (replyHash pairs socket dummy).2)
    : exchange.OneReply socket dummy left
      ↔ ∀ line ∈ hashLines (pairs.map (fun pair => (ascii pair.1, pair.2))), Scannable line := by
  have sends := replyHash_lines pairs socket dummy
  rw [← performs] at sends
  refine oneReply_lines_iff delivered none_ ?_ (sends.defined defined) sends.transmits
  intro line member
  obtain ⟨pair, -, inside⟩ := List.mem_flatMap.mp member
  exact completeLines_closed inside

/-- CORE_READ is read as one reply exactly if the string has room for the digits of the size and the
block arrives as the one read of its data needs.
-/
theorem oneReply_coreRead_iff {memory offset size : Bytes} {rest : List Bytes}
    (defined : dummy.undefined = false)
    (performs
      : exchange.after socket dummy
        = (dummyCoreMemoryRead socket (memory :: offset :: size :: rest) dummy).2)
    {data : Bytes} {count : Nat} (counts : toUnsigned (atoi size) = count)
    (loads : dummy.load (memoryNamed memory) (getOffset offset) count = some data)
    : exchange.OneReply socket dummy left
      ↔ HexStringFits count ∧ BlockArrives count .silent (filled exchange.pieces) := by
  by_cases shown : HexStringFits count
  · rw [dummyCoreMemoryRead_some socket dummy counts loads shown] at performs
    have length := Dummy.load_length loads
    have fits : data.length < 2 ^ 32 := by
      rw [length, ← counts, toUnsigned]
      omega
    have sends : Sends socket dummy (exchange.after socket dummy)
        (0 :: (htonl data.length ++ data)) :=
      ⟨[[0], htonl count, data], by simp [length], performs⟩
    rw [and_iff_right shown, ← length]
    exact oneReply_block_iff delivered none_ fits (sends.defined defined) sends.transmits
  · rw [dummyCoreMemoryRead_none socket dummy counts (Or.inr shown)] at performs
    refine iff_of_false (fun one => ?_) (fun both => shown both.1)
    have clear := one.2.1
    rw [performs] at clear
    cases clear

end One

/-- One text request behind a call of `get_reply` that has left nothing. -/
theorem text_inStep_iff {name : Bytes} {args : List Bytes} {pieces : List Bytes}
    (sendable : (Request.text name args).Sendable) {socket : SOCKET} {dummy : Dummy}
    (defined : dummy.undefined = false) (accepted : Accepted dummy ⟨.text name args, pieces⟩)
    (delivered : Delivered socket dummy ⟨.text name args, pieces⟩) {left : List Bytes}
    (none_ : left.flatten = [])
    : (Exchange.mk (.text name args) pieces).OneReply socket dummy left
      ↔ InStep dummy ⟨.text name args, pieces⟩ := by
  obtain ⟨⟨entry, member, found⟩, reads⟩ := accepted
  have implemented : entry.command ∈ Dummy.host.genericMap.map GenericEntry.command :=
    List.mem_map_of_mem member
  generalize entry.command = command at found implemented
  have performs {handler : GenericEntry Dummy}
      (here
        : Dummy.host.genericMap.find? (fun known => known.command = command) = some handler) :=
    text_performs found here args socket dummy
  have silent {handler : GenericEntry Dummy}
      (here
        : Dummy.host.genericMap.find? (fun known => known.command = command) = some handler)
      (same : (handler.function socket args dummy).2.sent = dummy.sent)
      : ¬ (Exchange.mk (.text name args) pieces).OneReply socket dummy left :=
    not_oneReply_silent delivered (.nothing ((congrArg Dummy.sent (performs here)).trans same))
  have hash (pairs : List (String × Bytes)) := oneReply_hash_iff delivered none_ pairs defined
  simp only [InStep, found]
  cases command with
  | emulationPause | emulationStop | emulationReset | emulationResume | emulationReload | loadGame
  | loadCore | debugBreak | debugContinue | loadState | saveState =>
      exact iff_of_false (silent rfl rfl) id
  | emulatorInfo | coresList | coreInfo | coreCurrentInfo | coreMemories =>
      exact iff_of_true ((hash _ (performs rfl)).mpr (by decide +kernel)) trivial
  | emulationStatus =>
      obtain ⟨status, scannable, closed, sends⟩ := dummyEmuStatus_lines socket args dummy
      rw [← show Exchange.after ⟨.text name args, pieces⟩ socket dummy = _ from performs rfl]
        at sends
      have lines := oneReply_lines_iff delivered none_
        (List.forall_mem_cons.mpr ⟨closed, by decide⟩) (sends.defined defined) sends.transmits
      exact iff_of_true (lines.mpr (List.forall_mem_cons.mpr ⟨scannable, by decide⟩)) trivial
  | gameInfo =>
      rw [hash _ (performs rfl)]
      simp only [hashLines, List.map_cons, List.map_nil, List.flatMap_cons, List.flatMap_nil,
        List.append_nil, List.forall_mem_append]
      rw [and_iff_right (by decide +kernel), and_iff_left (by decide +kernel)]
  | coreRead =>
      obtain ⟨memory, offset, size, rest, data, rfl, loads⟩ := reads found
      have reading
          : Exchange.after ⟨.text name (memory :: offset :: size :: rest), pieces⟩ socket dummy
          = (dummyCoreMemoryRead socket (memory :: offset :: size :: rest) dummy).2 := performs rfl
      exact oneReply_coreRead_iff delivered none_ defined reading rfl loads
  | bCoreWrite =>
      -- no text request begins with its letter
      obtain ⟨known, here, command, rfl⟩ := lookupCommand_some found
      have binary : ∀ known ∈ commandStrings, known.command = .bCoreWrite
          → known.string.head? = some lowerB := by decide
      exact absurd (binary known here command) sendable.2.2.2
  | myNameIs | custom => exact absurd implemented (by decide)

/-- An exchange of a write request is read as one reply exactly if it is in step. -/
theorem write_inStep_iff {args : List Bytes} {data : Bytes} {pieces : List Bytes}
    (sendable : (Request.write args data).Sendable) {socket : SOCKET} {dummy : Dummy}
    (defined : dummy.undefined = false) (accepted : Accepted dummy ⟨.write args data, pieces⟩)
    (delivered : Delivered socket dummy ⟨.write args data, pieces⟩) {left : List Bytes}
    (none_ : left.flatten = [])
    : (Exchange.mk (.write args data) pieces).OneReply socket dummy left
      ↔ InStep dummy ⟨.write args data, pieces⟩ := by
  obtain ⟨name, offset, rest, memory, rfl, named, inside, matching⟩ := accepted
  have positive : 1 ≤ data.length := sendable.2.2.2.1
  have counted : data.length < 2 ^ 32 := sendable.2.2.2.2
  have performs : Exchange.after ⟨.write (name :: offset :: rest) data, pieces⟩ socket dummy = _ :=
    (write_performs named offset rest data socket dummy).2
  have completes : InStep dummy ⟨.write (name :: offset :: rest) data, pieces⟩
      ↔ dummy.Completes (sizeArgument rest) data := by
    have three : (name :: offset :: rest).length = 3 ↔ sizeArgument rest = data.length := by
      rw [sizeArgument_cases matching, List.length_cons, List.length_cons]
      split <;> omega
    simp only [InStep, Dummy.Completes, three]
  rw [completes]
  rcases writeToMemory_transmits socket defined inside counted positive (sizeArgument rest) with
    ⟨full, clear, sends⟩ | ⟨open_, lost⟩
  · rw [← performs] at clear sends
    have empty : ascii "\n\n" = linesText [] := by decide
    rw [empty] at sends
    have lines := oneReply_lines_iff delivered none_ (List.forall_mem_nil _) clear sends
    exact iff_of_true (lines.mpr (List.forall_mem_nil _)) full
  · rw [← performs] at lost
    refine iff_of_false (fun one => ?_) open_
    rcases lost with left_ | silent
    · rw [one.2.1] at left_
      cases left_
    · exact not_oneReply_silent delivered silent one

/-- An exchange of any request is read as one reply exactly if it meets `InStep`. -/
theorem Exchange.inStep_iff (exchange : Exchange) (sendable : exchange.request.Sendable)
    {socket : SOCKET} {dummy : Dummy} (defined : dummy.undefined = false)
    (accepted : Accepted dummy exchange) (delivered : Delivered socket dummy exchange)
    {left : List Bytes} (none_ : left.flatten = [])
    : exchange.OneReply socket dummy left ↔ InStep dummy exchange := by
  obtain ⟨request, pieces⟩ := exchange
  cases request with
  | text name args => exact text_inStep_iff sendable defined accepted delivered none_
  | write args data => exact write_inStep_iff sendable defined accepted delivered none_

-----------------------------------------------------------------------------------------
-- Whole runs
-----------------------------------------------------------------------------------------

/-- A call that reads everything leaves nothing. -/
theorem ReadsWhole.leaves {connection : Connection} (whole : ReadsWhole connection)
    : (getReply connection).2.arrivals.flatten = [] := by
  obtain ⟨reply, reader, reads, none_⟩ := whole
  rw [getReply, reads]
  exact (List.append_eq_nil_iff.mp none_).2

/-- Each request leads to one reply exactly if each is in step, by induction on the exchanges. -/
theorem oneReplyEach_iff_inStep {socket : SOCKET} {dummy : Dummy} {exchanges : List Exchange}
    (defined : dummy.undefined = false)
    (sendable : ∀ exchange ∈ exchanges, exchange.request.Sendable)
    (accepted : AtEach socket Accepted dummy exchanges)
    (delivered : AtEach socket (Delivered socket) dummy exchanges) {left : List Bytes}
    (none_ : left.flatten = [])
    : OneReplyEach socket dummy left exchanges ↔ AtEach socket InStep dummy exchanges := by
  induction exchanges generalizing dummy left with
  | nil => exact Iff.rfl
  | cons exchange rest ih =>
      obtain ⟨here, later⟩ := List.forall_mem_cons.mp sendable
      have one := exchange.inStep_iff here defined accepted.1 delivered.1 none_
      rw [OneReplyEach, AtEach, ← one]
      exact and_congr_right (fun replied =>
        ih replied.2.1 later accepted.2 delivered.2 replied.2.2.leaves)

/-- What is sent altogether. -/
theorem Delivered.all {socket : SOCKET} {dummy : Dummy} {exchanges : List Exchange}
    (delivered : AtEach socket (Delivered socket) dummy exchanges)
    : dummy.Transmits socket (exchanges.flatMap (fun exchange => exchange.pieces.flatten))
        (performAll Dummy.host socket dummy (exchanges.map Exchange.request)).2 := by
  induction exchanges generalizing dummy with
  | nil => exact .nothing rfl
  | cons exchange rest ih => exact delivered.1.trans (ih delivered.2)

/-- Exchanges with one reply each consist of complete replies. -/
theorem OneReplyEach.complete {socket : SOCKET} {dummy : Dummy} {exchanges : List Exchange}
    {left : List Bytes} (each : OneReplyEach socket dummy left exchanges)
    : ∀ exchange ∈ exchanges, CompleteReply exchange.pieces.flatten := by
  induction exchanges generalizing dummy left with
  | nil => exact nofun
  | cons exchange rest ih => exact List.forall_mem_cons.mpr ⟨each.1.1, ih each.2⟩

/-- The size that the handler of a write returns is 0 or the one of the block. -/
theorem answeredAll_of_accepted {socket : SOCKET} {dummy : Dummy} {exchanges : List Exchange}
    (accepted : AtEach socket Accepted dummy exchanges)
    : AnsweredAll Dummy.host socket dummy (exchanges.map Exchange.request) := by
  induction exchanges generalizing dummy with
  | nil => trivial
  | cons exchange rest ih =>
      refine ⟨?_, ih accepted.2⟩
      obtain ⟨request, pieces⟩ := exchange
      cases request with
      | text name args => trivial
      | write args data =>
          obtain ⟨name, offset, more, memory, rfl, named, -, matching⟩ := accepted.1
          have size := (write_performs named offset more data socket dummy).1
          rw [sizeArgument_cases matching] at size
          rw [Request.Answered, size]
          split
          case isTrue => exact Or.inr (Or.inl rfl)
          case isFalse => exact Or.inl rfl

/-- For every sequence of implemented commands with arguments that their handlers accept, in every
cut that ends with the blocks: each request leads to one complete reply that `get_reply` reads to
its end exactly if each of them is in step in the state before it. Then the bytes on the socket are
these replies in order, and can be taken for no other ones.
-/
theorem oneReplyEach_iff (client : Client) (wellFormed : client.WellFormed)
    (waiting : client.state = .waitingForCommand) (dummy : Dummy)
    (defined : dummy.undefined = false) (exchanges : List Exchange)
    (sendable : ∀ exchange ∈ exchanges, exchange.request.Sendable)
    (accepted : AtEach client.socketFd Accepted dummy exchanges)
    (delivered : AtEach client.socketFd (Delivered client.socketFd) dummy exchanges)
    (reads : List ClientRead)
    (stream
      : reads.flatMap ClientRead.bytes
        = (exchanges.map Exchange.request).flatMap Request.encode)
    (ends : BlocksEndReads (exchanges.map Exchange.request) reads)
    : let replies := exchanges.map (fun exchange => exchange.pieces.flatten)
      ∃ events last final,
        feedReads Dummy.host (client, dummy) reads = .emit events (last, final)
        ∧ dummy.Transmits client.socketFd replies.flatten final
        ∧ (OneReplyEach client.socketFd dummy [] exchanges
          ↔ AtEach client.socketFd InStep dummy exchanges)
        ∧ (OneReplyEach client.socketFd dummy [] exchanges
          → ∀ texts,
              (∀ text ∈ texts, CompleteReply text)
              → texts.flatten = replies.flatten
              → texts = replies) := by
  have builtin : resolve Dummy.host bCoreWriteName
      = .generic .bCoreWrite ⟨.bCoreWrite, dummyCoreMemoryWrite⟩ := rfl
  have idle : client.parser.phase = .idle := by
    simp only [Client.parser, Client.phase, waiting]
  obtain ⟨last, turn, -⟩ := feedReads_requests builtin wellFormed idle
    (List.forall_mem_map.mpr sendable) (answeredAll_of_accepted accepted) stream ends
  intro replies
  refine ⟨_, last, _, turn, ?_, ?_, ?_⟩
  · rw [← List.flatMap_def]
    exact Delivered.all delivered
  · exact oneReplyEach_iff_inStep defined sendable accepted delivered rfl
  · intro each texts complete same
    exact completeReply_prefixFree.flatten_inj complete (List.forall_mem_map.mpr each.complete) same

/-- A command without a block, a write and the read of what was written. -/
def exchanges : List Exchange := [
  ⟨.text (ascii "EMULATION_STATUS") [], [ascii "\nstate:running\ngame:Dummy game\n\n"]⟩,
  ⟨writeRequest .wram 0 [1, 2, 3], [ascii "\n", ascii "\n"]⟩,
  ⟨readRequest .wram 0 3, [[0, 0, 0, 0, 3], [1, 2, 3]]⟩
]

/-- The reads of the example: a text request, a binary write and a request that reads back. -/
def exchangeReads : List ClientRead := [
  ⟨ascii "EMULATION_STATUS\nbCORE_WRITE WRAM;0;3\n", by decide, by decide⟩,
  ⟨[0, 0, 0, 0, 3, 1, 2, 3], by decide, by decide⟩,
  ⟨ascii "CORE_READ WRAM;0;3\n", by decide, by decide⟩
]

/-- Witness: the flag is left over from an earlier write. -/
theorem oneReplyEach_three
    : let dummy := { smallDummy with sizeHeaderGet := true }
      ∃ events last final,
        feedReads Dummy.host (Client.zero.add 4, dummy) exchangeReads
          = .emit events (last, final)
        ∧ OneReplyEach 4 dummy [] exchanges := by
  have sendable : ∀ exchange ∈ exchanges, exchange.request.Sendable := by
    refine List.forall_mem_cons.mpr ⟨?_, List.forall_mem_cons.mpr ⟨?_, ?_⟩⟩
    · exact ⟨⟨⟨_, _, rfl, by decide⟩, by decide⟩, ⟨by decide, by decide, nofun⟩, by decide,
        by decide⟩
    · exact writeRequest_sendable .wram (by decide) (by decide) (by decide)
    · exact List.forall_mem_singleton.mpr (readRequest_sendable .wram (by decide) (by decide))
  have ends : BlocksEndReads (exchanges.map Exchange.request) exchangeReads := by
    rintro before args data after same
    match before with
    | [] => cases same
    | [_] =>
        cases same
        exact ⟨exchangeReads.take 2, exchangeReads.drop 2, rfl, by decide⟩
    | [_, _] => cases same
    | _ :: _ :: _ :: _ => simp [exchanges] at same
  have accepted : AtEach 4 Accepted { smallDummy with sizeHeaderGet := true } exchanges := by
    refine ⟨⟨by decide, fun read => absurd read (by decide)⟩, ?_, ⟨by decide, fun _ => ?_⟩, trivial⟩
    · exact ⟨_, _, _, .wram, rfl, by decide, by decide, by rintro size ⟨⟩; decide⟩
    · exact ⟨_, _, _, _, [1, 2, 3], rfl, by decide⟩
  have delivered : AtEach 4 (Delivered 4) { smallDummy with sizeHeaderGet := true } exchanges := by
    refine ⟨?_, ?_, ?_, trivial⟩
    · exact ⟨[ascii "\n", ascii "state:running", ascii "\ngame:Dummy game\n\n"], by decide,
        by decide⟩
    · exact ⟨[ascii "\n\n"], by decide, by decide⟩
    · exact ⟨[[0], htonl 3, [1, 2, 3]], by decide, by decide⟩
  obtain ⟨events, last, final, turn, -, each, -⟩ :=
    oneReplyEach_iff (Client.zero.add 4) (Client.zero.wellFormed_add 4) rfl
      { smallDummy with sizeHeaderGet := true } rfl exchanges sendable accepted delivered
      exchangeReads (by decide) ends
  refine ⟨events, last, final, turn, each.mpr ⟨trivial, ⟨by decide, by decide⟩, ?_, trivial⟩⟩
  have size : toUnsigned (atoi (Numerals.decimal 3)) = 3 := by decide
  have block : BlockArrives 3 .silent [[0, 0, 0, 0, 3], [1, 2, 3]] := ⟨by decide, Nat.le_refl 3⟩
  rw [← size] at block
  exact ⟨by decide, block⟩

/-- Nothing is sent for `EMULATION_PAUSE`, and the client waits. -/
theorem pause_not_replied
    : let exchange : Exchange := ⟨.text (ascii "EMULATION_PAUSE") [], []⟩
      exchange.request.Sendable
      ∧ Accepted smallDummy exchange
      ∧ Delivered 4 smallDummy exchange
      ∧ ¬ OneReplyEach 4 smallDummy [] [exchange]
      ∧ (getReply ⟨exchange.pieces, .silent⟩).1 = .error .waits := by
  intro exchange
  have sendable : exchange.request.Sendable :=
    ⟨⟨⟨_, _, rfl, by decide⟩, by decide⟩, ⟨by decide, by decide, nofun⟩, by decide, by decide⟩
  refine ⟨sendable, ⟨by decide, fun read => absurd read (by decide)⟩, ⟨[], rfl, by decide⟩, ?_,
    by decide⟩
  intro each
  exact completeReply_prefixFree.nonempty each.1.1

end NetworkAccess
