import Mathlib.Data.List.Forall2
import NetworkAccess.Correctness.BinaryReplies
import NetworkAccess.Correctness.ErrorReplies
import NetworkAccess.Correctness.RequestAnswers
import NetworkAccess.Correctness.SharedState

/-! The client of the validator at the server of the dummy: what `get_reply` returns for a request
is what the dummy, in the state in which it handles the request, has to say.
-/

namespace NetworkAccess

open Buffered (filled)

-----------------------------------------------------------------------------------------
-- Readings
-----------------------------------------------------------------------------------------

/-- `get_reply` returns this for a text that arrives on an open connection, if it arrives in pieces
that leave a block whole.
-/
def ReadAs (text : Bytes) (reading : Except Failure EmulatorReply) : Prop :=
  ∀ connection : Connection,
    connection.arrivals.flatten = text
    → connection.peer = .silent
    → (∀ data,
        reading = .ok (.binary data)
        → BlockArrives data.length .silent (filled connection.arrivals))
    → (getReply connection).1 = reading

/-- The mapping of pairs, in which the last one of a key counts. -/
def mapOf (pairs : List (Bytes × Bytes)) : StringMap :=
  pairs.foldl (fun map pair => map.insert pair.1 pair.2) ∅

/-- What `get_reply` makes of a hash reply with these pairs. -/
def mapping (pairs : List (Bytes × Bytes)) : Except Failure EmulatorReply :=
  .ok (.ascii (.hash (mapOf pairs)))

/-- A pair as it is decoded. -/
def lossyPair (pair : Bytes × Bytes) : Bytes × Bytes :=
  (Utf8.fromUtf8Lossy pair.1, Utf8.fromUtf8Lossy pair.2)

/-- A key that no pair has is not in the map. -/
theorem mapOf_lookup_none {pairs : List (Bytes × Bytes)} {key : Bytes}
    (absent : ∀ pair ∈ pairs, pair.1 ≠ key)
    : (mapOf pairs).lookup key = none := by
  induction pairs using List.reverseRecOn with
  | nil => rfl
  | append_singleton pairs pair ih =>
      obtain ⟨earlier, last⟩ := List.forall_mem_append.mp absent
      have other : key ≠ pair.1 := (last pair (List.mem_singleton_self pair)).symm
      rw [mapOf, List.foldl_concat, Finmap.lookup_insert_of_ne _ other]
      exact ih earlier

/-- Pairs without an error are decoded to their mapping. -/
theorem decoded_mapping {pairs : List (Bytes × Bytes)} (some_ : pairs ≠ [])
    (noError : ∀ pair ∈ pairs.map lossyPair, pair.1 ≠ ascii "error")
    : decoded pairs = .ascii (.hash (mapOf (pairs.map lossyPair))) := by
  have same : pairs.foldl insertPair ∅ = mapOf (pairs.map lossyPair) := by
    rw [mapOf, List.foldl_map]
    rfl
  rw [decoded_eq_mapReply some_, same, mapReply, mapOf_lookup_none noError]

/-- A hash reply without an `error` key is read as its pairs, or not at all if a pair does not fit
into the buffers of `get_reply`.
-/
theorem readAs_pairs {pairs : List (Bytes × Bytes)} (clean : ∀ pair ∈ pairs, CleanPair pair)
    (some_ : pairs ≠ []) (noError : ∀ pair ∈ pairs.map lossyPair, pair.1 ≠ ascii "error")
    : ReadAs (asciiText pairs)
        (if ∀ pair ∈ pairs, FittingPair pair then
          mapping (pairs.map lossyPair)
        else
          .error .panics) := by
  intro connection arrives _ _
  obtain ⟨after, run⟩ := readReply_ascii clean (arrives.trans (List.append_nil _).symm)
  rw [getReply]
  split at run
  case isTrue fits => rw [if_pos fits, run.2, decoded_mapping some_ noError, mapping]
  case isFalse long => rw [if_neg long, run]

/-- A pair that is read as it is. -/
def PlainPair (pair : Bytes × Bytes) : Prop :=
  ((colon ∉ pair.1 ∧ newline ∉ pair.1 ∧ (0 : UInt8) ∉ pair.1)
    ∧ newline ∉ pair.2
    ∧ (0 : UInt8) ∉ pair.2)
  ∧ FittingPair pair
  ∧ lossyPair pair = pair
  ∧ pair.1 ≠ ascii "error"

instance : DecidablePred PlainPair := fun _ => inferInstanceAs (Decidable (_ ∧ _ ∧ _ ∧ _))

/-- A plain pair is clean. -/
theorem PlainPair.clean {pair : Bytes × Bytes} (plain : PlainPair pair) : CleanPair pair :=
  ⟨plain.1.1, plain.1.2⟩

/-- A hash reply of plain pairs is read as these pairs. -/
theorem readAs_plain {pairs : List (Bytes × Bytes)} (some_ : pairs ≠ [])
    (plain : ∀ pair ∈ pairs, PlainPair pair)
    : ReadAs (asciiText pairs) (mapping pairs) := by
  have same : pairs.map lossyPair = pairs :=
    (List.map_congr_left (fun pair member => (plain pair member).2.2.1)).trans (List.map_id pairs)
  have reads := readAs_pairs (fun pair member => (plain pair member).clean) some_
    (same.symm ▸ fun pair member => (plain pair member).2.2.2)
  rwa [if_pos (fun pair member => (plain pair member).2.1), same] at reads

/-- A binary reply is read as its data. -/
theorem readAs_block {data : Bytes} (fits : data.length < 2 ^ 32)
    : ReadAs (0 :: htonl data.length ++ data) (.ok (.binary data)) := by
  intro connection arrives open_ whole
  have stream
      : connection.arrivals.flatten = 0 :: (htonl data.length ++ (data ++ [])) := by
    rw [arrives, List.append_nil, List.cons_append]
  exact ((readsBlock_iff fits stream).mpr (open_ ▸ whole data rfl)).getReply_eq

/-- Without a reply the client waits. -/
theorem readAs_nothing : ReadAs [] (.error .waits) := by
  intro connection nothing open_ _
  have none_ : filled connection.arrivals = [] := by
    simpa [filled] using Buffered.filled_append_nil nothing []
  have waits := read_nothing none_ 1
  rw [open_] at waits
  rw [getReply, BufReader.new, readReply, Receiving.bind_error waits]

/-- An error reply is read as an error of its kind and its reason, if the reason fits into the
buffer.
-/
theorem readAs_error {reason : Bytes} (clean : newline ∉ reason ∧ (0 : UInt8) ∉ reason)
    (errorType : ErrorType)
    : ReadAs (errorReplyText errorType reason)
        (if reason.length ≤ valueSize then
          .ok (.error ⟨errorKind (errorTypeText errorType), Utf8.fromUtf8Lossy reason⟩)
        else
          .error .panics) := by
  intro connection arrives _ _
  exact getReply_error clean errorType (arrives.trans (List.append_nil _).symm)

-----------------------------------------------------------------------------------------
-- What the dummy has to say
-----------------------------------------------------------------------------------------

/-- The word that stands for a state of the emulation in a status reply. -/
def DummyStatus.text : DummyStatus → Bytes
  | .running => ascii "running"
  | .paused => ascii "paused"
  | .stopped => ascii "stopped"

/-- What a client learns from a command: of the memories only the last one, and nothing of a ROM
whose path is too long. For a command without a reply it waits.
-/
def Dummy.reading (dummy : Dummy) (args : List Bytes)
    : EmulatorCommand → Except Failure EmulatorReply
  | .emulatorInfo =>
      mapping [
        (ascii "name", ascii "Dummy emulator"),
        (ascii "version", ascii "0.1"),
        (ascii "id", ascii "I am dumb"),
        (ascii "nwa_version", ascii "1.0"),
        (
          ascii "commands",
          ascii ("EMULATOR_INFO,EMULATION_STATUS,GAME_INFO,CORES_LIST,CORE_CURRENT_INFO,"
            ++ "CORE_INFO,EMULATION_PAUSE,EMULATION_RESUME,EMULATION_RESET,EMULATION_STOP")
        )
      ]
  | .emulationStatus =>
      mapping [(ascii "state", dummy.dummyState.text), (ascii "game", ascii "Dummy game")]
  | .gameInfo =>
      if dummy.romPath.length ≤ valueSize then
        mapping [
          (ascii "name", ascii "Dummy Game"),
          (ascii "file", Utf8.fromUtf8Lossy dummy.romPath),
          (ascii "region", ascii "EU")
        ]
      else
        .error .panics
  | .coresList | .coreInfo | .coreCurrentInfo =>
      mapping [
        (ascii "platform", ascii "SNES"),
        (ascii "name", ascii "dummy core"),
        (ascii "version", ascii "0.1")
      ]
  | .coreMemories => mapping [(ascii "name", ascii "CARTROM"), (ascii "access", ascii "rw")]
  | .coreRead =>
      match args with
      | name :: offset :: size :: _ =>
          match dummy.load (memoryNamed name) (getOffset offset) (toUnsigned (atoi size)) with
          | some data => .ok (.binary data)
          | none => .error .waits
      | _ => .error .waits
  | _ => .error .waits

/-- What a client learns from a request. -/
def Request.reading (dummy : Dummy) (request : Request) : Except Failure EmulatorReply :=
  match resolve Dummy.host request.name with
  | .generic command _ => dummy.reading request.args command
  | .custom _ _ => .error .waits
  | .unknown => .ok (.error ⟨.invalidCommand, ascii "Invalid command"⟩)
  | .unimplemented _ =>
      .ok (.error ⟨.invalidCommand, ascii "Invalid command or not implemented"⟩)

/-- A path that is one line and no longer than a process can be given. -/
structure PlainPath (path : Bytes) : Prop where
  oneLine : newline ∉ path
  noNul : (0 : UInt8) ∉ path
  short : path.length < 2 ^ 31

/-- A handler whose reply is read as what its command has to say. -/
def Tells (command : EmulatorCommand) (handler : Handler Dummy) : Prop :=
  ∀ socket args dummy,
    PlainPath dummy.romPath
    → let after := (handler socket args dummy).2
      after.undefined = false
      → ∃ text, dummy.Transmits socket text after ∧ ReadAs text (dummy.reading args command)

-----------------------------------------------------------------------------------------
-- Handlers
-----------------------------------------------------------------------------------------

/-- A handler that replies with a hash transmits the text of its pairs. -/
theorem replyHash_transmits {pairs : List (String × Bytes)}
    (short : ∀ pair ∈ pairs, (ascii pair.1).length + pair.2.length < 2 ^ 32) (socket : SOCKET)
    (dummy : Dummy)
    : dummy.Transmits socket (asciiText (pairs.map (fun pair => (ascii pair.1, pair.2))))
        (replyHash pairs socket dummy).2 := by
  have sends := (replyHash_lines pairs socket dummy).transmits
  rwa [← hash_lines, hash_text (List.forall_mem_map.mpr short)] at sends

/-- A handler that replies with plain pairs is read as these pairs. -/
theorem replyHash_tells (command : EmulatorCommand) (pairs : List (String × Bytes))
    (some_ : pairs ≠ []) (plain : ∀ pair ∈ pairs, PlainPair (ascii pair.1, pair.2))
    (reading
      : ∀ dummy args,
          Dummy.reading dummy args command
          = mapping (pairs.map (fun pair => (ascii pair.1, pair.2))))
    : Tells command (fun socket _ dummy => replyHash pairs socket dummy) := by
  intro socket args dummy path after defined
  have short : ∀ pair ∈ pairs, (ascii pair.1).length + pair.2.length < 2 ^ 32 := by
    intro pair member
    obtain ⟨-, ⟨key, value⟩, -, -⟩ := plain pair member
    rw [keySize] at key
    rw [valueSize] at value
    dsimp only at key value
    omega
  refine ⟨_, replyHash_transmits short socket dummy, ?_⟩
  rw [reading]
  exact readAs_plain (mt List.map_eq_nil_iff.mp some_) (List.forall_mem_map.mpr plain)

/-- The path of the ROM is the only text that may be too long or no UTF-8. -/
theorem dummyGameInfo_tells : Tells .gameInfo dummyGameInfo := by
  intro socket args dummy path after defined
  let name : Bytes × Bytes := (ascii "name", ascii "Dummy Game")
  let file : Bytes × Bytes := (ascii "file", dummy.romPath)
  let region : Bytes × Bytes := (ascii "region", ascii "EU")
  have plainName : PlainPair name := by decide
  have plainRegion : PlainPair region := by decide
  have key
      : (colon ∉ ascii "file" ∧ newline ∉ ascii "file" ∧ (0 : UInt8) ∉ ascii "file")
        ∧ (ascii "file").length ≤ keySize
        ∧ Utf8.fromUtf8Lossy (ascii "file") = ascii "file"
        ∧ ascii "file" ≠ ascii "error" := by
    decide
  obtain ⟨cleanKey, shortKey, sameKey, noError⟩ := key
  have clean : ∀ pair ∈ [name, file, region], CleanPair pair := by
    simp only [List.forall_mem_cons]
    exact ⟨plainName.clean, ⟨cleanKey, path.oneLine, path.noNul⟩, plainRegion.clean,
      List.forall_mem_nil _⟩
  have fits : (∀ pair ∈ [name, file, region], FittingPair pair)
      ↔ dummy.romPath.length ≤ valueSize := by
    simp only [List.forall_mem_cons]
    exact ⟨fun all => all.2.1.2,
      fun short => ⟨plainName.2.1, ⟨shortKey, short⟩, plainRegion.2.1, List.forall_mem_nil _⟩⟩
  have lossy : [name, file, region].map lossyPair
      = [name, (ascii "file", Utf8.fromUtf8Lossy dummy.romPath), region] := by
    simp only [List.map_cons, List.map_nil, plainName.2.2.1, plainRegion.2.2.1]
    rw [lossyPair, sameKey]
  have reads := readAs_pairs clean (List.cons_ne_nil _ _) (by
    rw [lossy]
    simp only [List.forall_mem_cons]
    exact ⟨plainName.2.2.2, noError, plainRegion.2.2.2, List.forall_mem_nil _⟩)
  rw [lossy] at reads
  simp only [fits] at reads
  refine ⟨_, replyHash_transmits ?_ socket dummy, reads⟩
  simp only [List.forall_mem_cons]
  have short := path.short
  refine ⟨by decide, ?_, by decide, List.forall_mem_nil _⟩
  rw [keySize] at shortKey
  omega

/-- The status that a client reads is the one that is set. -/
theorem dummyEmuStatus_tells : Tells .emulationStatus dummyEmuStatus := by
  intro socket args dummy path after defined
  have text : statusReply dummy.dummyState
      = asciiText
          [(ascii "state", dummy.dummyState.text), (ascii "game", ascii "Dummy game")] := by
    cases dummy.dummyState <;> decide
  have plain
      : ∀ pair ∈ [(ascii "state", dummy.dummyState.text), (ascii "game", ascii "Dummy game")],
          PlainPair pair := by
    cases dummy.dummyState <;> decide
  refine ⟨_, statusReply_sent socket args dummy, ?_⟩
  rw [text]
  exact readAs_plain (List.cons_ne_nil _ _) plain

/-- CORE_READ is read as its block of data, or as the error it replies with. -/
theorem dummyCoreMemoryRead_tells : Tells .coreRead dummyCoreMemoryRead := by
  intro socket args dummy path after defined
  obtain ⟨name, offset, size, rest, data, rfl, loads, fits, sent⟩ :=
    dummyCoreMemoryRead_loads defined
  refine ⟨_, sent, ?_⟩
  simp only [Dummy.reading, loads]
  exact readAs_block fits

/-- Of several memories the mapping keeps the last one. -/
theorem coreMemories_mapping
    : mapping [
          (ascii "name", ascii "WRAM"), (ascii "access", ascii "rw"),
          (ascii "name", ascii "SRAM"), (ascii "access", ascii "rw"),
          (ascii "name", ascii "CARTROM"), (ascii "access", ascii "rw")
        ]
      = mapping [(ascii "name", ascii "CARTROM"), (ascii "access", ascii "rw")] := by
  have keeps (left right : StringMap) (same : left = right)
      : (.ok (.ascii (.hash left)) : Except Failure EmulatorReply) = .ok (.ascii (.hash right)) :=
    same ▸ rfl
  exact keeps _ _ (by decide +kernel)

/-- For a command without a reply the client waits. -/
theorem reading_silent (dummy : Dummy) (args : List Bytes) {command : EmulatorCommand}
    (silent : command.hasReply = false)
    : dummy.reading args command = .error .waits := by
  cases command <;> first | rfl | cases silent

/-- Each handler of the table tells what its command asks. -/
theorem handler_tells : ∀ entry ∈ Dummy.host.genericMap, Tells entry.command entry.function := by
  have info : Tells .emulatorInfo dummyEmuInfo :=
    replyHash_tells _ _ (List.cons_ne_nil _ _) (by decide +kernel)
      (fun _ _ => by simp only [Dummy.reading, List.map_cons, List.map_nil])
  have cores : Tells .coresList dummyCoresList :=
    replyHash_tells _ _ (List.cons_ne_nil _ _) (by decide +kernel) (fun _ _ => rfl)
  have coreInfo : Tells .coreInfo dummyCoresList := cores
  have current : Tells .coreCurrentInfo dummyCoresList := cores
  have memories : Tells .coreMemories dummyCoreMemories :=
    replyHash_tells _ _ (List.cons_ne_nil _ _) (by decide +kernel)
      (fun _ _ => coreMemories_mapping.symm)
  have status := dummyEmuStatus_tells
  have game := dummyGameInfo_tells
  have read := dummyCoreMemoryRead_tells
  have replying
      : ∀ entry ∈ Dummy.host.genericMap,
          entry.command.hasReply → Tells entry.command entry.function := by
    simp only [Dummy.host, List.forall_mem_cons]
    simp [EmulatorCommand.hasReply, *]
  intro entry member
  cases replies : entry.command.hasReply with
  | true => exact replying entry member replies
  | false =>
      intro socket args dummy path after defined
      have sends := handler_sends entry member
      rw [if_neg (Bool.eq_false_iff.mp replies)] at sends
      exact ⟨[], (sends socket args dummy).2, reading_silent dummy args replies ▸ readAs_nothing⟩

-----------------------------------------------------------------------------------------
-- Requests
-----------------------------------------------------------------------------------------

/-- The reply to a text request is read as what the dummy has to say. -/
theorem Request.tells {request : Request} (text : request.isText) (socket : SOCKET)
    {dummy : Dummy} (path : PlainPath dummy.romPath)
    (defined : (request.perform Dummy.host socket dummy).2.undefined = false)
    : ∃ text,
        dummy.Transmits socket text (request.perform Dummy.host socket dummy).2
        ∧ ReadAs text (request.reading dummy) := by
  have refused {reason : Bytes} (clean : newline ∉ reason ∧ (0 : UInt8) ∉ reason)
      (short : reason.length ≤ valueSize) (utf8 : Utf8.fromUtf8Lossy reason = reason)
      : ∃ text,
          dummy.Transmits socket text
            (Dummy.write socket (errorReplyText .invalidCommand reason) dummy)
          ∧ ReadAs text (.ok (.error ⟨.invalidCommand, reason⟩)) := by
    have reads := readAs_error clean .invalidCommand
    rw [if_pos short, utf8] at reads
    exact ⟨_, ⟨[errorReplyText .invalidCommand reason], by simp, rfl⟩, reads⟩
  cases request with
  | write => cases text
  | text name args =>
      rw [Request.reading]
      have named : (Request.text name args).name = name := rfl
      simp only [Request.perform, Request.served, named] at defined ⊢
      cases resolved : resolve Dummy.host name with
      | unknown => exact refused (by decide) (by decide) (by decide)
      | unimplemented => exact refused (by decide) (by decide) (by decide)
      | custom index entry =>
          rw [resolve, show lookupCustom Dummy.host.customMap 0 name = none from rfl] at resolved
          dsimp only at resolved
          split at resolved
          case h_1 => cases resolved
          case h_2 => split at resolved <;> cases resolved
      | generic command entry =>
          obtain ⟨found, here, same⟩ :=
            Option.map_eq_some_iff.mp (resolve_generic_handler resolved)
          have tells := handler_tells found (List.mem_of_find?_eq_some here)
          have known : found.command = command := by simpa using List.find?_some here
          rw [known, same] at tells
          rw [resolved] at defined
          exact tells socket args dummy path defined

/-- The path of the ROM is one line. In every run in which the dummy keeps to its defined behaviour,
an open connection that has sent text requests, and perhaps a part of the next one, was sent a reply
for each of them, in their order, and nothing else, and the client reads each reply as what the
dummy has to say in the state in which it handles the request: the one that all requests of all
connections handled before it have made.
-/
theorem requests_read (serverSocket : SOCKET) (clients : Clients) (romPath : Bytes)
    (memory : MemoryName → Allocation) (path : PlainPath romPath) (rounds : List Round)
    (fresh
      : Reaction.CalmAlong (pollRound Dummy.host .absent) Round.Fresh
          (.listening serverSocket clients (Dummy.start romPath memory)) rounds)
    {server : Server Dummy}
    (goes
      : (genericPollServerStart Dummy.host .absent serverSocket clients
          (Dummy.start romPath memory) rounds).result
        = .ok server)
    (defined : server.emulator.undefined = false) {index : Fin 5}
    (taken : server.clients[index].socketFd ≠ 0) {requests : List Request}
    (sendable : ∀ request ∈ requests, request.Sendable)
    (text : ∀ request ∈ requests, request.isText) {next : Request} (nextSendable : next.Sendable)
    {part : Bytes} (begun : part <+: next.line) (unfinished : part ≠ next.line)
    (sent
      : bytesFrom server.clients[index].socketFd rounds
        = requests.flatMap Request.encode ++ part)
    : let start := Dummy.start romPath memory
      let run := genericPollServerStart Dummy.host .absent serverSocket clients start rounds
      let fd := server.clients[index].socketFd
      ∃ handled : List (List Event × Bytes),
        List.Forall₂
          (fun request turn =>
            request.HandledAt fd start run.emitted turn.1 turn.2
            ∧ ReadAs turn.2 (request.reading (Dummy.host.replay start turn.1)))
          requests handled
        ∧ (handled.map Prod.fst).Pairwise (fun one later => one <+: later ∧ one ≠ later)
        ∧ connectionText fd start run.emitted = handled.flatMap Prod.snd := by
  intro start run fd
  obtain ⟨handled, replied, ordered, texts⟩ :=
    handled_run fresh goes path.oneLine defined taken sendable text nextSendable begun unfinished
      sent
  refine ⟨handled, ?_, ordered, texts⟩
  have both := (List.forall₂_and_left _ _).mpr ⟨text, replied⟩
  refine both.imp (fun request turn reply => ⟨reply.2, ?_⟩)
  have still : PlainPath (Dummy.host.replay start turn.1).romPath :=
    (Dummy.replay_keeps start turn.1).romPath.symm ▸ path
  obtain ⟨own, sends, reads⟩ := request.tells reply.1 fd still reply.2.defined
  rw [reply.2.sent.unique sends]
  exact reads

/-- Witness: the client of the second connection reads the bytes that it asked for and the state. -/
theorem requests_read_inTurn
    : let run :=
        genericPollServerStart Dummy.host .absent 3 (Vector.replicate 5 Client.zero) smallDummy
          askingInTurn
      ∃ handled : List (List Event × Bytes),
        List.Forall₂
          (fun request turn =>
            request.HandledAt 5 smallDummy run.emitted turn.1 turn.2
            ∧ ReadAs turn.2 (request.reading (Dummy.host.replay smallDummy turn.1)))
          askedInTurn handled
        ∧ (handled.map Prod.fst).Pairwise (fun one later => one <+: later ∧ one ≠ later)
        ∧ connectionText 5 smallDummy run.emitted = handled.flatMap Prod.snd := by
  intro run
  obtain ⟨server, goes, second, defined⟩ := askingInTurn_serves
  have taken : server.clients[(1 : Fin 5)].socketFd ≠ 0 := by
    rw [second]
    decide
  have bytes : bytesFrom 5 askingInTurn = askedInTurn.flatMap Request.encode ++ [] := by
    decide +kernel
  have reads := @requests_read 3 (Vector.replicate 5 Client.zero) (ascii "game.sfc")
    (fun _ => ⟨List.replicate 8 0, by decide⟩) ⟨by decide, by decide, by decide⟩ askingInTurn
    (by decide +kernel) server goes defined 1 taken askedInTurn askedInTurn_sendable (by decide) _
    (askedInTurn_sendable _ List.mem_cons_self) [] List.nil_prefix (by decide)
  simp only [second] at reads
  exact reads bytes

end NetworkAccess
