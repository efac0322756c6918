import NetworkAccess.Correctness.RoundTrip
import NetworkAccess.Correctness.SessionIsolation

/-! Requests reach a server that serves other connections at the same time as if there were none. A
connection that sends requests has each of them served once, in their order and as it was meant,
and all of them that have arrived are served.
-/

namespace NetworkAccess

variable {Emulator : Type}

-----------------------------------------------------------------------------------------
-- Part of a line
-----------------------------------------------------------------------------------------

/-- A part of a line that lacks its end is stored and nothing else. -/
theorem Parser.readBytes_openLine (host : Host Emulator) (parser : Parser) (emulator : Emulator)
    (idle : parser.phase = .idle) {line part : Bytes} (command : CommandLine line)
    (fits : line.length ≤ 2048) (front : part <+: line) (proper : part ≠ line)
    : ∃ phase,
        readBytes host (parser, emulator) part = .emit [] ({ parser with phase }, emulator) := by
  obtain ⟨letter, body, rfl, starts, open_⟩ := command.split
  rcases List.prefix_concat_iff.mp front with whole | inside
  · exact absurd whole proper
  cases part with
  | nil => exact ⟨parser.phase, rfl⟩
  | cons first rest =>
      obtain ⟨tail, split⟩ := inside
      cases split
      have fewer : (letter :: rest).length ≤ 2048 := by
        have length := front.length_le
        omega
      have within : newline ∉ letter :: rest := fun member =>
        open_ (List.mem_append_left tail member)
      refine ⟨.line (letter :: rest), ?_⟩
      rw [readBytes_idle host parser emulator idle letter rest starts,
        readLine_open host parser emulator [] _ within (by simpa using fewer), List.nil_append]

-----------------------------------------------------------------------------------------
-- Results that are used up
-----------------------------------------------------------------------------------------

/-- A list of results that is used up stays so. -/
theorem Resolution.serve_exhausted (host : Host Emulator) (socket : SOCKET) (args : List Bytes)
    (cmd : Bytes)
    : ((resolve host.scripted cmd).serve host.scripted socket args []).emulator = [] := by
  rw [resolve_scripted]
  cases resolve host cmd <;> rfl

/-- A script that has no results left stays without results. -/
def exhaustedInvariant (host : Host Emulator) (socket : SOCKET)
    : ReaderInvariant host.scripted socket where
  kept := fun _ script => script = []
  serve := by
    rintro trace _ cmd args rfl
    exact Resolution.serve_exhausted host socket args cmd
  refuse := fun _ kept => kept
  allocate := fun _ kept => kept
  release := fun kept => kept
  write := fun _ kept => kept

/-- A read that begins with no results in the script leaves none. -/
theorem Parser.readBytes_exhausted {host : Host Emulator} {parser next : Parser} {bytes : Bytes}
    {events : List Event} {script : List Int}
    (reads : readBytes host.scripted (parser, []) bytes = .emit events (next, script))
    : script = [] := by
  have kept :=
    @ReaderInvariant.readBytes _ host.scripted parser.socket
      (exhaustedInvariant host parser.socket) [] parser [] rfl rfl bytes
  rw [reads] at kept
  exact kept.1

section Answers

variable {host : Host Emulator} {entry : GenericEntry Emulator}
  (builtin : resolve host bCoreWriteName = .generic .bCoreWrite entry)
include builtin

/-- Over a script, the name of the binary write still resolves to its entry. -/
theorem resolve_builtin_scripted
    : resolve host.scripted bCoreWriteName = .generic .bCoreWrite entry.scripted := by
  rw [resolve_scripted, builtin]
  rfl

/-- A result of 0 suits every block. -/
theorem answeredAll_exhausted (socket : SOCKET) (requests : List Request)
    : AnsweredAll host.scripted socket [] requests := by
  induction requests with
  | nil => trivial
  | cons request rest ih =>
      have spent : (request.perform host.scripted socket []).2 = [] := by
        have served := Resolution.serve_exhausted host socket request.args request.name
        cases request with
        | text name args => exact served
        | write args data =>
            simp only [Request.perform]
            split <;> exact served
      refine ⟨?_, ?later⟩
      case later =>
        rw [spent]
        exact ih
      cases request with
      | text => trivial
      | write args data =>
          refine Or.inl ?_
          rw [Request.served, show (Request.write args data).name = bCoreWriteName from rfl,
            resolve_builtin_scripted builtin]
          rfl

section Reads

variable {parser reader : Parser} (idle : parser.phase = .idle) {request : Request}
  (sendable : request.Sendable) {script : List Int} {received : Bytes} {own : List Event}
  (reads : Parser.readBytes host.scripted (parser, script) received = .emit own (reader, []))
include idle sendable reads

/-- The result for a block is one that the handler returned, or there is none. -/
theorem Request.answered_of_reads (returned : ∀ event ∈ own, host.Returned event)
    (suits : ∀ emulator, request.Answered host parser.socket emulator) {more : Bytes}
    (sent : received <+: request.line ++ more)
    : request.Answered host.scripted parser.socket script := by
  cases request with
  | text => trivial
  | write args data =>
      have served : (Request.write args data).served host.scripted parser.socket script
          = ⟨
              script.headD 0,
              script.tail,
              [.handled parser.socket (.generic .bCoreWrite) args (script.headD 0)]
            ⟩ := by
        rw [Request.served, show (Request.write args data).name = bCoreWriteName from rfl,
          resolve_builtin_scripted builtin]
        rfl
      cases script with
      | nil => exact Or.inl (congrArg Served.size served)
      | cons result rest =>
          by_cases whole : (Request.write args data).line <+: received
          · obtain ⟨tail, rfl⟩ := whole
            rw [Parser.readBytes_append, Parser.readBytes_requestLine host.scripted parser
              (result :: rest) idle sendable, served] at reads
            obtain ⟨_, _, _, left, -, rfl⟩ := Reaction.andThen_eq_emit.mp reads
            cases left
            obtain ⟨function, emulator, handler, same⟩ :=
              returned _ (List.mem_append_left _ (List.mem_cons_of_mem _ List.mem_cons_self))
            cases (resolve_generic_handler builtin).symm.trans handler
            have real : ((Request.write args data).served host parser.socket emulator).size
                = result := by
              rw [Request.served, show (Request.write args data).name = bCoreWriteName from rfl,
                builtin]
              exact same
            have size := suits emulator
            rw [Request.Answered, real] at size
            rw [Request.Answered, served]
            exact size
          · have part :=
              (List.prefix_or_prefix_of_prefix sent (List.prefix_append _ _)).resolve_right whole
            obtain ⟨phase, silent⟩ := Parser.readBytes_openLine host.scripted parser
              (result :: rest) idle sendable.commandLine sendable.2.2.1 part
              (fun same => whole (same ▸ List.prefix_rfl))
            rw [reads] at silent
            cases silent

end Reads

/-- The results that the events of requests record suit their blocks, by induction on the requests,
if what the handlers return does.
-/
theorem answeredAll_of_reads {parser : Parser} (idle : parser.phase = .idle)
    {requests : List Request} (sendable : ∀ request ∈ requests, request.Sendable)
    (suits
      : ∀ request ∈ requests, ∀ emulator, request.Answered host parser.socket emulator)
    {received : Bytes} (sent : received <+: requests.flatMap Request.encode) {script : List Int}
    {own : List Event} {reader : Parser}
    (reads : Parser.readBytes host.scripted (parser, script) received = .emit own (reader, []))
    (returned : ∀ event ∈ own, host.Returned event)
    : AnsweredAll host.scripted parser.socket script requests := by
  induction requests generalizing parser received script own with
  | nil => trivial
  | cons request rest ih =>
      obtain ⟨first, later⟩ := List.forall_mem_cons.mp sendable
      obtain ⟨here, behind⟩ := List.forall_mem_cons.mp suits
      rw [List.flatMap_cons] at sent
      have answered : request.Answered host.scripted parser.socket script := by
        obtain ⟨more, encode⟩ : ∃ more, request.encode = request.line ++ more := by
          cases request with
          | text => exact ⟨[], (List.append_nil _).symm⟩
          | write args data => exact ⟨_, rfl⟩
        rw [encode, List.append_assoc] at sent
        exact request.answered_of_reads builtin idle first reads returned here sent
      obtain ⟨writes, whole⟩ := Parser.readBytes_requests (resolve_builtin_scripted builtin) parser
        script idle (List.forall_mem_singleton.mpr first) ⟨answered, trivial⟩
      rw [List.flatMap_singleton] at whole
      refine ⟨answered, ?_⟩
      rcases List.prefix_or_prefix_of_prefix sent (List.prefix_append request.encode _) with
        ⟨tail, part⟩ | ⟨tail, rfl⟩
      · -- the results are used up in this request
        rw [← part, Parser.readBytes_append, reads] at whole
        obtain ⟨_, ⟨_, _⟩, _, left, right, -⟩ := Reaction.andThen_eq_emit.mp whole
        cases left
        have spent := Parser.readBytes_exhausted right
        change (request.perform host.scripted parser.socket script).2 = [] at spent
        rw [spent]
        exact answeredAll_exhausted builtin _ rest
      · rw [Parser.readBytes_append, whole] at reads
        obtain ⟨_, _, after, left, right, rfl⟩ := Reaction.andThen_eq_emit.mp reads
        cases left
        have idleAgain : ({ parser with writes } : Parser).phase = .idle := idle
        exact ih idleAgain later behind ((List.prefix_append_right_inj _).mp sent) right
          (fun event member => returned event (List.mem_append_right _ member))

/-- The events of a reader that was sent a part of some requests. -/
theorem Parser.Alone.delivers {fd : SOCKET} {writes : Bool} {received : Bytes}
    {own : List Event} {reader : Parser}
    (alone : reader.Alone host fd writes received own) {requests : List Request}
    (sendable : ∀ request ∈ requests, request.Sendable)
    (suits : ∀ request ∈ requests, ∀ emulator, request.Answered host fd emulator)
    (sent : received <+: requests.flatMap Request.encode)
    : let served (requests : List Request) :=
        (performAll host.scripted fd (answers own) requests).1
      own <+: served requests
      ∧ ∀ done,
          done <+: requests → done.flatMap Request.encode <+: received → served done <+: own := by
  intro served
  have reads := alone.reads []
  rw [List.append_nil] at reads
  let first := Parser.fresh fd writes
  have idle : first.phase = .idle := rfl
  have answered : AnsweredAll host.scripted first.socket (answers own) requests :=
    answeredAll_of_reads builtin idle sendable suits sent reads alone.returned
  have whole {requests : List Request} (sendable : ∀ request ∈ requests, request.Sendable)
      (answered : AnsweredAll host.scripted first.socket (answers own) requests) :=
    Parser.readBytes_requests (resolve_builtin_scripted builtin) first (answers own) idle sendable
      answered
  constructor
  · obtain ⟨last, all⟩ := whole sendable answered
    obtain ⟨tail, split⟩ := sent
    rw [← split, Parser.readBytes_append, reads] at all
    obtain ⟨_, _, late, left, -, both⟩ := Reaction.andThen_eq_emit.mp all
    cases left
    exact ⟨late, both⟩
  · rintro done ⟨rest, rfl⟩ ⟨tail, rfl⟩
    obtain ⟨last, part⟩ := whole
      (fun request member => sendable request (List.mem_append_left _ member)) answered.append.1
    rw [Parser.readBytes_append, part] at reads
    obtain ⟨_, _, late, left, -, both⟩ := Reaction.andThen_eq_emit.mp reads
    cases left
    exact ⟨late, both⟩

end Answers

/-- In every run in which `accept` returns descriptors that are not in use, the requests that an
open connection sends are served in their order, each once and as it was meant, and none of those
that have arrived is left over, whatever other connections send and however it is cut into reads.
-/
theorem requests_delivered (host : Host Emulator) {entry : GenericEntry Emulator}
    (builtin : resolve host bCoreWriteName = .generic .bCoreWrite entry)
    (callbacks : Callbacks Emulator) (serverSocket : SOCKET) (clients : Clients)
    (emulator : Emulator) (rounds : List Round)
    (fresh
      : Reaction.CalmAlong (pollRound host callbacks) Round.Fresh
          (.listening serverSocket clients emulator) rounds)
    {server : Server Emulator}
    (goes
      : (genericPollServerStart host callbacks serverSocket clients emulator rounds).result
        = .ok server)
    {index : Fin 5} (taken : server.clients[index].socketFd ≠ 0) {requests : List Request}
    (sendable : ∀ request ∈ requests, request.Sendable)
    (suits
      : ∀ request ∈ requests, ∀ emulator,
          request.Answered host server.clients[index].socketFd emulator)
    (sent
      : bytesFrom server.clients[index].socketFd rounds <+: requests.flatMap Request.encode)
    : let run := genericPollServerStart host callbacks serverSocket clients emulator rounds
      let fd := server.clients[index].socketFd
      let own := requestEvents fd run.emitted
      let served (requests : List Request) :=
        (performAll host.scripted fd (answers own) requests).1
      own <+: served requests
      ∧ ∀ done,
          done <+: requests
          → done.flatMap Request.encode <+: bytesFrom fd rounds
          → served done <+: own := by
  have refines := pollRounds_hub host callbacks
    (Server.sound_listening serverSocket clients emulator)
    (Hub.start_describes serverSocket clients emulator) fresh
  exact (refines.alone goes taken).delivers builtin sendable suits sent

/-- Witness: a command and a write of the first connection, the second of which arrives in two
parts.
-/
theorem requests_delivered_rounds
    : let requests : List Request :=
        [.text (ascii "EMULATION_PAUSE") [], .write [ascii "RAM"] [7, 8]]
      let own := requestEvents 4 (sessionRun sessionRounds).emitted
      (performAll (Host.fixed [(.bCoreWrite, 2)]).scripted 4 (answers own) requests).1 <+: own
      ∧ .blockWritten 4 [7, 8] ∈ own := by
  intro requests own
  obtain ⟨server, goes, first⟩ :=
    sessionRun_first
      (by decide +kernel
        : (sessionRun sessionRounds).result.toOption.map
            (fun server => server.clients[(0 : Fin 5)].socketFd)
          = some 4)
  have taken : server.clients[(0 : Fin 5)].socketFd ≠ 0 := by
    rw [first]
    decide
  have sendable : ∀ request ∈ requests, request.Sendable := by
    refine List.forall_mem_cons.mpr ⟨?_, List.forall_mem_singleton.mpr ?_⟩
    · exact ⟨⟨⟨_, _, rfl, by decide⟩, by decide⟩, ⟨by decide, by decide, nofun⟩,
        by decide, by decide⟩
    · exact ⟨⟨⟨_, _, rfl, by decide⟩, by decide⟩, ⟨by decide, by decide, by decide⟩,
        by decide, by decide⟩
  have suits
      : ∀ request ∈ requests, ∀ emulator,
          request.Answered (Host.fixed [(.bCoreWrite, 2)]) server.clients[(0 : Fin 5)].socketFd
            emulator :=
    List.forall_mem_cons.mpr
      ⟨fun _ => trivial, List.forall_mem_singleton.mpr fun _ => Or.inr (Or.inl rfl)⟩
  have bytes : requests.flatMap Request.encode = bytesFrom 4 sessionRounds := by decide +kernel
  have sent
      : bytesFrom server.clients[(0 : Fin 5)].socketFd sessionRounds
        <+: requests.flatMap Request.encode := by
    simp only [first, bytes, List.prefix_rfl]
  have delivered := requests_delivered (Host.fixed [(.bCoreWrite, 2)]) rfl ⟨none, none, none⟩ 3
    (Vector.replicate 5 Client.zero) () sessionRounds (by decide +kernel) goes taken sendable suits
    sent
  simp only [first] at delivered
  exact ⟨delivered.2 requests List.prefix_rfl (bytes ▸ List.prefix_rfl), by decide +kernel⟩

end NetworkAccess
