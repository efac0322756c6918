import NetworkAccess.Parser.Runs

/-! What one read of a connection leaves alone: it acts for its own descriptor only, calls
neither `add_client` nor `remove_client`, and knows nothing of the client table.
-/

namespace NetworkAccess

variable {Emulator : Type}

/-- The calls of `add_client` and `remove_client`. -/
def Event.isCallback : Event → Bool
  | .clientAdded _ | .clientRemoved _ => true
  | _ => false

/-- An event of the work for one connection. -/
def Event.Serves (socket : SOCKET) (event : Event) : Prop :=
  event.socket = socket ∧ event.isCallback = false

/-- The events of requests; the others come with a connection or go with it. -/
def Event.ofRequests : Event → Bool
  | .accepted _ | .closed _ | .clientAdded _ | .clientRemoved _ => false
  | _ => true

/-- An event of the requests of one connection. -/
def Event.Works (socket : SOCKET) (event : Event) : Prop :=
  event.socket = socket ∧ event.ofRequests = true

/-- The requests of a connection call no callback. -/
theorem Event.Works.serves {socket : SOCKET} {event : Event} (works : event.Works socket)
    : event.Serves socket := by
  refine ⟨works.1, ?_⟩
  have ofRequests := works.2
  cases event with
  | clientAdded | clientRemoved => cases ofRequests
  | _ => rfl

/-- A fault that the work for one connection can run into. -/
def Fault.OfConnection (fault : Fault) : Prop := fault ≠ .nullClient ∧ fault ≠ .pollOverflow

/-- Before the bytes of a block are copied, all events are of this connection's requests. -/
theorem Config.Filling.works {config : Config Emulator} {client : Client} {data : Bytes}
    {events : List Event} (filling : config.Filling client data events)
    (wellFormed : config.client.WellFormed) (more : config.unread ≠ [])
    : ∀ event ∈ events, event.Works config.client.socketFd := by
  cases filling with
  | resumed => nofun
  | opened atHeader =>
      have socket := (atHeader.facts wellFormed more).socketFd
      rw [List.forall_mem_singleton]
      exact ⟨socket, rfl⟩

/-- An iteration acts for its own connection, by the cases of an iteration. -/
theorem iteration_works (host : Host Emulator) {config : Config Emulator}
    (wellFormed : config.client.WellFormed) (more : config.unread ≠ [])
    : ∀ event ∈ (iteration host config).emitted, event.Works config.client.socketFd := by
  have cases := iteration_cases host wellFormed more
  generalize iteration host config = turn at cases
  cases cases with
  | refuseCommand | refuseBlock =>
      exact List.forall_mem_singleton.mpr ⟨rfl, rfl⟩
  | refuseSize atHeader =>
      have socket := (atHeader.facts wellFormed more).socketFd
      exact List.forall_mem_cons.mpr ⟨⟨socket, rfl⟩, List.forall_mem_singleton.mpr ⟨socket, rfl⟩⟩
  | openLine | longLine | faultyLine | openHeader => nofun
  | @servedLine line rest data cmd args served atLine split open_ fits stored tokens serves =>
      subst serves
      refine List.forall_mem_cons.mpr ⟨⟨rfl, rfl⟩, ?_⟩
      cases resolve host cmd <;> exact List.forall_mem_singleton.mpr ⟨rfl, rfl⟩
  | noData filling | partBlock filling | stuckBlock filling | overflow filling =>
      exact filling.works wellFormed more
  | swallowBlock filling =>
      have socket := (filling.facts wellFormed more).socketFd
      exact List.forall_mem_append.mpr
        ⟨filling.works wellFormed more, List.forall_mem_singleton.mpr ⟨socket, rfl⟩⟩
  | writeBlock filling =>
      have socket := (filling.facts wellFormed more).socketFd
      exact List.forall_mem_append.mpr
        ⟨
          filling.works wellFormed more,
          List.forall_mem_cons.mpr ⟨⟨socket, rfl⟩, List.forall_mem_singleton.mpr ⟨socket, rfl⟩⟩
        ⟩

/-- How an iteration can stop, by the same cases. -/
theorem iteration_stops (host : Host Emulator) {config final : Config Emulator}
    {ending : Ending} (wellFormed : config.client.WellFormed) (more : config.unread ≠ [])
    (stops : (iteration host config).result = .error ⟨ending, final⟩)
    : ending = .rejected ∧ final.client.socketFd = config.client.socketFd
      ∨ ∃ fault, ending = .undefined fault ∧ fault.OfConnection := by
  have cases := iteration_cases host wellFormed more
  generalize iteration host config = turn at cases stops
  cases cases with
  | refuseCommand | refuseBlock =>
      cases stops
      exact Or.inl ⟨rfl, rfl⟩
  | refuseSize atHeader =>
      cases stops
      exact Or.inl ⟨rfl, (atHeader.facts wellFormed more).socketFd⟩
  | longLine | overflow =>
      cases stops
      exact Or.inr ⟨_, rfl, nofun, nofun⟩
  | faultyLine atLine split open_ fits tokens =>
      cases stops
      refine Or.inr ⟨_, rfl, ?_⟩
      rcases tokenize_fault tokens with rfl | rfl | rfl <;> exact ⟨nofun, nofun⟩
  | openLine | servedLine | openHeader | noData | partBlock | swallowBlock | writeBlock
    | stuckBlock => cases stops

/-- A read acts for its own connection. -/
theorem feedRead_works (host : Host Emulator) {state : Client × Emulator}
    (wellFormed : state.1.WellFormed) (read : ClientRead)
    : ∀ event ∈ (feedRead host state read).emitted, event.Works state.1.socketFd := by
  have formed := Config.wellFormed_enter wellFormed state.2 read
  rw [feedRead_emitted]
  refine Reaction.runWhile_forall_outputs (fun before visits more => ?_)
  have kept := Config.Reaches.kept visits formed
  have works := iteration_works host kept.1 more
  rw [kept.2.1] at works
  exact works

/-- A read that is refused keeps the descriptor in the slot, and no other end is due to the
client table.
-/
theorem feedRead_stops (host : Host Emulator) {state : Client × Emulator} {read : ClientRead}
    {ending : Ending} {final : Config Emulator} (wellFormed : state.1.WellFormed)
    (stops : (feedRead host state read).result = .error ⟨ending, final⟩)
    : ending = .rejected ∧ final.client.socketFd = state.1.socketFd
      ∨ (∃ fault, ending = .undefined fault ∧ fault.OfConnection)
      ∨ ending = .spinning := by
  have formed := Config.wellFormed_enter wellFormed state.2 read
  obtain ⟨later, reaches, more, halts | ⟨-, same⟩⟩ := preprocessData_error formed
    (feedRead_error.mp stops)
  · have kept := reaches.kept formed
    rcases iteration_stops host kept.1 more halts with ⟨rejected, socket⟩ | faulty
    · exact Or.inl ⟨rejected, socket.trans kept.2.1⟩
    · exact Or.inr (Or.inl faulty)
  · cases same
    exact Or.inr (Or.inr rfl)

end NetworkAccess
