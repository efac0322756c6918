import NetworkAccess.Connections.Sessions
import NetworkAccess.Correctness.HubRefinement

/-! Each connection of a server is served by itself. Its reader has read what `read` returned for it
in all the rounds since it was accepted, and the events of its requests are those of a reader that
knows only these bytes, the flag that its slot had when it was accepted and what its own handlers
returned.
-/

namespace NetworkAccess

variable {Emulator : Type}

/-- Whether the round accepts the descriptor. -/
def Round.accepts (fd : SOCKET) (round : Round) : Bool :=
  match round.polled with
  | .ready true _ => round.accepted = some fd
  | _ => false

/-- What `read` returns for a descriptor that is readable. -/
def Round.bytesOf (fd : SOCKET) (round : Round) : Bytes :=
  match round.polled with
  | .failed _ => []
  | .ready _ revents =>
      if (revents fd).pollIn then
        (round.read fd).elim [] ClientRead.bytes
      else
        []

/-- What `read` returned for a descriptor since it was accepted. -/
def bytesFrom (fd : SOCKET) (rounds : List Round) : Bytes :=
  rounds.foldl (fun bytes round => if round.accepts fd then [] else bytes ++ round.bytesOf fd) []

/-- One more round adds what the connection sends in it, or begins anew if it accepts the
connection.
-/
theorem bytesFrom_concat (fd : SOCKET) (rounds : List Round) (round : Round)
    : bytesFrom fd (rounds ++ [round])
      = if round.accepts fd then [] else bytesFrom fd rounds ++ round.bytesOf fd := by
  rw [bytesFrom, List.foldl_append]
  rfl

/-- What a descriptor inherited when it was last accepted. -/
def inheritedFrom (fd : SOCKET) (rounds : List (Round × Bool)) : Bool :=
  rounds.foldl
    (fun inherited round => if round.1.accepts fd then round.2 else inherited) false

/-- One more round changes the inherited write flag only if it accepts the connection. -/
theorem inheritedFrom_concat (fd : SOCKET) (rounds : List (Round × Bool)) (round : Round)
    (writes : Bool)
    : inheritedFrom fd (rounds ++ [(round, writes)])
      = if round.accepts fd then writes else inheritedFrom fd rounds := by
  rw [inheritedFrom, List.foldl_append]
  rfl

-----------------------------------------------------------------------------------------
-- The actions of one round
-----------------------------------------------------------------------------------------

/-- The actions about a connection. -/
def actionsOf (fd : SOCKET) (actions : List Action) : List Action :=
  actions.filter (fun action => action.socket = some fd)

/-- A fold that passes over all other actions needs these only. -/
theorem foldl_actionsOf {State : Type} {fd : SOCKET} {step : State → Action → State}
    (passes : ∀ state action, action.socket ≠ some fd → step state action = state) (state : State)
    (actions : List Action)
    : actions.foldl step state = (actionsOf fd actions).foldl step state := by
  rw [actionsOf, List.foldl_filter]
  refine congrArg (fun step => actions.foldl step state) (funext₂ (fun state action => ?_))
  split
  case isTrue => rfl
  case isFalse other => exact passes state action (fun about => other (decide_eq_true about))

/-- Only the actions about a connection say what it received. -/
theorem received_actionsOf (fd : SOCKET) (log actions : List Action)
    : received fd (log ++ actions) = received fd (log ++ actionsOf fd actions) := by
  rw [received, received, List.foldl_append, List.foldl_append, foldl_actionsOf]
  intro bytes action other
  cases action with
  | polled | leaves => rfl
  | connects socket | receives socket => exact if_neg (fun same => other (congrArg some same))

/-- Only the actions about a connection say what it inherited. -/
theorem inheritedBy_actionsOf (fd : SOCKET) (log actions : List Action)
    : inheritedBy fd (log ++ actions) = inheritedBy fd (log ++ actionsOf fd actions) := by
  rw [inheritedBy, inheritedBy, List.foldl_append, List.foldl_append, foldl_actionsOf]
  intro inherited action other
  cases action with
  | polled | receives | leaves => rfl
  | connects socket writes => exact if_neg (fun same => other (congrArg some same))

/-- What is due for a connection is about it. -/
theorem dueAction_socket {revents : Revents} {answer : Option ClientRead} {fd : SOCKET}
    {action : Action} (due : dueAction revents answer fd = some action)
    : action.socket = some fd := by
  simp only [dueAction] at due
  split at due
  case isTrue =>
    cases due
    rfl
  case isFalse =>
    split at due
    case isTrue => cases answer <;> (cases due; rfl)
    case isFalse => cases due

/-- Nothing that is due accepts a connection. -/
theorem dueAction_connects {revents : Revents} {answer : Option ClientRead} {fd socket : SOCKET}
    {writes : Bool}
    : dueAction revents answer fd ≠ some (.connects socket writes) := by
  intro due
  simp only [dueAction] at due
  split at due
  case isTrue => cases due
  case isFalse =>
    split at due
    case isTrue => cases answer <;> cases due
    case isFalse => cases due

/-- The actions about a connection among those that are due, by induction on the connections. -/
theorem actionsOf_due {due : SOCKET → Option Action}
    (about : ∀ fd action, due fd = some action → action.socket = some fd) {fds : List SOCKET}
    (once : fds.Nodup) (fd : SOCKET)
    : actionsOf fd (fds.filterMap due) = if fd ∈ fds then (due fd).toList else [] := by
  induction fds with
  | nil => rfl
  | cons socket rest ih =>
      obtain ⟨first, later⟩ := List.nodup_cons.mp once
      have split : actionsOf fd ((socket :: rest).filterMap due)
          = actionsOf fd (due socket).toList ++ actionsOf fd (rest.filterMap due) := by
        rw [actionsOf, actionsOf, actionsOf, ← List.filter_append, List.filterMap_cons]
        cases due socket <;> rfl
      rw [split, ih later]
      by_cases here : socket = fd
      · subst here
        rw [if_neg first, if_pos List.mem_cons_self, List.append_nil]
        refine List.filter_eq_self.mpr (fun action member => ?_)
        exact decide_eq_true (about socket action (Option.mem_toList.mp member))
      · have none : actionsOf fd (due socket).toList = [] := by
          refine List.filter_eq_nil_iff.mpr (fun action member => ?_)
          rw [about socket action (Option.mem_toList.mp member), decide_eq_true_iff]
          exact fun same => here (Option.some.inj same)
        rw [none, List.nil_append]
        refine if_congr ?_ rfl rfl
        rw [List.mem_cons, or_iff_right (fun same => here same.symm)]

/-- What a connection receives by what is due for it, unless it leaves. -/
theorem received_due (revents : Revents) (answer : Option ClientRead) (fd : SOCKET)
    (log : List Action)
    : dueAction revents answer fd = some (.leaves fd)
      ∨ received fd (log ++ (dueAction revents answer fd).toList)
        = received fd log
          ++ if revents.pollIn then answer.elim [] ClientRead.bytes else [] := by
  simp only [dueAction]
  split
  case isTrue => exact Or.inl rfl
  case isFalse =>
    split
    case isTrue =>
      cases answer with
      | none => exact Or.inl rfl
      | some read => exact Or.inr (received_receives read.bytes)
    case isFalse =>
      rw [Option.toList_none, List.append_nil, List.append_nil]
      exact Or.inr rfl

/-- What is due for a connection changes nothing of what it inherited. -/
theorem inheritedBy_due (revents : Revents) (answer : Option ClientRead) (fd : SOCKET)
    (log : List Action)
    : inheritedBy fd (log ++ (dueAction revents answer fd).toList) = inheritedBy fd log := by
  cases due : dueAction revents answer fd with
  | none => rw [Option.toList_none, List.append_nil]
  | some action =>
      refine inheritedBy_other (fun writes same => ?_)
      exact dueAction_connects (due.trans (congrArg some same))

section Runs

variable {host : Host Emulator} {callbacks : Callbacks Emulator} {fd : SOCKET}
  {hub next : Hub Emulator} {events : List Event}

/-- A connection that is not open stays so until `accept` returns it. -/
theorem Hub.step_absent {action : Action}
    (steps : hub.step host callbacks action = .emit events next) (absent : fd ∉ hub.readers)
    (none : ∀ writes, action ≠ .connects fd writes)
    : fd ∉ next.readers := by
  rw [← Finmap.lookup_eq_none] at absent ⊢
  by_cases other : action.socket ≠ some fd
  · exact (hub.step_lookup steps other).trans absent
  have concerns := not_not.mp other
  cases action with
  | polled => cases concerns
  | connects socket writes =>
      cases concerns
      exact absurd rfl (none writes)
  | receives socket bytes =>
      cases concerns
      simp only [Hub.step, absent] at steps
      cases steps
      exact absent
  | leaves socket =>
      cases concerns
      simp only [Hub.step, absent] at steps
      cases steps
      exact absent

/-- A connection that is not open stays so over any actions that do not connect it, by induction on
them.
-/
theorem Hub.run_absent {actions : List Action}
    (runs : hub.run host callbacks actions = .emit events next) (absent : fd ∉ hub.readers)
    (none : ∀ writes, .connects fd writes ∉ actions)
    : fd ∉ next.readers := by
  induction actions generalizing hub events with
  | nil =>
      cases runs
      exact absent
  | cons action rest ih =>
      obtain ⟨early, middle, late, first, later, -⟩ := Reaction.andThen_eq_emit.mp runs
      refine ih later (Hub.step_absent first absent (fun writes same => ?_))
        (fun writes member => none writes (List.mem_cons_of_mem _ member))
      exact none writes (same ▸ List.mem_cons_self)

/-- A connection that leaves is not open. -/
theorem Hub.leaves_absent (steps : hub.step host callbacks (.leaves fd) = .emit events next)
    : fd ∉ next.readers := by
  rw [← Finmap.lookup_eq_none]
  rw [Hub.step] at steps
  split at steps
  case h_1 none =>
    cases steps
    exact none
  case h_2 =>
    cases steps
    exact Finmap.lookup_erase _ _

/-- The actions of a round about a connection: it is accepted, or what is due for it. -/
theorem Round.Schedules.actionsOf {round : Round} {writes : Bool} {actions : List Action}
    (schedules : round.Schedules writes hub actions) (fd : SOCKET)
    : (round.accepts fd ∧ actionsOf fd actions = [.connects fd writes])
      ∨ (round.accepts fd = false ∧ fd ∉ hub.readers ∧ NetworkAccess.actionsOf fd actions = [])
      ∨ ∃ newClient revents,
          round.accepts fd = false
          ∧ fd ∈ hub.readers
          ∧ round.polled = .ready newClient revents
          ∧ NetworkAccess.actionsOf fd actions
            = (dueAction (revents fd) (round.read fd) fd).toList := by
  cases schedules with
  | @served newClient revents goesOn polled fresh fds once each =>
      let due (fd : SOCKET) := dueAction (revents fd) (round.read fd) fd
      have served := actionsOf_due (fun fd action => (dueAction_socket : due fd = some action → _))
        once fd
      have parts (connects : List Action)
          : NetworkAccess.actionsOf fd (.polled :: (connects ++ fds.filterMap due))
            = NetworkAccess.actionsOf fd connects
              ++ if fd ∈ fds then (due fd).toList else [] := by
        rw [← served]
        exact List.filter_append _ _
      rw [parts]
      by_cases accepts : round.accepts fd
      · have new : newClient = true ∧ round.accepted = some fd := by
          rw [Round.accepts, polled] at accepts
          cases newClient with
          | false => cases accepts
          | true => exact ⟨rfl, by simpa using accepts⟩
        have unknown : fd ∉ fds := fun member => fresh fd new.2 ((each fd).mp member)
        refine Or.inl ⟨accepts, ?_⟩
        rw [if_neg unknown, List.append_nil, if_pos new.1, new.2]
        exact List.filter_eq_self.mpr (List.forall_mem_singleton.mpr (decide_eq_true rfl))
      · have none : NetworkAccess.actionsOf fd
            ((if newClient then round.accepted.toList else []).map (Action.connects · writes))
            = [] := by
          refine List.filter_eq_nil_iff.mpr (fun action member about => accepts ?_)
          obtain ⟨socket, accepted, rfl⟩ := List.mem_map.mp member
          have same : socket = fd := by simpa [Action.socket] using about
          subst same
          cases newClient with
          | false => cases accepted
          | true =>
              rw [if_pos rfl] at accepted
              rw [Round.accepts, polled]
              exact decide_eq_true (Option.mem_toList.mp accepted)
        rw [none, List.nil_append]
        have not := Bool.eq_false_iff.mpr accepts
        by_cases known : fd ∈ fds
        · rw [if_pos known]
          exact Or.inr (Or.inr ⟨newClient, revents, not, (each fd).mp known, polled, rfl⟩)
        · rw [if_neg known]
          exact Or.inr (Or.inl ⟨not, fun member => known ((each fd).mpr member), rfl⟩)

/-- A connection that is open behind a round was accepted in it, or it was open before and received
what `read` returned for it.
-/
theorem Round.Schedules.received {round : Round} {writes : Bool} {actions : List Action}
    (schedules : round.Schedules writes hub actions)
    (runs : hub.run host callbacks actions = .emit events next) (stays : fd ∈ next.readers)
    (log : List Action)
    : (round.accepts fd
        ∧ inheritedBy fd (log ++ actions) = writes
        ∧ NetworkAccess.received fd (log ++ actions) = [])
      ∨ (round.accepts fd = false
        ∧ fd ∈ hub.readers
        ∧ inheritedBy fd (log ++ actions) = inheritedBy fd log
        ∧ NetworkAccess.received fd (log ++ actions)
          = NetworkAccess.received fd log ++ round.bytesOf fd) := by
  have about {action : Action} (member : action ∈ actions) (concerns : action.socket = some fd)
      : action ∈ NetworkAccess.actionsOf fd actions :=
    List.mem_filter.mpr ⟨member, decide_eq_true concerns⟩
  rw [received_actionsOf, inheritedBy_actionsOf]
  rcases schedules.actionsOf fd with
    ⟨accepts, only⟩ | ⟨not, absent, only⟩ | ⟨newClient, revents, not, open_, polled, only⟩
  · rw [only, received_connects, inheritedBy_connects]
    exact Or.inl ⟨accepts, rfl, rfl⟩
  · rw [only] at about
    refine absurd stays (Hub.run_absent runs absent (fun writes member => ?_))
    cases about member rfl
  · rw [only, Round.bytesOf, polled]
    refine Or.inr ⟨not, open_, inheritedBy_due (revents fd) (round.read fd) fd log, ?_⟩
    refine (received_due (revents fd) (round.read fd) fd log).resolve_left (fun leaves => ?_)
    rw [only, leaves] at about
    -- a connection that leaves is not accepted again in this round
    have left : .leaves fd ∈ actions := by
      have member : Action.leaves fd ∈ NetworkAccess.actionsOf fd actions := by
        rw [only, leaves]
        exact List.mem_cons_self
      exact (List.mem_filter.mp member).1
    obtain ⟨front, back, rfl⟩ := List.append_of_mem left
    rw [Hub.run_append] at runs
    obtain ⟨_, before, _, -, rest, -⟩ := Reaction.andThen_eq_emit.mp runs
    obtain ⟨_, middle, _, gone, later, -⟩ := Reaction.andThen_eq_emit.mp rest
    refine Hub.run_absent later (Hub.leaves_absent gone) (fun writes member => ?_) stays
    have again := about (List.mem_append_right front (List.mem_cons_of_mem _ member)) rfl
    cases List.mem_singleton.mp again

-----------------------------------------------------------------------------------------
-- All rounds
-----------------------------------------------------------------------------------------

/-- Actions without a new connection keep the connections by themselves, by induction on them. -/
theorem Hub.Alone.run {actions log : List Action} {trace : List Event}
    (alone : hub.Alone host log trace)
    (fresh : Reaction.CalmAlong (Hub.step host callbacks) Action.Fresh hub actions)
    (runs : hub.run host callbacks actions = .emit events next)
    : next.Alone host (log ++ actions) (trace ++ events) := by
  induction actions generalizing hub events log trace with
  | nil =>
      cases runs
      rw [List.append_nil, List.append_nil]
      exact alone
  | cons action rest ih =>
      obtain ⟨early, middle, late, first, later, rfl⟩ := Reaction.andThen_eq_emit.mp runs
      rw [List.append_cons, ← List.append_assoc]
      exact ih (alone.step fresh.1 first) (fresh.2 middle (by rw [first]; rfl)) later

/-- A schedule accepts only what is not open. -/
theorem Round.Schedules.fresh {round : Round} {writes : Bool} {actions : List Action}
    (schedules : round.Schedules writes hub actions)
    : Reaction.CalmAlong (Hub.step host callbacks) Action.Fresh hub actions := by
  have calm {actions : List Action} (none : ∀ fd writes, .connects fd writes ∉ actions)
      : ∀ hub : Hub Emulator,
          Reaction.CalmAlong (Hub.step host callbacks) Action.Fresh hub actions := by
    induction actions with
    | nil => exact fun _ => trivial
    | cons action rest ih =>
        refine fun hub => ⟨?_, fun next _ => ?_⟩
        · rintro fd writes rfl
          exact absurd List.mem_cons_self (none fd writes)
        · exact ih (fun fd writes member => none fd writes (List.mem_cons_of_mem _ member)) next
  cases schedules with
  | @served newClient revents goesOn polled fresh fds once each =>
      have served (hub : Hub Emulator)
          : Reaction.CalmAlong (Hub.step host callbacks) Action.Fresh hub
              (fds.filterMap (fun fd => dueAction (revents fd) (round.read fd) fd)) := by
        refine calm (fun fd writes member => ?_) hub
        obtain ⟨socket, -, due⟩ := List.mem_filterMap.mp member
        exact dueAction_connects due
      refine ⟨nofun, fun next goes => ?_⟩
      cases goes
      cases newClient with
      | false => exact served _
      | true =>
          rw [if_pos rfl]
          cases accepted : round.accepted with
          | none => exact served _
          | some fd =>
              refine ⟨?_, fun next _ => served next⟩
              rintro socket writes ⟨⟩
              exact fresh fd accepted

/-- Over any rounds the connections stay so, and each has inherited what its slot had and received
what `read` returned for it.
-/
theorem Hub.Follows.alone {rounds before : List (Round × Bool)} {log old : List Action}
    {trace : List Event}
    (follows : hub.Follows host callbacks rounds log events next)
    (alone : hub.Alone host old trace)
    (heard
      : ∀ fd ∈ hub.readers,
          inheritedBy fd old = inheritedFrom fd before
          ∧ NetworkAccess.received fd old = bytesFrom fd (before.map Prod.fst))
    : next.Alone host (old ++ log) (trace ++ events)
      ∧ ∀ fd ∈ next.readers,
          inheritedBy fd (old ++ log) = inheritedFrom fd (before ++ rounds)
          ∧ NetworkAccess.received fd (old ++ log)
            = bytesFrom fd ((before ++ rounds).map Prod.fst) := by
  induction follows generalizing old trace before with
  | nil =>
      rw [List.append_nil, List.append_nil, List.append_nil]
      exact ⟨alone, heard⟩
  | @round hub next last round writes rounds actions log events more schedules runs later ih =>
      rw [← List.append_assoc, ← List.append_assoc, List.append_cons before]
      refine ih (alone.run schedules.fresh runs) (fun fd stays => ?_)
      rw [List.map_append, List.map_singleton, bytesFrom_concat, inheritedFrom_concat]
      rcases schedules.received runs stays old with
        ⟨accepts, inherits, none⟩ | ⟨not, open_, inherits, bytes⟩
      · rw [inherits, none, if_pos accepts, if_pos accepts]
        exact ⟨rfl, rfl⟩
      · obtain ⟨before, heard⟩ := heard fd open_
        rw [inherits, before, bytes, heard, not, if_neg Bool.false_ne_true,
          if_neg Bool.false_ne_true]
        exact ⟨rfl, rfl⟩

end Runs

/-- The connections that a run leaves open, in terms of the hub that it refines. -/
theorem ServerTurn.Refines.alone {host : Host Emulator} {callbacks : Callbacks Emulator}
    {emulator : Emulator} {start : Server Emulator} {rounds : List Round}
    {run : ServerTurn Emulator (Server Emulator)}
    (refines : run.Refines host callbacks (.start emulator) start rounds)
    {server : Server Emulator} (goes : run.result = .ok server) {index : Fin 5}
    (taken : server.clients[index].socketFd ≠ 0)
    : let fd := server.clients[index].socketFd
      server.clients[index].parser.Alone host fd
        (inheritedFrom fd (inheriting host callbacks start rounds)) (bytesFrom fd rounds)
        (requestEvents fd run.emitted) := by
  intro fd
  rw [ServerTurn.Refines, goes] at refines
  obtain ⟨log, hub, follows, describes⟩ := refines
  have known := describes.readers.lookup taken
  obtain ⟨alone, heard⟩ := @Hub.Follows.alone _ host callbacks _ _ _
    (inheriting host callbacks start rounds) [] log [] [] follows nofun nofun
  obtain ⟨inherits, received⟩ := heard fd (Finmap.mem_of_lookup_eq_some known)
  rw [List.nil_append, List.nil_append] at inherits
  rw [List.nil_append, List.nil_append, inheriting_rounds] at received
  exact inherits ▸ received ▸ alone fd _ known

/-- In every run in which `accept` returns descriptors that are not in use, each open connection is
served by itself: all bytes that `read` returned for it since it was accepted, and no others, were
read by its reader, and the events of its requests are those of this reader on what it inherited
and what its own handlers returned.
-/
theorem genericPollServerStart_alone (host : Host Emulator) (callbacks : Callbacks Emulator)
    (serverSocket : SOCKET) (clients : Clients) (emulator : Emulator) (rounds : List Round)
    (fresh
      : Reaction.CalmAlong (pollRound host callbacks) Round.Fresh
          (.listening serverSocket clients emulator) rounds)
    {server : Server Emulator}
    (goes
      : (genericPollServerStart host callbacks serverSocket clients emulator rounds).result
        = .ok server)
    {index : Fin 5} (taken : server.clients[index].socketFd ≠ 0)
    : let run := genericPollServerStart host callbacks serverSocket clients emulator rounds
      let fd := server.clients[index].socketFd
      let before := Server.listening serverSocket clients emulator
      server.clients[index].parser.Alone host fd
        (inheritedFrom fd (inheriting host callbacks before rounds)) (bytesFrom fd rounds)
        (requestEvents fd run.emitted) := by
  have refines := pollRounds_hub host callbacks
    (Server.sound_listening serverSocket clients emulator)
    (Hub.start_describes serverSocket clients emulator) fresh
  exact refines.alone goes taken

/-- Two connections send their requests at the same time, and neither sends whole lines. -/
def sessionRounds : List Round :=
  let readable (fds : List SOCKET) : SOCKET → Revents := fun fd => ⟨fd ∈ fds, false, false⟩
  [
    ⟨false, .ready true (readable []), some 4, fun _ => none⟩,
    ⟨
      false, .ready true (readable [4]), some 5,
      fun _ => some ⟨ascii "EMULATION_PAUSE\nbCORE", by decide, by decide⟩
    ⟩,
    ⟨
      false, .ready false (readable [4, 5]), none,
      fun fd =>
        if fd = 4 then
          some ⟨ascii "_WRITE RAM\n" ++ [0, 0, 0, 0, 2, 7, 8], by decide, by decide⟩
        else
          some ⟨ascii "CORE_", by decide, by decide⟩
    ⟩
  ]

/-- The first connection hangs up, and the one that gets its slot sends an unknown binary command
and a block.
-/
def reusedRounds : List Round :=
  sessionRounds
    ++ [
      ⟨false, .ready false (fun fd => ⟨false, false, fd = 4⟩), none, fun _ => none⟩,
      ⟨false, .ready true (fun _ => .none), some 6, fun _ => none⟩,
      ⟨
        false, .ready false (fun _ => ⟨true, false, false⟩), none,
        fun fd =>
          if fd = 6 then
            some ⟨ascii "bX\n" ++ [0, 0, 0, 0, 1, 9], by decide, by decide⟩
          else
            some ⟨ascii "INFO\n", by decide, by decide⟩
      ⟩
    ]

/-- A run of a server with five slots and one binary command. -/
abbrev sessionRun (rounds : List Round) : ServerTurn Unit (Server Unit) :=
  genericPollServerStart (Host.fixed [(.bCoreWrite, 2)]) ⟨none, none, none⟩ 3
    (Vector.replicate 5 Client.zero) () rounds

/-- Who has the first slot when a run goes on. -/
theorem sessionRun_first {rounds : List Round} {fd : SOCKET}
    (first
      : (sessionRun rounds).result.toOption.map
          (fun server => server.clients[(0 : Fin 5)].socketFd)
        = some fd)
    : ∃ server : Server Unit,
        (sessionRun rounds).result = .ok server ∧ server.clients[(0 : Fin 5)].socketFd = fd := by
  cases ended : (sessionRun rounds).result with
  | error halted =>
      rw [ended] at first
      cases first
  | ok server =>
      rw [ended] at first
      exact ⟨server, rfl, Option.some.inj first⟩

/-- Witness: the block is written, because the slot served `bCORE_WRITE` to its first connection. -/
theorem genericPollServerStart_alone_rounds
    : ∃ (server : Server Unit) (own : List Event),
        server.clients[(0 : Fin 5)].parser.Alone (Host.fixed [(.bCoreWrite, 2)]) 6 true
          (ascii "bX\n" ++ [0, 0, 0, 0, 1, 9]) own
        ∧ .blockWritten 6 [9] ∈ own := by
  obtain ⟨server, goes, first⟩ :=
    sessionRun_first
      (by decide +kernel
        : (sessionRun reusedRounds).result.toOption.map
            (fun server => server.clients[(0 : Fin 5)].socketFd)
          = some 6)
  have taken : server.clients[(0 : Fin 5)].socketFd ≠ 0 := by
    rw [first]
    decide
  have alone := genericPollServerStart_alone (Host.fixed [(.bCoreWrite, 2)]) ⟨none, none, none⟩ 3
    (Vector.replicate 5 Client.zero) () reusedRounds (by decide +kernel) goes taken
  have bytes : bytesFrom 6 reusedRounds = ascii "bX\n" ++ [0, 0, 0, 0, 1, 9] := by decide +kernel
  have inherits
      : inheritedFrom 6
          (inheriting (Host.fixed [(.bCoreWrite, 2)]) ⟨none, none, none⟩
            (.listening 3 (Vector.replicate 5 Client.zero) ()) reusedRounds)
        = true := by
    decide +kernel
  simp only [first, bytes, inherits] at alone
  exact ⟨server, _, alone, by decide +kernel⟩

end NetworkAccess
