import Mathlib.Data.List.Perm.Basic
import NetworkAccess.Server.PollLoop

/-! The client table as a set of descriptors: what looking up, taking and freeing a slot do
to the descriptors that the table tracks.
-/

namespace NetworkAccess

/-- The slot that is found has the descriptor. -/
theorem firstSlot_some {clients : Clients} {fd : SOCKET} {index : Fin 5}
    (found : firstSlot clients fd = some index)
    : clients[index].socketFd = fd := by
  have here := List.find?_some found
  exact of_decide_eq_true here

/-- None is found exactly if no slot has it. -/
theorem firstSlot_none {clients : Clients} {fd : SOCKET}
    : firstSlot clients fd = none ↔ ∀ index : Fin 5, clients[index].socketFd ≠ fd := by
  rw [firstSlot, List.find?_eq_none]
  constructor
  · exact fun none_ index here => none_ index (List.mem_finRange index) (decide_eq_true here)
  · exact fun none_ index _ here => none_ index (of_decide_eq_true here)

/-- A connection goes into a free slot, if there is one. -/
theorem addToClients_cases (clients : Clients) (fd : SOCKET)
    : addToClients clients fd = none
      ∨ ∃ index : Fin 5,
          clients[index].socketFd = 0
          ∧ addToClients clients fd = some (clients.set index (clients[index].add fd)) := by
  rw [addToClients]
  cases found : firstSlot clients 0 with
  | none => exact Or.inl rfl
  | some index => exact Or.inr ⟨index, firstSlot_some found, rfl⟩

/-- Writing a slot changes this one only. -/
@[simp] theorem Clients.set_here (clients : Clients) (index : Fin 5) (client : Client)
    : (clients.set index client)[index] = client :=
  Vector.getElem_set_self index.isLt

/-- A slot that is written twice holds what was written last. -/
theorem Clients.set_set (clients : Clients) (index : Fin 5) (client other : Client)
    : (clients.set index client).set index other = clients.set index other :=
  Vector.set_set ..

/-- Writing what a slot holds changes nothing. -/
theorem Clients.set_same (clients : Clients) (index : Fin 5)
    : clients.set index clients[index] = clients :=
  Vector.set_getElem_self _

/-- The other slots stay as they are. -/
theorem Clients.set_other (clients : Clients) {index other : Fin 5} (apart : index ≠ other)
    (client : Client)
    : (clients.set index client)[other] = clients[other] :=
  Vector.getElem_set_ne index.isLt other.isLt (fun equal => apart (Fin.ext equal))

/-- What holds of all slots that are taken, also after one was written. -/
theorem Clients.forall_set {clients : Clients} {index : Fin 5} {client : Client}
    {holds : Client → Prop} (here : client.socketFd ≠ 0 → holds client)
    (others
      : ∀ other : Fin 5,
          index ≠ other → clients[other].socketFd ≠ 0 → holds clients[other])
    : ∀ other : Fin 5,
        (clients.set index client)[other].socketFd ≠ 0
        → holds (clients.set index client)[other] := by
  intro other
  by_cases same : index = other
  · subst same
    rw [clients.set_here]
    exact here
  · rw [clients.set_other same]
    exact others other same

/-- The descriptors of the slots that are taken. -/
def Clients.tracked (clients : Clients) : List SOCKET :=
  (clients.toList.map Client.socketFd).filter (· ≠ 0)

/-- A descriptor is tracked exactly if it is not 0 and a slot has it. -/
theorem Clients.mem_tracked {clients : Clients} {fd : SOCKET}
    : fd ∈ clients.tracked ↔ fd ≠ 0 ∧ ∃ index : Fin 5, clients[index].socketFd = fd := by
  rw [tracked, List.mem_filter, List.mem_map, and_comm, decide_eq_true_iff]
  refine and_congr_right (fun _ => ?_)
  constructor
  · rintro ⟨client, member, here⟩
    obtain ⟨index, bound, rfl⟩ := Vector.mem_iff_getElem.mp (Vector.mem_toList_iff.mp member)
    exact ⟨⟨index, bound⟩, here⟩
  · rintro ⟨index, here⟩
    exact ⟨clients[index], Vector.mem_toList_iff.mpr (Vector.getElem_mem _), here⟩

/-- Slots with distinct descriptors are found by them. -/
theorem Clients.unique {clients : Clients} (distinct : clients.tracked.Nodup)
    {index other : Fin 5} (same : clients[index].socketFd = clients[other].socketFd)
    (taken : clients[index].socketFd ≠ 0)
    : index = other := by
  have pairs := List.pairwise_iff_getElem.mp (List.pairwise_filter.mp distinct)
  have apart (first second : Fin 5) (less : first < second)
      (equal : clients[first].socketFd = clients[second].socketFd)
      (taken : clients[first].socketFd ≠ 0)
      : False := by
    have differ := pairs first second (by simp) (by simp) less
    simp only [List.getElem_map, Vector.getElem_toList] at differ
    exact differ (decide_eq_true taken) (decide_eq_true (equal ▸ taken)) equal
  rcases Nat.lt_trichotomy index other with less | equal | less
  · exact (apart index other less same taken).elim
  · exact Fin.ext equal
  · exact (apart other index less same.symm (same ▸ taken)).elim

/-- A slot that is taken is the one found for its descriptor. -/
theorem Clients.firstSlot_of_taken {clients : Clients} (distinct : clients.tracked.Nodup)
    {index : Fin 5} (taken : clients[index].socketFd ≠ 0)
    : firstSlot clients clients[index].socketFd = some index := by
  cases found : firstSlot clients clients[index].socketFd with
  | none => exact absurd rfl (firstSlot_none.mp found index)
  | some other =>
      have here := firstSlot_some found
      rw [clients.unique distinct here.symm taken]

/-- The descriptors after a slot was changed, next to those before. -/
theorem Clients.tracked_set (clients : Clients) (index : Fin 5)
    : ∃ others : List SOCKET,
        clients.tracked.Perm ((clients[index].socketFd :: others).filter (· ≠ 0))
        ∧ ∀ client : Client,
            (tracked (clients.set index client)).Perm
              ((client.socketFd :: others).filter (· ≠ 0)) := by
  have bound : index.val < (clients.toList.map Client.socketFd).length := by simp
  refine ⟨(clients.toList.map Client.socketFd).eraseIdx index, ?_, fun client => ?_⟩
  · have split := List.getElem_cons_eraseIdx_perm bound
    rw [List.getElem_map, Vector.getElem_toList] at split
    exact (split.symm).filter _
  · rw [tracked, set, Vector.toList_set, List.map_set]
    exact (List.set_perm_cons_eraseIdx bound _).filter _

/-- A slot that keeps its descriptor changes nothing. -/
theorem Clients.tracked_set_same {clients : Clients} {index : Fin 5} {client : Client}
    (same : client.socketFd = clients[index].socketFd)
    : tracked (clients.set index client) = clients.tracked := by
  have bound : index.val < (clients.toList.map Client.socketFd).length := by simp
  have here : client.socketFd = (clients.toList.map Client.socketFd)[index.val] := by
    rw [same, List.getElem_map, Vector.getElem_toList]
    rfl
  rw [tracked, set, Vector.toList_set, List.map_set, here, List.set_getElem_self, tracked]

/-- A free slot that is taken adds its descriptor. -/
theorem Clients.tracked_set_taken {clients : Clients} {index : Fin 5} {client : Client}
    (free : clients[index].socketFd = 0) (taken : client.socketFd ≠ 0)
    : (tracked (clients.set index client)).Perm (client.socketFd :: clients.tracked) := by
  obtain ⟨others, before, after⟩ := clients.tracked_set index
  rw [free, List.filter_cons_of_neg (by simp)] at before
  refine (after client).trans ?_
  rw [List.filter_cons_of_pos (by simpa using taken)]
  exact before.symm.cons _

/-- A slot that is freed removes its descriptor. -/
theorem Clients.tracked_set_freed {clients : Clients} {index : Fin 5} {client : Client}
    (taken : clients[index].socketFd ≠ 0) (free : client.socketFd = 0)
    : (clients[index].socketFd :: tracked (clients.set index client)).Perm clients.tracked := by
  obtain ⟨others, before, after⟩ := clients.tracked_set index
  have rest := after client
  rw [free, List.filter_cons_of_neg (by simp)] at rest
  rw [List.filter_cons_of_pos (by simpa using taken)] at before
  exact (rest.cons _).trans before.symm

/-- Emptied slots track nothing. -/
theorem Clients.tracked_emptied (clients : Clients)
    : tracked (clients.map (fun client => { client with socketFd := 0 })) = [] := by
  simp [tracked]

/-- Where nothing is tracked, every slot is free. -/
theorem Clients.free_of_untracked {clients : Clients} (nothing : clients.tracked = [])
    (index : Fin 5)
    : clients[index].socketFd = 0 := by
  by_contra taken
  have member := Clients.mem_tracked.mpr ⟨taken, index, rfl⟩
  rw [nothing] at member
  cases member

/-- At most five descriptors are tracked. -/
theorem Clients.tracked_length (clients : Clients) : clients.tracked.length ≤ 5 := by
  have slots : (clients.toList.map Client.socketFd).length = 5 := by simp
  exact slots ▸ List.length_filter_le _ _

end NetworkAccess
