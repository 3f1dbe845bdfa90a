import NimbleServer.Lib.FreeList
import NimbleServer.Model.PlainServer
import NimbleServer.Proofs.OperationRules

/-!
# `NimbleServer.Proofs.Pool`: the participant pool

The pool keeps three records of which participants are in use: a flag in each slot, the
count `participantCount`, and the circular buffer of free ids. Different functions change
them, and composing changes them in the middle of its walk over the slots.

`PoolInvariant` says that the three agree. The buffer's part of it is the general invariant
of a free list, `Tracks`, read through the octets the buffer stores. The main results:

* `pool_reachable`: the invariant holds in every state of a game that joins, ticks and
  datagrams can reach.
* No operation of such a game stops in the pool. The stops of
  `nimbleServerParticipantsJoin`, of `nimbleServerParticipantsDestroy` and of the buffer
  each contradict the invariant (`PoolInvariant.joinFault`, `PoolInvariant.destroy`).
-/

set_option autoImplicit false

namespace NimbleServer

open NimbleServer.Lib

variable {E : External} {S : Setup}

/-! ### Counting used participants -/

namespace Participants

/-- The used participants, counted slot by slot. -/
theorem usedCount_eq (self : Participants E S) :
    self.usedCount
      = (List.finRange S.maxParticipantCount).countP fun i => (self.get i).isUsed :=
  countP_eq_countP_finRange self.participants (·.isUsed)

/-- Pools with the same flags have the same number of used participants. -/
theorem usedCount_congr {self other : Participants E S}
    (h : ∀ i, (other.get i).isUsed = (self.get i).isUsed) : other.usedCount = self.usedCount := by
  rw [usedCount_eq, usedCount_eq]
  exact List.countP_congr fun i _ => by rw [h i]

/-- The number of used participants after an assignment to one slot. -/
theorem usedCount_set (self : Participants E S) (i : ParticipantPtr S) (x : Participant E S) :
    (self.set i x).usedCount = self.usedCount - (if (self.get i).isUsed then 1 else 0)
      + (if x.isUsed then 1 else 0) :=
  Vector.countP_set i.isLt

/-- A used participant is counted. -/
theorem usedCount_pos {self : Participants E S} {i : ParticipantPtr S}
    (h : (self.get i).isUsed = true) : 0 < self.usedCount := by
  rw [usedCount_eq]
  exact List.countP_pos_iff.mpr ⟨i, List.mem_finRange i, h⟩

/-- The flags after an assignment to one slot. -/
theorem isUsed_set (self : Participants E S) (i : ParticipantPtr S) (x : Participant E S) :
    (fun j => ((self.set i x).get j).isUsed)
      = Function.update (fun j => (self.get j).isUsed) i x.isUsed := by
  funext j
  by_cases hij : j = i
  · subst hij
    rw [get_set_self, Function.update_self]
  · rw [get_set_ne _ _ (fun h => hij h.symm), Function.update_of_ne hij]

end Participants

/-! ### Counts and ids

What composing needs of the pool. It does not read the free list. -/

/-- The count is that of the used participants, and a participant that leaves has the id of its
slot. -/
structure PoolCounted (pool : Participants E S) : Prop where
  count : pool.participantCount = pool.usedCount
  leavingId : ∀ i, (pool.get i).isUsed = true → (pool.get i).state = .leaving →
    (pool.get i).id.toNat = i.val

/-- The pool after a participant was given back. -/
def destroyedPool (self : Participants E S) (i : ParticipantPtr S) : Participants E S :=
  { self.set i (nimbleServerParticipantDestroy (self.get i)) with
    participantCount := self.participantCount - 1
    freeList := self.freeList.push (self.get i).id }

/-- The participants after one of them was given back. -/
theorem get_destroyedPool (self : Participants E S) (i j : ParticipantPtr S) :
    (destroyedPool self i).get j
      = if i = j then nimbleServerParticipantDestroy (self.get i) else self.get j :=
  Participants.get_set self i j _

/-- There is one used participant less. -/
theorem usedCount_destroyedPool {self : Participants E S} {i : ParticipantPtr S}
    (hused : (self.get i).isUsed = true) :
    (destroyedPool self i).usedCount = self.usedCount - 1 := by
  show (self.set i _).usedCount = _
  rw [Participants.usedCount_set, hused]
  simp [nimbleServerParticipantDestroy]

/-- Only a participant that was used before is used afterwards. -/
theorem isUsed_of_destroyedPool {self : Participants E S} {i j : ParticipantPtr S}
    (h : ((destroyedPool self i).get j).isUsed = true) :
    i ≠ j ∧ (self.get j).isUsed = true := by
  rw [get_destroyedPool] at h
  split at h
  · cases h
  · rename_i hij
    exact ⟨hij, h⟩

namespace PoolCounted

variable {self : Participants E S}

/-- A used participant is given back, if there is room in the free list. The slot is found by
the id. -/
theorem destroy (h : PoolCounted self) {i : ParticipantPtr S}
    (hused : (self.get i).isUsed = true) (hid : (self.get i).id.toNat = i.val) :
    Ensures (nimbleServerParticipantsDestroy self (self.get i).id)
      (fun other => other = destroyedPool self i ∧ self.freeList.isFull = false)
      (fun fault => fault = .circularBufferOverwrite .participants ∧
        self.freeList.isFull = true) := by
  have hlt : (self.get i).id.toNat < S.maxParticipantCount := by
    rw [hid]
    exact i.isLt
  have hslot : (⟨(self.get i).id.toNat, hlt⟩ : ParticipantPtr S) = i := Fin.ext hid
  have hpos : 0 < self.usedCount := Participants.usedCount_pos hused
  unfold nimbleServerParticipantsDestroy nimbleServerCircularBufferWrite
  -- The participant is counted and its id names its slot, so only the free list can stop the
  -- call.
  rw [if_neg (by rw [h.count]; omega)]
  dsimp only
  rw [dif_pos hlt, hslot, hused]
  cases hfull : self.freeList.isFull with
  | true => exact ⟨rfl, rfl⟩
  | false => exact ⟨rfl, rfl⟩

/-- The counts agree after a participant was given back. -/
theorem destroyed (h : PoolCounted self) {i : ParticipantPtr S}
    (hused : (self.get i).isUsed = true) : PoolCounted (destroyedPool self i) where
  count := by
    show self.participantCount - 1 = _
    rw [usedCount_destroyedPool hused, h.count]
  leavingId := by
    intro j hj
    obtain ⟨hij, hother⟩ := isUsed_of_destroyedPool hj
    rw [get_destroyedPool, if_neg hij]
    exact h.leavingId j hother

end PoolCounted

/-! ### The invariant -/

/-- The octet the free list stores for a slot. -/
def slotOctet (i : ParticipantPtr S) : UInt8 := UInt8.ofNat i.val

/-- The three records of the pool agree. -/
structure PoolInvariant (pool : Participants E S) : Prop where
  capacity : S.maxParticipantCount < NIMBLE_SERVER_CIRCULAR_BUFFER_SIZE
  free : ∃ free : List (ParticipantPtr S), pool.freeList.toList = free.map slotOctet ∧
    Tracks free (fun i => (pool.get i).isUsed)
  count : pool.participantCount = pool.usedCount
  id : ∀ i, (pool.get i).isUsed = true → (pool.get i).id = slotOctet i

/-- The octet of a slot names the slot. -/
theorem slotOctet_toNat (hcapacity : S.maxParticipantCount < NIMBLE_SERVER_CIRCULAR_BUFFER_SIZE)
    (i : ParticipantPtr S) : (slotOctet i).toNat = i.val := by
  have hi : i.val < 64 := Nat.lt_trans i.isLt hcapacity
  exact UInt8.toNat_ofNat_of_lt' (by show i.val < 256; omega)

/-- Different slots have different octets. -/
theorem slotOctet_injective (hcapacity : S.maxParticipantCount < NIMBLE_SERVER_CIRCULAR_BUFFER_SIZE)
    {i j : ParticipantPtr S} (h : slotOctet i = slotOctet j) : i = j := by
  have hval : (slotOctet i).toNat = (slotOctet j).toNat := congrArg UInt8.toNat h
  rw [slotOctet_toNat hcapacity, slotOctet_toNat hcapacity] at hval
  exact Fin.ext hval

namespace PoolInvariant

variable {self : Participants E S}

/-- A used participant has the id of its slot. -/
theorem toNat_id (h : PoolInvariant self) {i : ParticipantPtr S}
    (hused : (self.get i).isUsed = true) : (self.get i).id.toNat = i.val := by
  rw [h.id i hused, slotOctet_toNat h.capacity i]

/-- The invariant has what composing needs. -/
theorem counted (h : PoolInvariant self) : PoolCounted self where
  count := h.count
  leavingId := fun _ hused _ => h.toNat_id hused

/-- Used participants and free ids are all participants. -/
theorem count_add (h : PoolInvariant self) :
    self.participantCount + nimbleServerCircularBufferCount self.freeList
      = S.maxParticipantCount := by
  obtain ⟨free, hlist, htracks⟩ := h.free
  have hlength : self.freeList.count = free.length := by
    rw [← Ring.length_toList, hlist, List.length_map]
  show self.participantCount + self.freeList.count = _
  rw [h.count, Participants.usedCount_eq, hlength]
  exact htracks.length

/-- No id is in the free list twice. -/
theorem nodup (h : PoolInvariant self) : self.freeList.toList.Nodup := by
  obtain ⟨free, hlist, htracks⟩ := h.free
  rw [hlist]
  exact htracks.nodup.map fun _ _ => slotOctet_injective h.capacity

/-- The free list holds the ids of the participants that are not used. -/
theorem mem_iff (h : PoolInvariant self) (octet : UInt8) :
    octet ∈ self.freeList.toList ↔ ∃ i, octet = slotOctet i ∧ (self.get i).isUsed = false := by
  obtain ⟨free, hlist, htracks⟩ := h.free
  rw [hlist, List.mem_map]
  constructor
  · rintro ⟨i, hi, rfl⟩
    exact ⟨i, rfl, (htracks.mem_iff i).mp hi⟩
  · rintro ⟨i, rfl, hi⟩
    exact ⟨i, (htracks.mem_iff i).mpr hi, rfl⟩

/-- The invariant reads the flags, the ids, the count and the free list. -/
theorem congr {other : Participants E S} (h : PoolInvariant self)
    (hused : ∀ i, (other.get i).isUsed = (self.get i).isUsed)
    (hid : ∀ i, (other.get i).id = (self.get i).id)
    (hcount : other.participantCount = self.participantCount)
    (hfree : other.freeList = self.freeList) : PoolInvariant other where
  capacity := h.capacity
  free := by
    obtain ⟨free, hlist, htracks⟩ := h.free
    refine ⟨free, hfree ▸ hlist, htracks.nodup, fun i => ?_⟩
    rw [htracks.mem_iff i, hused i]
  count := by rw [hcount, h.count, Participants.usedCount_congr hused]
  id := by
    intro i hi
    rw [hid i]
    exact h.id i (hused i ▸ hi)

/-! ### Taking a participant -/

/-- A free list that is not empty starts with the id of a free slot. -/
theorem front (h : PoolInvariant self) (hempty : self.freeList.isEmpty = false) :
    ∃ i free, self.freeList.front = slotOctet i ∧
      self.freeList.pop.toList = free.map slotOctet ∧
      Tracks (i :: free) (fun j => (self.get j).isUsed) := by
  obtain ⟨free, hlist, htracks⟩ := h.free
  rw [Ring.toList_pop _ hempty] at hlist
  cases free with
  | nil => cases hlist
  | cons i free =>
    rw [List.map_cons, List.cons.injEq] at hlist
    exact ⟨i, free, hlist.1, hlist.2, htracks⟩

/-- A join keeps the invariant, whether it succeeds or is refused. -/
theorem join (h : PoolInvariant self) {localPlayers : List Nat} {party : PartyPtr S}
    {stepId : StepId} {r : Except Int (ParticipantPtr S) × Participants E S}
    (hr : ParticipantsJoinOutcome self localPlayers party stepId r) : PoolInvariant r.2 := by
  cases hr with
  | full hfull => exact h
  | joined i localIndex hplayers hroom hempty hfront hfree =>
    obtain ⟨j, free, hfront', hpop, htracks⟩ := h.front hempty
    -- The slot that is taken is the one whose id the buffer returned.
    have hij : i = j := slotOctet_injective h.capacity (hfront.symm.trans hfront')
    subst hij
    refine ⟨h.capacity, ⟨free, hpop, ?_⟩, ?_, ?_⟩
    · show Tracks free (fun k => ((self.set i _).get k).isUsed)
      rw [Participants.isUsed_set]
      exact htracks.take
    · -- The slot was not used, so it is one more.
      show self.participantCount + 1 = (self.set i _).usedCount
      rw [Participants.usedCount_set, h.count, hfree]
      simp
    · intro k hk
      show ((self.set i _).get k).id = slotOctet k
      by_cases hik : i = k
      · subst hik
        rw [Participants.get_set_self]
        exact hfront
      · rw [Participants.get_set_ne _ _ hik]
        refine h.id k ?_
        have : ((self.set i _).get k).isUsed = true := hk
        rwa [Participants.get_set_ne _ _ hik] at this

/-- A join can stop only because of the number of players it was given. -/
theorem joinFault (h : PoolInvariant self) {fault : Fault}
    (hf : ParticipantsJoinFault self fault) : fault = .localParticipantCount := by
  cases hf with
  | players => rfl
  -- There is room by the count, so the free list cannot be empty.
  | empty hroom hempty =>
    have hzero : self.freeList.count = 0 := (Ring.isEmpty_iff _).mp hempty
    have hsum := h.count_add
    unfold nimbleServerCircularBufferCount at hsum
    omega
  -- The list holds ids of slots only,
  | illegal hempty hfront =>
    obtain ⟨i, free, hfront', -, -⟩ := h.front hempty
    rw [hfront', slotOctet_toNat h.capacity i] at hfront
    exact absurd i.isLt (Nat.not_lt.mpr hfront)
  -- and only of slots that are free.
  | used i hempty hfront hused =>
    obtain ⟨j, free, hfront', -, htracks⟩ := h.front hempty
    have hij : i = j := slotOctet_injective h.capacity (hfront.symm.trans hfront')
    subst hij
    have hfree : (self.get i).isUsed = false := (htracks.mem_iff i).mp List.mem_cons_self
    rw [hfree] at hused
    cases hused

/-! ### Giving a participant back -/

/-- Destroying a used participant keeps the invariant and never stops. -/
theorem destroy (h : PoolInvariant self) {i : ParticipantPtr S}
    (hused : (self.get i).isUsed = true) :
    Ensures (nimbleServerParticipantsDestroy self (self.get i).id) PoolInvariant
      (fun _ => False) := by
  have hpos : 0 < self.usedCount := Participants.usedCount_pos hused
  have hsum := h.count_add
  unfold nimbleServerCircularBufferCount at hsum
  have hcount := h.count
  have hcapacity := h.capacity
  -- As long as somebody is used, fewer ids are free than there are slots.
  have hroom : ¬self.freeList.isFull = true := by
    rw [Ring.isFull_iff]
    omega
  refine (h.counted.destroy hused (h.toNat_id hused)).mono ?_ (fun _ hfault => hroom hfault.2)
  rintro _ ⟨rfl, hfull⟩
  refine ⟨h.capacity, ?_, (h.counted.destroyed hused).count, ?_⟩
  · obtain ⟨free, hlist, htracks⟩ := h.free
    refine ⟨free ++ [i], ?_, ?_⟩
    · show (self.freeList.push (self.get i).id).toList = _
      rw [Ring.toList_push _ _ hfull, hlist, h.id i hused, List.map_append]
      rfl
    · show Tracks (free ++ [i]) (fun k => ((self.set i _).get k).isUsed)
      rw [Participants.isUsed_set]
      exact htracks.give hused
  · intro j hj
    obtain ⟨hij, hother⟩ := isUsed_of_destroyedPool hj
    rw [get_destroyedPool, if_neg hij]
    exact h.id j hother

/-! ### The start of a game -/

end PoolInvariant

/-- The participants of a pool that is built slot by slot. -/
theorem get_tabulate (f : ParticipantPtr S → Participant E S) (count : Nat)
    (freeList : CircularBuffer) (log : List (Event E S)) (i : ParticipantPtr S) :
    Participants.get ⟨tabulate S.maxParticipantCount f, count, freeList, log⟩ i = f i := by
  simp [Participants.get, tabulate]

/-- A new pool satisfies the invariant. -/
theorem nimbleServerParticipantsInit_ensures (freeList : CircularBuffer) :
    Ensures (nimbleServerParticipantsInit E S freeList)
      (fun self => PoolInvariant self ∧ (∀ i, self.get i
        = nimbleServerParticipantInit E S (UInt8.ofNat i.val)) ∧ self.log = [])
      (fun _ => ¬(0 < S.maxParticipantCount ∧
        S.maxParticipantCount < NIMBLE_SERVER_CIRCULAR_BUFFER_SIZE)) := by
  unfold nimbleServerParticipantsInit
  by_cases hzero : S.maxParticipantCount = 0
  · rw [if_pos hzero]
    show ¬(_ ∧ _)
    omega
  · rw [if_neg hzero]
    dsimp only
    split
    · show ¬(_ ∧ _)
      omega
    · rename_i hcapacity
      have hcapacity' : S.maxParticipantCount < NIMBLE_SERVER_CIRCULAR_BUFFER_SIZE :=
        Nat.lt_of_not_le hcapacity
      have hroom : (List.finRange S.maxParticipantCount).length
          ≤ NIMBLE_SERVER_CIRCULAR_BUFFER_SIZE := by
        rw [List.length_finRange]
        omega
      refine ((writeAll_ensures .participants slotOctet _ hroom freeList).mono (fun _ h => h)
        (fun _ h => h.elim)).bind ?_
      intro list hlist
      -- Every id is free and nobody is used, so the ids of used participants are trivial.
      refine ⟨⟨hcapacity', ⟨_, hlist, ?_⟩, ?_, ?_⟩, fun i => get_tabulate _ _ _ _ i, rfl⟩
      · refine Tracks.all_free fun i => ?_
        rw [get_tabulate]
        rfl
      · rw [Participants.usedCount_eq]
        refine (List.countP_eq_zero.mpr fun i _ => ?_).symm
        rw [get_tabulate]
        exact Bool.false_ne_true
      · intro i hi
        rw [get_tabulate] at hi
        cases hi

/-- A new game: an empty pool, every party reset, and the authoritative buffer at the step
id. -/
theorem nimbleServerReInitWithGame_ensures (before : Server E S) (stepId : StepId) :
    Ensures (nimbleServerReInitWithGame before stepId)
      (fun s => PoolInvariant s.game.participants ∧
        (∀ i, s.participant i = nimbleServerParticipantInit E S (UInt8.ofNat i.val)) ∧
        s.game.participants.log = [] ∧
        (∃ steps, s.game.authoritativeSteps = E.nbsStepsReInit steps stepId) ∧
        s.localParties = nimbleServerLocalPartiesReset before.localParties ∧
        s.transportConnections = before.transportConnections ∧
        s.freeTransportConnectionList = before.freeTransportConnectionList)
      (fun _ => ¬(0 < S.maxParticipantCount ∧
        S.maxParticipantCount < NIMBLE_SERVER_CIRCULAR_BUFFER_SIZE)) := by
  unfold nimbleServerReInitWithGame nimbleServerGameInit
  refine Ensures.bind_of (fun game : Game E S => PoolInvariant game.participants ∧
    (∀ i, game.participants.get i = nimbleServerParticipantInit E S (UInt8.ofNat i.val)) ∧
    game.participants.log = []) ?_ ?_
  · exact (nimbleServerParticipantsInit_ensures before.game.participants.freeList).bind
      fun participants h => h
  · rintro game ⟨hpool, hinit, hlog⟩
    exact ⟨hpool, hinit, hlog, ⟨_, rfl⟩, rfl, rfl, rfl⟩

/-- In a new game no party is in use and none references a participant. -/
theorem StartsGame.parties_reset {s : Server E S} (h : StartsGame s) (p : PartyPtr S) :
    (s.party p).isUsed = false ∧ (s.party p).participantReferences = [] := by
  obtain ⟨before, stepId, hinit⟩ := h
  obtain ⟨-, -, -, -, hparties, -, -⟩ :=
    (nimbleServerReInitWithGame_ensures before stepId).of_ok hinit
  rw [party_of_reset hparties]
  exact ⟨rfl, rfl⟩

/-! ### Every operation keeps the pool -/

/-- The stops of `nimbleServerParticipantsJoin`, of `nimbleServerParticipantsDestroy`, and of
the circular buffer that lists the free participants. -/
def Fault.IsPool : Fault → Prop
  | .circularBufferOverwrite .participants | .circularBufferEmpty .participants
  | .illegalParticipantId | .participantAlreadyUsed | .participantNotUsed
  | .participantCount => True
  | _ => False

/-- The two pools have the same flags, ids, count and free list. -/
structure SamePool (pool other : Participants E S) : Prop where
  isUsed : ∀ i, (other.get i).isUsed = (pool.get i).isUsed
  id : ∀ i, (other.get i).id = (pool.get i).id
  participantCount : other.participantCount = pool.participantCount
  freeList : other.freeList = pool.freeList

/-- A change of one participant that keeps its flag and its id keeps the pool. -/
theorem SamePool.set (self : Participants E S) (i : ParticipantPtr S) {x : Participant E S}
    (hused : x.isUsed = (self.get i).isUsed) (hid : x.id = (self.get i).id) :
    SamePool self (self.set i x) := by
  refine ⟨?_, ?_, rfl, rfl⟩
  · intro j
    rw [Participants.get_set]
    split
    · rename_i hij
      rw [← hij, hused]
    · rfl
  · intro j
    rw [Participants.get_set]
    split
    · rename_i hij
      rw [← hij, hid]
    · rfl

/-- Assigning states to participants keeps the pool. -/
theorem SamePool.setReferencedStates (s : Server E S) (references : List (ParticipantPtr S))
    (state : ParticipantState) :
    SamePool s.game.participants
      (NimbleServer.setReferencedStates s references state).game.participants := by
  have hparticipant := participant_setReferencedStates s references state
  refine ⟨?_, ?_, by simp, by simp⟩
  · intro i
    refine (congrArg Participant.isUsed (hparticipant i)).trans ?_
    split
    · rfl
    · rfl
  · intro i
    refine (congrArg Participant.id (hparticipant i)).trans ?_
    split
    · rfl
    · rfl

/-- The invariant reads nothing else of a pool. -/
theorem PoolInvariant.of_same {self other : Participants E S} (h : PoolInvariant self)
    (hsame : SamePool self other) : PoolInvariant other :=
  h.congr hsame.isUsed hsame.id hsame.participantCount hsame.freeList

/-- The records of the pool are the same, and nobody else leaves. -/
theorem PoolCounted.of_same {self other : Participants E S} (h : PoolCounted self)
    (hsame : SamePool self other)
    (hleaving : ∀ i, (other.get i).state = .leaving → (self.get i).state = .leaving) :
    PoolCounted other where
  count := by rw [hsame.participantCount, h.count, Participants.usedCount_congr hsame.isUsed]
  leavingId := by
    intro i hi hstate
    rw [hsame.id i]
    exact h.leavingId i (hsame.isUsed i ▸ hi) (hleaving i hstate)

/-- An assignment that keeps the flag and the id keeps the invariant. -/
theorem PoolInvariant.set {self : Participants E S} (h : PoolInvariant self)
    (i : ParticipantPtr S) {x : Participant E S} (hused : x.isUsed = (self.get i).isUsed)
    (hid : x.id = (self.get i).id) : PoolInvariant (self.set i x) :=
  h.of_same (.set self i hused hid)

/-- A property of the pool that reads its records, and that taking a participant and giving
one back keep. -/
structure PoolRule (P : Participants E S → Prop) (fault : Fault → Prop) : Prop where
  same : ∀ self other, P self → SamePool self other → P other
  join : ∀ self players party stepId r, P self →
    ParticipantsJoinOutcome self players party stepId r → P r.2
  joinFault : ∀ self f, P self → ParticipantsJoinFault self f → fault f
  destroy : ∀ self i, P self → (self.get i).isUsed = true →
    Ensures (nimbleServerParticipantsDestroy self (self.get i).id) P fault
  other : ∀ f, ¬f.IsPool → fault f

/-- Such a property survives every operation of a running game. -/
theorem PoolRule.playKeeps {P : Participants E S → Prop} {fault : Fault → Prop}
    (hrule : PoolRule P fault) (allowed : Server E S → Op S → Prop) :
    PlayKeeps allowed (fun s => P s.game.participants) fault where
  steps := fun s i _ h => hrule.same _ _ h (.set s.game.participants i rfl rfl)
  counters := fun _ _ _ _ _ h => h
  log := fun s _ h => hrule.same s.game.participants _ h ⟨fun _ => rfl, fun _ => rfl, rfl, rfl⟩
  authoritativeSteps := fun _ _ h => h
  joined := fun s i h _ _ => hrule.same _ _ h (.set s.game.participants i rfl rfl)
  left := fun s i h hused _ => hrule.destroy s.game.participants i h hused
  nullParty := hrule.other _ fun h => h
  stepsCorrupt := hrule.other _ fun h => h
  same := fun s s' h hgame _ => hgame ▸ h
  join := by
    intro s t request uninitialized r h _ hr
    cases hr with
    | noPlace code hplace => exact h
    | sessionFull code p hplace => exact h
    | found p hcount hmatch => exact h
    | unassigned p q htype hfind hnamed hcount hpointer => exact h
    | rejoined p htype hfind hnamed hcount => exact h
    | created p i participants htype hfind hplace hjoin => exact hrule.join _ _ _ _ _ h hjoin
  joinFault := by
    intro s f h hf
    cases hf with
    | outOfBounds hcount => exact hrule.other _ fun h => h
    | partyId => exact hrule.other _ fun h => h
    | pointer => exact hrule.other _ fun h => h
    | participants fault hf => exact hrule.joinFault _ _ h hf
  tick := by
    intro s p s' h hs'
    -- A dissolved party only assigns states. The ids are given back when the next step is
    -- composed.
    have hdissolve : P (dissolveParty (advanceTimer s p) p).game.participants :=
      hrule.same _ _ h (.setReferencedStates ((advanceTimer s p).setParty p _) _ _)
    cases hs' with
    | unused hused => exact h
    | kept counter hused hstate hcounter => exact h
    | lost counter hused hstate hfailing =>
      exact hrule.same _ _ h (.setReferencedStates ((s.setParty p _).setParty p _) _ _)
    | waited hused hstate => exact h
    | stale hused hstate => exact h
    | dissolved hused hstate hcount hconnection => exact hdissolve
    | disconnected t hused hstate hcount hconnection hfull => exact hdissolve
  tickFault := by
    intro s p f h hf
    cases hf with
    | partiesCount hused hcount => exact hrule.other _ fun h => h
    | overwrite t hused hconnection hfull => exact hrule.other _ fun h => h
  connectionFault := by
    rintro f (rfl | rfl | rfl)
    · exact hrule.other _ fun h => h
    · exact hrule.other _ fun h => h
    · exact hrule.other _ fun h => h

/-- The pool survives every operation of a running game, and none stops in it. -/
theorem pool_playKeeps (allowed : Server E S → Op S → Prop) :
    PlayKeeps allowed (fun s => PoolInvariant s.game.participants) (fun f => ¬f.IsPool) := by
  refine PoolRule.playKeeps ⟨fun _ _ h hsame => h.of_same hsame, ?_, ?_, ?_, fun _ h => h⟩ allowed
  · intro self players party stepId r h hr
    exact h.join hr
  · intro self f h hf
    rw [h.joinFault hf]
    exact fun h => h
  · intro self i h hused
    exact (h.destroy hused).mono (fun _ h => h) (fun _ h => h.elim)

/-- The pool invariant holds in every state of a running game. -/
theorem pool_reachable {start s : Server E S} (hstart : StartsGame start)
    {allowed : Server E S → Op S → Prop} (hplay : ∀ s op, allowed s op → op.IsPlay)
    (hrun : Reaches Server.step allowed start s) : PoolInvariant s.game.participants := by
  obtain ⟨before, stepId, hinit⟩ := hstart
  have hpool := ((nimbleServerReInitWithGame_ensures before stepId).of_ok hinit).1
  exact (pool_playKeeps allowed).playRule.reachable hplay hpool hrun

/-- Every capacity from 1 to 63 can be set up, and in every state that the operations of a
running game reach the records of the pool agree: the free list is without duplicates and
holds exactly the ids of the participants that are not used, `participantCount` counts the
used ones, the two counts add up to the capacity, and a used participant has the id of its
slot. No next operation stops in the pool. -/
theorem participantPool_records_agree (before : Server E S) (stepId : StepId)
    (hpositive : 1 ≤ S.maxParticipantCount) (hcapacity : S.maxParticipantCount < 64) :
    ∃ start, nimbleServerReInitWithGame before stepId = .ok start ∧
      ∀ s, Reaches Server.step (fun _ op => op.IsPlay) start s →
        (s.game.participants.freeList.toList.Nodup ∧
          (∀ octet, octet ∈ s.game.participants.freeList.toList ↔
            ∃ i : ParticipantPtr S, octet = UInt8.ofNat i.val ∧
              (s.participant i).isUsed = false) ∧
          s.game.participants.participantCount = s.game.participants.usedCount ∧
          s.game.participants.participantCount
            + nimbleServerCircularBufferCount s.game.participants.freeList
            = S.maxParticipantCount ∧
          ∀ i, (s.participant i).isUsed = true → (s.participant i).id = UInt8.ofNat i.val) ∧
        ∀ op : Op S, op.IsPlay → ∀ fault, s.step op = .error fault → ¬fault.IsPool := by
  have hinit := nimbleServerReInitWithGame_ensures before stepId
  cases hstart : nimbleServerReInitWithGame before stepId with
  | error fault => exact absurd ⟨hpositive, hcapacity⟩ (hinit.of_error hstart)
  | ok start =>
    refine ⟨start, rfl, ?_⟩
    intro s hrun
    have hpool : PoolInvariant s.game.participants :=
      pool_reachable ⟨before, stepId, hstart⟩ (fun _ _ h => h) hrun
    refine ⟨⟨hpool.nodup, hpool.mem_iff, hpool.count, hpool.count_add, hpool.id⟩, ?_⟩
    intro op hop fault hfault
    exact ((pool_playKeeps fun _ op => op.IsPlay).playRule.step hpool hop hop).of_error hfault

/-- A game for two clients, in which one of them joined. -/
theorem participantPool_records_agree_oneJoin :
    ∃ start s, nimbleServerReInitWithGame (zeroMemory (plainSetup 2)) 0 = .ok start ∧
      Reaches Server.step (fun _ op => op.IsPlay) start s ∧
      s.game.participants.freeList.toList = [1] ∧
      s.game.participants.participantCount = s.game.participants.usedCount := by
  obtain ⟨start, s, hstart, hrun, hfree⟩ := exists_run Server.step (fun _ op => op.IsPlay)
    (fun s => s.game.participants.freeList.toList = [1])
    (nimbleServerReInitWithGame (zeroMemory (plainSetup 2)) 0)
    [.receive 0, .join 0 onePlayer (zeroLocals _)] (by decide +kernel)
  obtain ⟨start', hstart', hall⟩ := participantPool_records_agree
    (zeroMemory (plainSetup 2)) 0 (by decide) (by decide)
  rw [hstart] at hstart'
  cases hstart'
  exact ⟨start, s, hstart, hrun, hfree, (hall s hrun).1.2.2.1⟩

end NimbleServer
