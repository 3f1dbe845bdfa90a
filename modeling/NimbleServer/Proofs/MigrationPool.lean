import NimbleServer.Proofs.Pool

/-!
# `NimbleServer.Proofs.MigrationPool`: the participant pool when hosts migrate

Host migration takes participants by their ids and does not look at the free list. It
rebuilds the list at the end, from the ids it was given and not from the flags. So
`PoolInvariant` does not survive it. What survives every operation of the server is weaker
(`PoolCovers`): the count is right, used participants have the id of their slot, and the
free list holds at least the ids of all participants that are not used.

* `PoolRule.playKeeps` gives the operations of a running game.
* `prepareParties_covers` follows the loop of host migration: flags are only ever set, and
  when the loop comes to its end all the ids that were listed are used.
* `poolCovers_reachable` is the result for every run.
-/

set_option autoImplicit false

namespace NimbleServer

open NimbleServer.Lib

variable {E : External} {S : Setup}

/-! ### Rebuilding the free list -/

/-- The slots whose ids are not listed, in ascending order. -/
def unlistedSlots (S : Setup) (infos : List LocalPartyInfo) : List (ParticipantPtr S) :=
  (List.finRange S.maxParticipantCount).filter fun i =>
    !containsParticipantId infos (slotOctet i)

/-- The rebuilt list holds the ids that are not listed. -/
theorem rebuildFreeList_ensures
    (hcapacity : S.maxParticipantCount < NIMBLE_SERVER_CIRCULAR_BUFFER_SIZE)
    (infos : List LocalPartyInfo) (freeList : CircularBuffer) :
    Ensures ((List.finRange S.maxParticipantCount).foldlM
        (fun freeList i =>
          if containsParticipantId infos (UInt8.ofNat i.val) then pure freeList
          else nimbleServerCircularBufferWrite .participants freeList (UInt8.ofNat i.val))
        (nimbleServerCircularBufferInit freeList))
      (fun list => list.toList = (unlistedSlots S infos).map slotOctet) (fun _ => False) := by
  -- Passing over the listed ids is writing the others.
  have hskip : ∀ list : CircularBuffer, (List.finRange S.maxParticipantCount).foldlM
      (fun freeList i =>
        if containsParticipantId infos (UInt8.ofNat i.val) then pure freeList
        else nimbleServerCircularBufferWrite .participants freeList (UInt8.ofNat i.val)) list
      = (unlistedSlots S infos).foldlM (fun freeList i =>
        nimbleServerCircularBufferWrite .participants freeList (slotOctet i)) list := by
    intro list
    unfold unlistedSlots
    rw [List.foldlM_filter]
    congr
    funext freeList i
    show _ = if (!containsParticipantId infos (UInt8.ofNat i.val)) = true then _ else _
    cases containsParticipantId infos (UInt8.ofNat i.val) <;> rfl
  rw [hskip]
  refine writeAll_ensures .participants slotOctet _ ?_ freeList
  have hlength : (unlistedSlots S infos).length ≤ S.maxParticipantCount := by
    have := List.length_filter_le (fun i : ParticipantPtr S =>
      !containsParticipantId infos (slotOctet i)) (List.finRange S.maxParticipantCount)
    rwa [List.length_finRange] at this
  omega

/-- The server with all parties reset, which is where host migration starts. -/
def resetParties (s : Server E S) : Server E S :=
  { s with localParties := nimbleServerLocalPartiesReset s.localParties }

/-- Each party is reset for itself. -/
theorem party_resetParties (s : Server E S) (p : PartyPtr S) :
    (resetParties s).party p = nimbleServerLocalPartyReset (s.party p) :=
  party_of_reset rfl p

/-- The rule for host migration: the loop ends at an error, or the free list is rebuilt. -/
theorem hostMigration_ensures
    (hcapacity : S.maxParticipantCount < NIMBLE_SERVER_CIRCULAR_BUFFER_SIZE) {s : Server E S}
    {infos : List LocalPartyInfo} {uninitialized : Uninitialized S}
    {mid post : Int × Server E S → Prop} {fault : Fault → Prop}
    (hloop : Ensures (prepareParties uninitialized infos (resetParties s)) mid fault)
    (hfailed : ∀ r, mid r → r.1 < 0 → post r)
    (hrebuilt : ∀ r (freeList : CircularBuffer), mid r → 0 ≤ r.1 →
      freeList.toList = (unlistedSlots S infos).map slotOctet →
      post (0, r.2.setParticipants { r.2.game.participants with freeList })) :
    Ensures (nimbleServerHostMigration s infos uninitialized) post fault := by
  unfold nimbleServerHostMigration
  refine Ensures.bind hloop ?_
  rintro ⟨err, s'⟩ hr
  dsimp only
  split
  · rename_i hneg
    exact hfailed _ hr hneg
  · rename_i hpos
    refine ((rebuildFreeList_ensures hcapacity infos _).mono (fun _ h => h)
      (fun _ h => h.elim)).bind fun freeList hlist => ?_
    exact hrebuilt _ freeList hr (Int.not_lt.mp hpos) hlist

/-! ### The invariant -/

/-- The count is right, used participants have the id of their slot, and the free list holds
the id of every participant that is not used. -/
structure PoolCovers (pool : Participants E S) : Prop where
  capacity : S.maxParticipantCount < NIMBLE_SERVER_CIRCULAR_BUFFER_SIZE
  count : pool.participantCount = pool.usedCount
  id : ∀ i, (pool.get i).isUsed = true → (pool.get i).id = slotOctet i
  free : ∀ i, (pool.get i).isUsed = false → slotOctet i ∈ pool.freeList.toList

/-- It is weaker than the invariant of a game without migration. -/
theorem PoolInvariant.covers {self : Participants E S} (h : PoolInvariant self) :
    PoolCovers self where
  capacity := h.capacity
  count := h.count
  id := h.id
  free := fun i hi => (h.mem_iff _).mpr ⟨i, rfl, hi⟩

namespace PoolCovers

variable {self : Participants E S}

/-- It is about flags, ids, the count and the free list. -/
theorem of_same {other : Participants E S} (h : PoolCovers self)
    (hsame : SamePool self other) : PoolCovers other where
  capacity := h.capacity
  count := by rw [hsame.participantCount, h.count, Participants.usedCount_congr hsame.isUsed]
  id := by
    intro i hi
    rw [hsame.id i]
    exact h.id i (hsame.isUsed i ▸ hi)
  free := by
    intro i hi
    rw [hsame.freeList]
    exact h.free i (hsame.isUsed i ▸ hi)

/-- A participant is taken. The free list can lose its id, and no other. -/
theorem take (h : PoolCovers self) {i : ParticipantPtr S} (hfree : (self.get i).isUsed = false)
    {x : Participant E S} (hused : x.isUsed = true) (hid : x.id = slotOctet i)
    {other : Participants E S} (hget : ∀ j, other.get j = (self.set i x).get j)
    (hcount : other.participantCount = self.participantCount + 1)
    (hlist : ∀ j, i ≠ j → slotOctet j ∈ self.freeList.toList →
      slotOctet j ∈ other.freeList.toList) : PoolCovers other where
  capacity := h.capacity
  count := by
    rw [hcount, Participants.usedCount_congr fun j => congrArg Participant.isUsed (hget j),
      Participants.usedCount_set, hfree, hused, h.count]
    simp
  id := by
    intro j hj
    rw [hget, Participants.get_set] at hj ⊢
    split
    · rename_i hij
      exact hij ▸ hid
    · rename_i hij
      rw [if_neg hij] at hj
      exact h.id j hj
  free := by
    intro j hj
    rw [hget, Participants.get_set] at hj
    split at hj
    · rw [hused] at hj
      cases hj
    · rename_i hij
      exact hlist j hij (h.free j hj)

/-- A join takes the participant at the front of the free list, -/
theorem join (h : PoolCovers self) {localPlayers : List Nat} {party : PartyPtr S}
    {stepId : StepId} {r : Except Int (ParticipantPtr S) × Participants E S}
    (hr : ParticipantsJoinOutcome self localPlayers party stepId r) : PoolCovers r.2 := by
  cases hr with
  | full hfull => exact h
  | joined i localIndex hplayers hroom hempty hfront hfree =>
    refine h.take hfree rfl hfront (fun _ => rfl) rfl fun j hij hj => ?_
    -- The id that is taken off the list is that of the new participant.
    rw [Ring.toList_pop _ hempty] at hj
    rcases List.mem_cons.mp hj with hfirst | hrest
    · exact absurd (slotOctet_injective h.capacity (hfirst.trans hfront)).symm hij
    · exact hrest

/-- and a migration takes the one with the given id. -/
theorem prepare (h : PoolCovers self) {participantId : UInt8} {party : PartyPtr S}
    {stepId : StepId} {r : Except Int (ParticipantPtr S) × Participants E S}
    (hr : ParticipantsPrepareOutcome self participantId party stepId r) : PoolCovers r.2 := by
  cases hr with
  | full hfull => exact h
  | used i hid hroom hused => exact h
  | prepared i hid hroom hfree =>
    have hslot : participantId = slotOctet i := by
      unfold slotOctet
      rw [← hid, UInt8.ofNat_toNat]
    -- The free list still has the id of the participant, so it can hold more than the free ones.
    exact h.take hfree rfl hslot (fun _ => rfl) rfl fun j _ hj => hj

/-- A used participant has the id of its slot. -/
theorem toNat_id (h : PoolCovers self) {i : ParticipantPtr S}
    (hused : (self.get i).isUsed = true) : (self.get i).id.toNat = i.val := by
  rw [h.id i hused, slotOctet_toNat h.capacity i]

/-- It is enough for composing. -/
theorem counted (h : PoolCovers self) : PoolCounted self where
  count := h.count
  leavingId := fun _ hused _ => h.toNat_id hused

/-- A used participant is given back. -/
theorem destroy (h : PoolCovers self) {i : ParticipantPtr S}
    (hused : (self.get i).isUsed = true) :
    Ensures (nimbleServerParticipantsDestroy self (self.get i).id) PoolCovers
      (fun _ => True) := by
  refine (h.counted.destroy hused (h.toNat_id hused)).mono ?_ (fun _ _ => trivial)
  rintro _ ⟨rfl, hfull⟩
  refine ⟨h.capacity, (h.counted.destroyed hused).count, ?_, ?_⟩
  · intro j hj
    obtain ⟨hij, hother⟩ := isUsed_of_destroyedPool hj
    rw [get_destroyedPool, if_neg hij]
    exact h.id j hother
  · intro j hj
    show slotOctet j ∈ (self.freeList.push (self.get i).id).toList
    -- The id that is put back is that of the participant's own slot.
    rw [Ring.toList_push _ _ hfull, List.mem_append, h.id i hused]
    rw [get_destroyedPool] at hj
    split at hj
    · rename_i hij
      exact .inr (List.mem_singleton.mpr (congrArg slotOctet hij.symm))
    · exact .inl (h.free j hj)

end PoolCovers

/-! ### Preparing parties -/

/-- Used participants stay used. -/
def UsedGrows (pool pool' : Participants E S) : Prop :=
  ∀ i, (pool.get i).isUsed = true → (pool'.get i).isUsed = true

/-- Preparing a participant sets one flag or none. -/
theorem ParticipantsPrepareOutcome.usedGrows {self : Participants E S} {participantId : UInt8}
    {party : PartyPtr S} {stepId : StepId} {r : Except Int (ParticipantPtr S) × Participants E S}
    (hr : ParticipantsPrepareOutcome self participantId party stepId r) :
    UsedGrows self r.2 := by
  cases hr with
  | full hfull => exact fun _ h => h
  | used i hid hroom hused => exact fun _ h => h
  | prepared i hid hroom hfree =>
    intro j hj
    show ((self.set i _).get j).isUsed = true
    rw [Participants.get_set]
    split
    · rfl
    · exact hj

/-- Every listed id is that of a used participant. -/
def ListedUsed (ids : List UInt8) (pool : Participants E S) : Prop :=
  ∀ id ∈ ids, ∃ i, id = slotOctet i ∧ (pool.get i).isUsed = true

/-- What is listed stays used. -/
theorem ListedUsed.mono {ids : List UInt8} {pool pool' : Participants E S}
    (h : ListedUsed ids pool) (hgrows : UsedGrows pool pool') : ListedUsed ids pool' := by
  intro id hid
  obtain ⟨i, hi, hused⟩ := h id hid
  exact ⟨i, hi, hgrows i hused⟩

/-- Preparing participants sets flags only. If none is refused, all of them are used. An error
has a negative code. Induction on the ids. -/
theorem prepareParticipants_listed (p : PartyPtr S) (stepId : StepId) :
    ∀ (ids : List UInt8) (created : List (ParticipantPtr S)) (pool : Participants E S),
      Ensures (prepareParticipants p stepId ids created pool)
        (fun r => UsedGrows pool r.2 ∧ (∀ code, r.1 = .error code → code < 0) ∧
          (∀ created', r.1 = .ok created' → ListedUsed ids r.2)) (fun _ => True) := by
  intro ids
  induction ids with
  | nil =>
    intro created pool
    refine ⟨fun _ h => h, by rintro code ⟨⟩, ?_⟩
    rintro created' - id ⟨⟩
  | cons id ids ih =>
    intro created pool
    unfold prepareParticipants
    refine Ensures.bind_of (ParticipantsPrepareOutcome pool id p stepId)
      ((nimbleServerParticipantsPrepare_ensures pool id p stepId).mono (fun _ h => h)
        (fun _ _ => trivial)) ?_
    intro r hr
    have hgrows := hr.usedGrows
    cases hr with
    | full hfull => exact ⟨hgrows, by rintro code ⟨⟩; decide, by rintro created' ⟨⟩⟩
    | used i hid hroom hused => exact ⟨hgrows, by rintro code ⟨⟩; decide, by rintro created' ⟨⟩⟩
    | prepared i hid hroom hfree =>
      refine (ih (created ++ [i]) (preparedPool pool i id p stepId)).mono ?_ (fun _ h => h)
      rintro r ⟨hrest, hcode, hlisted⟩
      refine ⟨fun j hj => hrest j (hgrows j hj), hcode, fun created' hok => ?_⟩
      rintro id' (_ | ⟨_, hmem⟩)
      · -- The participant that was just prepared is used, and stays so.
        refine ⟨i, ?_, hrest i ?_⟩
        · unfold slotOctet
          rw [← hid, UInt8.ofNat_toNat]
        · show ((pool.set i _).get i).isUsed = true
          rw [Participants.get_set_self]
      · exact hlisted created' hok id' hmem

/-- What preparing parties does to the pool: it sets flags only, the free list still covers
the rest, and if no party is refused then all listed ids are used. -/
structure PreparedPool (ids : List UInt8) (pool : Participants E S) (err : Int)
    (pool' : Participants E S) : Prop where
  covers : PoolCovers pool'
  grows : UsedGrows pool pool'
  listed : 0 ≤ err → ListedUsed ids pool'

/-- The preparation of one party. -/
theorem localPartiesPrepare_pool {s : Server E S} (h : PoolCovers s.game.participants)
    (stepId : StepId) (info : LocalPartyInfo) (uninitialized : Uninitialized S) :
    Ensures (nimbleServerLocalPartiesPrepare s stepId info uninitialized)
      (fun r => PreparedPool info.participantIds s.game.participants r.1
        r.2.game.participants) (fun _ => True) := by
  simp only [nimbleServerLocalPartiesPrepare, findFreePartyPlaceButDoNotReserveItYet]
  cases firstFreeParty s with
  | none =>
    have hneg : ¬0 ≤ NimbleServerErrOutOfParticipantMemory := by decide
    exact ⟨h, fun _ h => h, fun hpos => absurd hpos hneg⟩
  | some p =>
    have hcovers := prepareParticipants_ensures PoolCovers p stepId
      (fun _ _ _ h hr => h.prepare hr) info.participantIds [] s.game.participants h
    have hlisted := prepareParticipants_listed p stepId info.participantIds []
      s.game.participants
    refine ((hcovers.and hlisted).mono (fun _ h => h) (fun _ _ => trivial)).bind ?_
    rintro ⟨result, pool⟩ ⟨hpool, hgrows, hcode, hall⟩
    cases result with
    | error code =>
      have hneg := hcode code rfl
      exact ⟨hpool, hgrows, fun hpos => absurd hneg (Int.not_lt.mpr hpos)⟩
    | ok created =>
      dsimp only
      -- Everybody was prepared. The source can still stop here, and then nothing is claimed.
      split
      · trivial
      · exact ⟨hpool, hgrows, fun _ => hall created rfl⟩

/-- The ids that the infos list. -/
def listedIds (infos : List LocalPartyInfo) : List UInt8 :=
  infos.flatMap (·.participantIds)

/-- The loop over the parties. Induction on the infos. -/
theorem prepareParties_covers (uninitialized : Uninitialized S) :
    ∀ (infos : List LocalPartyInfo) (s : Server E S), PoolCovers s.game.participants →
      Ensures (prepareParties uninitialized infos s)
        (fun r => PreparedPool (listedIds infos) s.game.participants r.1
          r.2.game.participants) (fun _ => True) := by
  intro infos
  induction infos with
  | nil =>
    intro s h
    exact ⟨h, fun _ h => h, fun _ id hid => by cases hid⟩
  | cons info infos ih =>
    intro s h
    unfold prepareParties
    refine (localPartiesPrepare_pool h _ info uninitialized).bind ?_
    rintro ⟨err, s1⟩ hone
    dsimp only at hone ⊢
    -- An error returns at once, with what was prepared so far.
    split
    · rename_i hneg
      exact ⟨hone.covers, hone.grows, fun hpos => absurd hneg (Int.not_lt.mpr hpos)⟩
    · rename_i hpos
      refine (ih s1 hone.covers).mono ?_ (fun _ h => h)
      rintro ⟨err', s2⟩ hrest
      refine ⟨hrest.covers, fun i hi => hrest.grows i (hone.grows i hi), fun hpos' => ?_⟩
      intro id hid
      rcases List.mem_append.mp hid with hfirst | hlater
      · exact (hone.listed (Int.not_lt.mp hpos)).mono hrest.grows id hfirst
      · exact hrest.listed hpos' id hlater

/-- An id that is found in the infos is listed. -/
theorem mem_listedIds_of_contains {infos : List LocalPartyInfo} {id : UInt8}
    (h : containsParticipantId infos id = true) : id ∈ listedIds infos := by
  obtain ⟨info, hinfo, hid⟩ := List.any_eq_true.mp h
  exact List.mem_flatMap.mpr ⟨info, hinfo, List.contains_iff_mem.mp hid⟩

/-- Host migration keeps the invariant, with or without success. -/
theorem hostMigration_covers {s : Server E S} (h : PoolCovers s.game.participants)
    (infos : List LocalPartyInfo) (uninitialized : Uninitialized S) :
    Ensures (nimbleServerHostMigration s infos uninitialized)
      (fun r => PoolCovers r.2.game.participants) (fun _ => True) := by
  refine hostMigration_ensures h.capacity
    (prepareParties_covers uninitialized infos (resetParties s) h) (fun r hr _ => hr.covers) ?_
  intro r freeList hr hpos hlist
  refine ⟨h.capacity, hr.covers.count, hr.covers.id, fun i hi => ?_⟩
  show slotOctet i ∈ freeList.toList
  rw [hlist]
  refine List.mem_map_of_mem (List.mem_filter.mpr ⟨List.mem_finRange i, ?_⟩)
  rw [Bool.not_eq_true']
  refine Bool.eq_false_iff.mpr fun hlisted => ?_
  -- A listed participant is used at the end of the loop, and this one is not.
  obtain ⟨j, hij, hused⟩ := hr.listed hpos _ (mem_listedIds_of_contains hlisted)
  rw [← slotOctet_injective h.capacity hij] at hused
  exact absurd hused (Bool.eq_false_iff.mp hi)

/-! ### Every operation -/

/-- The operations of a running game keep it. -/
theorem poolCovers_poolRule : PoolRule (PoolCovers (E := E) (S := S)) (fun _ => True) where
  same := fun _ _ h hsame => h.of_same hsame
  join := fun _ _ _ _ _ h hr => h.join hr
  joinFault := fun _ _ _ _ => trivial
  destroy := fun _ _ h hused => h.destroy hused
  other := fun _ _ => trivial

/-- A new game has a new pool. -/
theorem StartsGame.poolInvariant {s : Server E S} (h : StartsGame s) :
    PoolInvariant s.game.participants := by
  obtain ⟨before, stepId, hinit⟩ := h
  exact ((nimbleServerReInitWithGame_ensures before stepId).of_ok hinit).1

/-- The invariant survives every operation, and a new game starts with it. -/
theorem step_poolCovers {s : Server E S} (h : PoolCovers s.game.participants) (op : Op S) :
    Ensures (s.step op) (fun s' => PoolCovers s'.game.participants) (fun _ => True) := by
  have hplay : op.IsPlay →
      Ensures (s.step op) (fun s' => PoolCovers s'.game.participants) (fun _ => True) :=
    fun hop => (poolCovers_poolRule.playKeeps fun _ _ => True).playRule.step h trivial hop
  cases op with
  | reInitWithGame stepId =>
    -- Whatever the pool was before, a new game sets it up.
    refine Ensures.of_eq_ok fun s' hs' => ?_
    have hgame : StartsGame s' := ⟨s, stepId, hs'⟩
    exact hgame.poolInvariant.covers
  | hostMigration infos uninitialized =>
    exact Ensures.map (hostMigration_covers h infos uninitialized)
  | connectionConnected t =>
    have hop : (Op.connectionConnected t : Op S).IsConnection := trivial
    refine (step_isConnection_ensures s hop).mono ?_ (fun _ _ => trivial)
    intro s' hs'
    rw [hs'.1]
    exact h
  | connectionDisconnected t =>
    exact Ensures.map ((connectionDisconnected_ensures
      (fun s' : Server E S => PoolCovers s'.game.participants) h t fun _ _ _ => h).mono
      (fun _ h => h) (fun _ _ => trivial))
  | tick => exact hplay (.inr rfl)
  | _ => exact hplay (.inl trivial)

/-- The invariant holds in every state that a server with a game reaches. -/
theorem poolCovers_reachable {start s : Server E S} (hstart : StartsGame start)
    {allowed : Server E S → Op S → Prop} (hrun : Reaches Server.step allowed start s) :
    PoolCovers s.game.participants :=
  hrun.invariant (fun s => PoolCovers s.game.participants) hstart.poolInvariant.covers
    fun _ op h _ => step_poolCovers h op

end NimbleServer
