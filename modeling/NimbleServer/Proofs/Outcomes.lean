import NimbleServer.Proofs.StepRules

/-!
# `NimbleServer.Proofs.Outcomes`: how joins, ticks and connect requests end

A join, the tick of one party, and a connect request each end in one of a few ways. An
inductive predicate names the ways: a constructor holds what was true before and what the
server is afterwards. For each function one theorem says that these are all the ways it can
end, and in which states it can stop instead (`joinGame_ensures`, `tickParty_ensures`,
`acceptConnectRequest_ensures`). The invariants are then proved by cases on the outcome.

The other commands of a datagram touch only what a connection keeps about its own traffic
(`SameSlots`), and a lost transport connection takes at most one party out of use
(`connectionDisconnected_ensures`).
-/

set_option autoImplicit false

namespace NimbleServer

open NimbleServer.Lib

variable {E : External} {S : Setup}

/-! ### Filling a circular buffer -/

/-- Writing octets to an empty buffer that has room for them queues them in order. -/
theorem writeAll_ensures {α : Type} (list : FreeList) (octet : α → UInt8) (l : List α)
    (hroom : l.length ≤ NIMBLE_SERVER_CIRCULAR_BUFFER_SIZE) (buffer : CircularBuffer) :
    Ensures (l.foldlM (fun buffer x => nimbleServerCircularBufferWrite list buffer (octet x))
        (nimbleServerCircularBufferInit buffer))
      (fun buffer => buffer.toList = l.map octet) (fun _ => False) := by
  refine ensures_foldlM_done
    (fun done (buffer : CircularBuffer) => buffer.toList = done.map octet) _
    (Ring.toList_clear _ _) ?_
  intro done x rest buffer hsplit hqueued
  have hlength : buffer.count = done.length := by
    rw [← Ring.length_toList, hqueued, List.length_map]
  have hdone : done.length < l.length := by
    rw [hsplit, List.length_append, List.length_cons]
    omega
  -- Fewer octets than the buffer has room for were written so far.
  have hfull : buffer.isFull = false := by
    refine Bool.eq_false_iff.mpr fun hfull => ?_
    have : buffer.count = NIMBLE_SERVER_CIRCULAR_BUFFER_SIZE := (Ring.isFull_iff _).mp hfull
    omega
  unfold nimbleServerCircularBufferWrite
  rw [hfull]
  show (buffer.push (octet x)).toList = (done ++ [x]).map octet
  rw [Ring.toList_push _ _ hfull, hqueued, List.map_append]
  rfl

/-! ### Taking and giving back a participant -/

/-- How `nimbleServerParticipantsJoin` ends. -/
inductive ParticipantsJoinOutcome (self : Participants E S) (localPlayers : List Nat)
    (party : PartyPtr S) (expectedStepId : StepId) :
    Except Int (ParticipantPtr S) × Participants E S → Prop
  | full (hfull : S.maxParticipantCount ≤ self.participantCount) :
      ParticipantsJoinOutcome self localPlayers party expectedStepId
        (.error NimbleServerErrSessionFull, self)
  | joined (i : ParticipantPtr S) (localIndex : Nat) (hplayers : localPlayers = [localIndex])
      (hroom : self.participantCount < S.maxParticipantCount)
      (hempty : self.freeList.isEmpty = false) (hfront : self.freeList.front = UInt8.ofNat i.val)
      (hfree : (self.get i).isUsed = false) :
      ParticipantsJoinOutcome self localPlayers party expectedStepId
        (.ok i, { self.set i
            { nimbleServerParticipantReInit (self.get i) party expectedStepId with
                localIndex, isUsed := true, state := .justJoined, id := self.freeList.front } with
          participantCount := self.participantCount + 1
          freeList := self.freeList.pop
          log := .joined i :: self.log })

/-- A join that succeeds takes an unused slot for a participant that just joined. -/
theorem ParticipantsJoinOutcome.taken {self participants : Participants E S}
    {localPlayers : List Nat} {party : PartyPtr S} {expectedStepId : StepId}
    {i : ParticipantPtr S}
    (h : ParticipantsJoinOutcome self localPlayers party expectedStepId (.ok i, participants)) :
    (self.get i).isUsed = false ∧ ∃ x : Participant E S, x.isUsed = true ∧
      x.inParty = some party ∧ x.state = .justJoined ∧
      x.steps = E.nbsStepsReInit (self.get i).steps expectedStepId ∧
      (∀ j, participants.get j = if i = j then x else self.get j) ∧
      participants.log = .joined i :: self.log := by
  cases h with
  | joined _ localIndex hplayers hroom hempty hfront hfree =>
    exact ⟨hfree, _, rfl, rfl, rfl, rfl, fun j => Participants.get_set self i j _, rfl⟩

/-- Where `nimbleServerParticipantsJoin` can stop. -/
inductive ParticipantsJoinFault (self : Participants E S) : Fault → Prop
  | players : ParticipantsJoinFault self .localParticipantCount
  | empty (hroom : self.participantCount < S.maxParticipantCount)
      (hempty : self.freeList.isEmpty = true) :
      ParticipantsJoinFault self (.circularBufferEmpty .participants)
  | illegal (hempty : self.freeList.isEmpty = false)
      (hfront : S.maxParticipantCount ≤ self.freeList.front.toNat) :
      ParticipantsJoinFault self .illegalParticipantId
  | used (i : ParticipantPtr S) (hempty : self.freeList.isEmpty = false)
      (hfront : self.freeList.front = UInt8.ofNat i.val) (hused : (self.get i).isUsed = true) :
      ParticipantsJoinFault self .participantAlreadyUsed

/-- These are all the ways a participant joins, and all the ways the join stops. -/
theorem nimbleServerParticipantsJoin_ensures (self : Participants E S) (localPlayers : List Nat)
    (party : PartyPtr S) (expectedStepId : StepId) :
    Ensures (nimbleServerParticipantsJoin self localPlayers party expectedStepId)
      (ParticipantsJoinOutcome self localPlayers party expectedStepId)
      (ParticipantsJoinFault self) := by
  unfold nimbleServerParticipantsJoin
  split
  · rename_i localIndex
    split
    · rename_i hfull
      exact .full (by omega)
    · rename_i hroom
      -- The id comes from the free list, which has to have one.
      refine Ensures.bind_of (fun r => self.freeList.isEmpty = false ∧
        r = (self.freeList.front, self.freeList.pop)) ?_ ?_
      · unfold nimbleServerCircularBufferRead
        split
        · rename_i hempty
          exact .empty (by omega) hempty
        · rename_i hempty
          exact ⟨Bool.eq_false_iff.mpr hempty, rfl⟩
      · rintro ⟨participantId, freeList⟩ ⟨hempty, hread⟩
        cases hread
        dsimp only
        -- The id names a slot. It can be out of range or in use only if the list is wrong.
        split
        · rename_i hlt
          have hfront : self.freeList.front
              = UInt8.ofNat (⟨self.freeList.front.toNat, hlt⟩ : ParticipantPtr S).val :=
            UInt8.ofNat_toNat.symm
          split
          · rename_i hused
            exact .used _ hempty hfront hused
          · rename_i hused
            exact .joined _ localIndex rfl (by omega) hempty hfront (Bool.eq_false_iff.mpr hused)
        · rename_i hge
          exact .illegal hempty (by omega)
  · exact .players

/-! ### Looking for the party of a connection -/

/-- The scan returns the first party that matches. It stops only when it runs past the
parties, none of which matches. Induction on the slots that remain. -/
theorem findPartyForTransportFrom_ensures (s : Server E S) (transportConnectionId : UInt8) :
    ∀ (remaining index : Nat),
      Ensures (findPartyForTransportFrom s transportConnectionId remaining index)
        (fun r => match r with
          | some p => index ≤ p.val ∧ p.val < index + remaining ∧
              isPartyForTransport s transportConnectionId (s.party p) = true
          | none => (index ≤ S.maxConnectionCount → index + remaining ≤ S.maxConnectionCount) ∧
              ∀ p : PartyPtr S, index ≤ p.val → p.val < index + remaining →
                isPartyForTransport s transportConnectionId (s.party p) = false)
        (fun fault => fault = .partyOutOfBounds ∧ S.maxConnectionCount < index + remaining ∧
          ∀ p : PartyPtr S, index ≤ p.val →
            isPartyForTransport s transportConnectionId (s.party p) = false) := by
  intro remaining
  induction remaining with
  | zero =>
    intro index
    refine ⟨fun h => h, ?_⟩
    intro p h1 h2
    omega
  | succ remaining ih =>
    intro index
    unfold findPartyForTransportFrom
    split
    · rename_i hlt
      split
      · rename_i hmatch
        exact ⟨Nat.le_refl index, by dsimp only; omega, hmatch⟩
      · rename_i hmatch
        have hhere : isPartyForTransport s transportConnectionId (s.party ⟨index, hlt⟩) = false :=
          Bool.eq_false_iff.mpr hmatch
        -- The slot at `index` does not match, so the rest of the scan decides.
        refine (ih (index + 1)).mono ?_ ?_
        · intro r hr
          cases r with
          | some p =>
            obtain ⟨h1, h2, h3⟩ := hr
            exact ⟨by omega, by omega, h3⟩
          | none =>
            obtain ⟨hfits, hnone⟩ := hr
            refine ⟨fun _ => by have := hfits hlt; omega, ?_⟩
            intro p h1 h2
            by_cases hp : p.val = index
            · have : p = ⟨index, hlt⟩ := Fin.ext hp
              rw [this]
              exact hhere
            · exact hnone p (by omega) (by omega)
        · rintro fault ⟨hfault, hlong, hnone⟩
          refine ⟨hfault, by omega, ?_⟩
          intro p h1
          by_cases hp : p.val = index
          · have : p = ⟨index, hlt⟩ := Fin.ext hp
            rw [this]
            exact hhere
          · exact hnone p (by omega)
    · rename_i hge
      refine ⟨rfl, by omega, ?_⟩
      intro p h1
      have := p.isLt
      omega

/-- The lookup returns a party that matches, or there is none among the first
`partiesCount`. -/
theorem findPartyForTransport_ensures (s : Server E S) (transportConnectionId : UInt8) :
    Ensures (nimbleServerLocalPartiesFindPartyForTransport s transportConnectionId)
      (fun r => match r with
        | some p => p.val < s.localParties.partiesCount ∧
            isPartyForTransport s transportConnectionId (s.party p) = true
        | none => s.localParties.partiesCount ≤ S.maxConnectionCount ∧
            ∀ p : PartyPtr S, p.val < s.localParties.partiesCount →
              isPartyForTransport s transportConnectionId (s.party p) = false)
      (fun fault => fault = .partyOutOfBounds ∧
        S.maxConnectionCount < s.localParties.partiesCount ∧
        ∀ p : PartyPtr S, isPartyForTransport s transportConnectionId (s.party p) = false) := by
  refine (findPartyForTransportFrom_ensures s transportConnectionId
    s.localParties.partiesCount 0).mono ?_ ?_
  · intro r hr
    cases r with
    | some p =>
      obtain ⟨-, h2, h3⟩ := hr
      exact ⟨by omega, h3⟩
    | none =>
      obtain ⟨hfits, hnone⟩ := hr
      refine ⟨by have := hfits (Nat.zero_le _); omega, ?_⟩
      intro p hp
      exact hnone p (Nat.zero_le _) (by omega)
  · rintro fault ⟨hfault, hlong, hnone⟩
    exact ⟨hfault, by omega, fun p => hnone p (Nat.zero_le _)⟩

/-! ### Joining -/

/-- What a join does last: it sets the reconnect limit of the party and assigns the party to
the connection. -/
def assignParty (s : Server E S) (t : ConnectionPtr) (p : PartyPtr S) : Server E S :=
  (s.setParty p { s.party p with
    waitingForReconnectMaxTimer := S.maxWaitingForReconnectTicks }).setConnection t
    { s.connection t with assignedParty := some p }

/-- A slot that gets its id before it is taken. -/
def nameParty (s : Server E S) (p : PartyPtr S) : Server E S :=
  s.setParty p { s.party p with id := UInt8.ofNat p.val }

/-- The parties after one of them was assigned. -/
theorem party_assignParty (s : Server E S) (t : ConnectionPtr) (p q : PartyPtr S) :
    (assignParty s t p).party q
      = if p = q then { s.party p with
          waitingForReconnectMaxTimer := S.maxWaitingForReconnectTicks }
        else s.party q :=
  Server.party_setParty s p q _

/-- The parties after one of them got its id. -/
theorem party_nameParty (s : Server E S) (p q : PartyPtr S) :
    (nameParty s p).party q
      = if p = q then { s.party p with id := UInt8.ofNat p.val } else s.party q :=
  Server.party_setParty s p q _

/-- The parties after one of them was added. -/
theorem party_addParty (s : Server E S) (p q : PartyPtr S)
    (transportConnection : Option ConnectionPtr) (created : List (ParticipantPtr S)) :
    (addParty s p transportConnection created).party q
      = if p = q then { nimbleServerLocalPartyReInit (s.party p) transportConnection with
          isUsed := true, participantReferences := created }
        else s.party q :=
  LocalParties.get_set s.localParties p q _

/-- The party that a join creates. -/
def createdParty (self : LocalParty S) (p : PartyPtr S) (t : ConnectionPtr)
    (i : ParticipantPtr S) : LocalParty S :=
  { nimbleServerLocalPartyReInit self (some t) with
      id := UInt8.ofNat p.val
      isUsed := true
      participantReferences := [i]
      waitingForReconnectMaxTimer := S.maxWaitingForReconnectTicks }

/-- The parties after a join created one of them. -/
theorem party_created (s : Server E S) (t : ConnectionPtr) (p q : PartyPtr S)
    (participants : Participants E S) (i : ParticipantPtr S) :
    (assignParty (addParty ((nameParty s p).setParticipants participants) p (some t) [i]) t
      p).party q
      = if p = q then createdParty (s.party p) p t i else s.party q := by
  have hnamed : ∀ q, ((nameParty s p).setParticipants participants).party q
      = (nameParty s p).party q := fun _ => rfl
  rw [party_assignParty, party_addParty, party_addParty, if_pos rfl, hnamed, hnamed,
    party_nameParty, party_nameParty, if_pos rfl]
  split
  · rfl
  · rfl

/-- The party that a client rejoins. -/
def rejoinedParty (self : LocalParty S) (t : ConnectionPtr) : LocalParty S :=
  { nimbleServerLocalPartyRejoin self t with
      waitingForReconnectMaxTimer := S.maxWaitingForReconnectTicks }

/-- The parties after a client rejoined one of them. -/
theorem party_rejoined (s : Server E S) (t : ConnectionPtr) (p q : PartyPtr S) :
    (assignParty (s.setParty p (nimbleServerLocalPartyRejoin (s.party p) t)) t p).party q
      = if p = q then rejoinedParty (s.party p) t else s.party q := by
  rw [party_assignParty, Server.party_setParty, Server.party_setParty, if_pos rfl]
  split
  · rfl
  · rfl

/-- How `joinGame` ends. -/
inductive JoinOutcome (s : Server E S) (t : ConnectionPtr) (request : JoinGameRequest)
    (uninitialized : Uninitialized S) : Except Int (PartyPtr S) × Server E S → Prop
  | noPlace (code : Int) (hplace : firstFreeParty s = none) :
      JoinOutcome s t request uninitialized (.error code, s)
  -- The slot keeps its id although nobody joins it.
  | sessionFull (code : Int) (p : PartyPtr S) (hplace : firstFreeParty s = some p) :
      JoinOutcome s t request uninitialized (.error code, nameParty s p)
  -- The connection already has a party. The request is not looked at.
  | found (p : PartyPtr S) (hcount : p.val < s.localParties.partiesCount)
      (hmatch : isPartyForTransport s (s.connection t).transportConnectionId (s.party p) = true) :
      JoinOutcome s t request uninitialized (.ok p, assignParty s t p)
  -- The number of players is wrong, but the source goes on with a pointer it never set.
  | unassigned (p q : PartyPtr S) (htype : request.joinGameType = .partySecret)
      (hfind : nimbleServerLocalPartiesFindPartyForTransport s
        (s.connection t).transportConnectionId = .ok none)
      (hnamed : q.val = request.partyId.toNat)
      (hcount : (s.party q).participantReferences.length ≠ request.playerCount)
      (hpointer : uninitialized.party = some p) :
      JoinOutcome s t request uninitialized (.ok p, assignParty s t p)
  | rejoined (p : PartyPtr S) (htype : request.joinGameType = .partySecret)
      (hfind : nimbleServerLocalPartiesFindPartyForTransport s
        (s.connection t).transportConnectionId = .ok none)
      (hnamed : p.val = request.partyId.toNat)
      (hcount : (s.party p).participantReferences.length = request.playerCount) :
      JoinOutcome s t request uninitialized
        (.ok p, assignParty (s.setParty p (nimbleServerLocalPartyRejoin (s.party p) t)) t p)
  | created (p : PartyPtr S) (i : ParticipantPtr S) (participants : Participants E S)
      (htype : request.joinGameType = .noSecret)
      (hfind : nimbleServerLocalPartiesFindPartyForTransport s
        (s.connection t).transportConnectionId = .ok none)
      (hplace : firstFreeParty s = some p)
      (hjoin : ParticipantsJoinOutcome s.game.participants request.players p
        (E.expectedWriteId s.game.authoritativeSteps) (.ok i, participants)) :
      JoinOutcome s t request uninitialized (.ok p, assignParty
        (addParty ((nameParty s p).setParticipants participants) p (some t) [i]) t p)

/-- A join composes nothing. -/
theorem JoinOutcome.authoritativeSteps {s : Server E S} {t : ConnectionPtr}
    {request : JoinGameRequest} {uninitialized : Uninitialized S}
    {r : Except Int (PartyPtr S) × Server E S} (h : JoinOutcome s t request uninitialized r) :
    r.2.game.authoritativeSteps = s.game.authoritativeSteps := by
  cases h <;> rfl

/-- Where `joinGame` can stop. -/
inductive JoinFault (s : Server E S) : Fault → Prop
  | outOfBounds (hcount : S.maxConnectionCount < s.localParties.partiesCount) :
      JoinFault s .partyOutOfBounds
  | partyId : JoinFault s .illegalPartyId
  | pointer : JoinFault s .uninitializedPointer
  | participants (fault : Fault) (h : ParticipantsJoinFault s.game.participants fault) :
      JoinFault s fault

/-- The slot that is found is not used. -/
theorem firstFreeParty_isUsed {s : Server E S} {p : PartyPtr S}
    (h : firstFreeParty s = some p) : (s.party p).isUsed = false := by
  have := List.find?_some h
  simpa using this

/-- Without a slot, every party is used. -/
theorem firstFreeParty_none {s : Server E S} (h : firstFreeParty s = none) (p : PartyPtr S) :
    (s.party p).isUsed = true := by
  have := List.find?_eq_none.mp h p (List.mem_finRange p)
  simpa using this

/-- How `nimbleServerLocalPartiesCreate` ends. -/
theorem nimbleServerLocalPartiesCreate_ensures (s : Server E S) (t : ConnectionPtr)
    (joinInfo : List Nat) (stepId : StepId) :
    Ensures (nimbleServerLocalPartiesCreate s t joinInfo stepId)
      (fun r => (∃ code, firstFreeParty s = none ∧ r = (.error code, s)) ∨
        (∃ code p, firstFreeParty s = some p ∧ r = (.error code, nameParty s p)) ∨
        ∃ p i participants, firstFreeParty s = some p ∧
          ParticipantsJoinOutcome s.game.participants joinInfo p stepId (.ok i, participants) ∧
          r = (.ok p, addParty ((nameParty s p).setParticipants participants) p (some t) [i]))
      (ParticipantsJoinFault s.game.participants) := by
  simp only [nimbleServerLocalPartiesCreate, findFreePartyPlaceButDoNotReserveItYet]
  cases hplace : firstFreeParty s with
  | none => exact .inl ⟨_, rfl, rfl⟩
  | some p =>
    refine (nimbleServerParticipantsJoin_ensures s.game.participants joinInfo p stepId).bind ?_
    rintro ⟨result, participants⟩ hjoin
    cases result with
    | error code =>
      refine .inr (.inl ⟨code, p, rfl, ?_⟩)
      cases hjoin
      rfl
    | ok i => exact .inr (.inr ⟨p, i, participants, rfl, hjoin, rfl⟩)

/-- What a join comes to after `joinLocalParty`, if the party pointer is set. -/
def JoinLocalOutcome (s : Server E S) (t : ConnectionPtr) (request : JoinGameRequest)
    (uninitialized : Uninitialized S) : Except Int (Option (PartyPtr S)) × Server E S → Prop
  | (.error code, s') => JoinOutcome s t request uninitialized (.error code, s')
  | (.ok party, s') => ∀ p, party.or uninitialized.party = some p →
      JoinOutcome s t request uninitialized (.ok p, assignParty s' t p)

/-- The outcomes of a join, up to the assignment of the party to the connection. -/
theorem joinLocalParty_ensures (s : Server E S) (t : ConnectionPtr) (request : JoinGameRequest)
    (uninitialized : Uninitialized S) :
    Ensures (joinLocalParty s t request) (JoinLocalOutcome s t request uninitialized)
      (JoinFault s) := by
  unfold joinLocalParty
  have hlookup := findPartyForTransport_ensures s (s.connection t).transportConnectionId
  cases hfind : nimbleServerLocalPartiesFindPartyForTransport s
      (s.connection t).transportConnectionId with
  | error fault =>
    obtain ⟨rfl, hlong, -⟩ := hlookup.of_error hfind
    exact .outOfBounds hlong
  | ok r =>
    have hr := hlookup.of_ok hfind
    cases r with
    | some p =>
      intro q hq
      -- The lookup comes first, for both types of joins.
      cases hq
      exact .found p hr.1 hr.2
    | none =>
      dsimp only [bind, Except.bind]
      cases htype : request.joinGameType with
      | partySecret =>
        refine Ensures.bind_of (fun q : PartyPtr S => q.val = request.partyId.toNat) ?_ ?_
        · -- The party of the request is a slot number. Nothing asks whether it is in use.
          unfold nimbleServerLocalPartiesFindParty
          split
          · rfl
          · exact .partyId
        · intro q hq
          split
          · -- Wrong number of players: `p` is whatever the pointer holds.
            rename_i hcount
            intro p hp
            exact .unassigned p q htype hfind hq hcount hp
          · rename_i hcount
            intro p hp
            cases hp
            exact .rejoined q htype hfind hq (not_not.mp hcount)
      | noSecret =>
        refine (nimbleServerLocalPartiesCreate_ensures s t request.players _).mono
          (fun _ h => h) (fun _ h => JoinFault.participants _ h) |>.bind ?_
        rintro ⟨result, s'⟩ (⟨code, hplace, heq⟩ | ⟨code, p, hplace, heq⟩ |
          ⟨p, i, participants, hplace, hjoin, heq⟩)
        · cases heq
          exact .noPlace code hplace
        · cases heq
          exact .sessionFull code p hplace
        · cases heq
          intro q hq
          cases hq
          exact .created p i participants htype hfind hplace hjoin

/-- These are all the ways a join ends, and all the ways it stops. -/
theorem joinGame_ensures (s : Server E S) (t : ConnectionPtr) (request : JoinGameRequest)
    (uninitialized : Uninitialized S) :
    Ensures (joinGame s t request uninitialized) (JoinOutcome s t request uninitialized)
      (JoinFault s) := by
  unfold joinGame
  refine (joinLocalParty_ensures s t request uninitialized).bind ?_
  rintro ⟨result, s'⟩ hresult
  cases result with
  | error code => exact hresult
  | ok party =>
    dsimp only
    cases hp : party.or uninitialized.party with
    | none => exact .pointer
    | some p => exact hresult p hp

/-! ### Ticking a party -/

/-- Marking as leaving is assigning a state. -/
theorem markReferencesAsLeaving_eq (s : Server E S) (references : List (ParticipantPtr S)) :
    markReferencesAsLeaving s references = setReferencedStates s references .leaving :=
  rfl

/-- The server after `destroyParty`. -/
def dissolveParty (s : Server E S) (p : PartyPtr S) : Server E S :=
  let marked := markReferencesAsLeaving
    (s.setParty p (nimbleServerLocalPartyDestroy (s.party p))) (s.party p).participantReferences
  { marked with localParties := {
    marked.localParties.set p (nimbleServerLocalPartyReset (marked.party p)) with
    partiesCount := marked.localParties.partiesCount - 1 } }

/-- The dissolved party is reset, and the others are as before. -/
theorem party_dissolveParty (s : Server E S) (p q : PartyPtr S) :
    (dissolveParty s p).party q
      = if p = q then nimbleServerLocalPartyReset (nimbleServerLocalPartyDestroy (s.party p))
        else s.party q := by
  have hmarked : (markReferencesAsLeaving (s.setParty p (nimbleServerLocalPartyDestroy
      (s.party p))) (s.party p).participantReferences).localParties
      = (s.setParty p (nimbleServerLocalPartyDestroy (s.party p))).localParties :=
    setReferencedStates_localParties _ _ _
  show ((markReferencesAsLeaving (s.setParty p (nimbleServerLocalPartyDestroy
      (s.party p))) (s.party p).participantReferences).localParties.set p
      (nimbleServerLocalPartyReset ((markReferencesAsLeaving (s.setParty p
        (nimbleServerLocalPartyDestroy (s.party p)))
        (s.party p).participantReferences).localParties.get p))).get q = _
  rw [hmarked, LocalParties.get_set]
  show (if p = q then nimbleServerLocalPartyReset ((s.setParty p _).party p)
    else (s.setParty p _).party q) = _
  rw [Server.party_setParty, Server.party_setParty, if_pos rfl]
  by_cases hpq : p = q
  · rw [if_pos hpq, if_pos hpq]
  · rw [if_neg hpq, if_neg hpq, if_neg hpq]

/-- The participants of the dissolved party are leaving. -/
theorem participant_dissolveParty (s : Server E S) (p : PartyPtr S) (i : ParticipantPtr S) :
    (dissolveParty s p).participant i
      = if i ∈ (s.party p).participantReferences then { s.participant i with state := .leaving }
        else s.participant i :=
  participant_setReferencedStates _ _ _ i

/-- Dissolving a party counts one party less, -/
@[simp] theorem dissolveParty_partiesCount (s : Server E S) (p : PartyPtr S) :
    (dissolveParty s p).localParties.partiesCount = s.localParties.partiesCount - 1 := by
  simp [dissolveParty, markReferencesAsLeaving_eq, Server.setParty]

/-- touches no transport connection, -/
@[simp] theorem dissolveParty_transportConnections (s : Server E S) (p : PartyPtr S) :
    (dissolveParty s p).transportConnections = s.transportConnections := by
  simp [dissolveParty, markReferencesAsLeaving_eq, Server.setParty]

/-- not the list of the free ones, -/
@[simp] theorem dissolveParty_freeTransportConnectionList (s : Server E S) (p : PartyPtr S) :
    (dissolveParty s p).freeTransportConnectionList = s.freeTransportConnectionList := by
  simp [dissolveParty, markReferencesAsLeaving_eq]

/-- not the authoritative steps, -/
@[simp] theorem dissolveParty_authoritativeSteps (s : Server E S) (p : PartyPtr S) :
    (dissolveParty s p).game.authoritativeSteps = s.game.authoritativeSteps := by
  simp [dissolveParty, markReferencesAsLeaving_eq]

/-- and is no event. -/
@[simp] theorem dissolveParty_log (s : Server E S) (p : PartyPtr S) :
    (dissolveParty s p).game.participants.log = s.game.participants.log := by
  simp [dissolveParty, markReferencesAsLeaving_eq]

/-- The server after `disconnectTransportConnection`. -/
def releaseConnection (s : Server E S) (t : ConnectionPtr) : Server E S :=
  { s with freeTransportConnectionList :=
    s.freeTransportConnectionList.push (s.connection t).id }.setConnection t
    (transportConnectionDisconnect (s.connection t))

/-- The party with its reconnect timer advanced. -/
def advanceTimer (s : Server E S) (p : PartyPtr S) : Server E S :=
  s.setParty p (tickWaitingForReconnect (s.party p)).2

/-- The parties after the timer of one of them was advanced. -/
theorem party_advanceTimer (s : Server E S) (p q : PartyPtr S) :
    (advanceTimer s p).party q
      = if p = q then (tickWaitingForReconnect (s.party p)).2 else s.party q :=
  Server.party_setParty s p q _

/-- The party after it was dissolved. -/
def dissolvedParty (self : LocalParty S) : LocalParty S :=
  nimbleServerLocalPartyReset (nimbleServerLocalPartyDestroy self)

/-- The parties after one was dissolved. The timer does not matter: it is reset. -/
theorem party_dissolved (s : Server E S) (p q : PartyPtr S) :
    (dissolveParty (advanceTimer s p) p).party q
      = if p = q then dissolvedParty (s.party p) else s.party q := by
  rw [party_dissolveParty, party_advanceTimer, party_advanceTimer, if_pos rfl]
  split
  · rfl
  · rfl

/-- The participants after their party was dissolved. -/
theorem participant_dissolved (s : Server E S) (p : PartyPtr S) (i : ParticipantPtr S) :
    (dissolveParty (advanceTimer s p) p).participant i
      = if i ∈ (s.party p).participantReferences then { s.participant i with state := .leaving }
        else s.participant i := by
  rw [participant_dissolveParty, party_advanceTimer, if_pos rfl]
  rfl

/-- The parties after one of them lost its client. -/
theorem party_lost (s : Server E S) (p q : PartyPtr S) (impedingDisconnectCounter : Nat) :
    (setToWaitingForReJoin (s.setParty p { s.party p with impedingDisconnectCounter }) p).party q
      = if p = q then { s.party p with
          impedingDisconnectCounter, state := .waitingForReJoin, waitingForReconnectTimer := 0 }
        else s.party q := by
  have hstates : ∀ (s1 : Server E S) references state,
      (setReferencedStates s1 references state).party q = s1.party q := by
    intro s1 references state
    unfold Server.party
    rw [setReferencedStates_localParties]
  unfold setToWaitingForReJoin
  rw [hstates, Server.party_setParty, Server.party_setParty, Server.party_setParty, if_pos rfl]
  split
  · rfl
  · rfl

/-- The participants after their party lost its client. -/
theorem participant_lost (s : Server E S) (p : PartyPtr S) (impedingDisconnectCounter : Nat)
    (i : ParticipantPtr S) :
    (setToWaitingForReJoin (s.setParty p { s.party p with impedingDisconnectCounter })
      p).participant i
      = if i ∈ (s.party p).participantReferences then
          { s.participant i with state := .waitingForRejoin }
        else s.participant i := by
  unfold setToWaitingForReJoin
  rw [participant_setReferencedStates, Server.party_setParty, if_pos rfl]
  rfl

/-- How `tickParty` ends. -/
inductive TickOutcome (s : Server E S) (p : PartyPtr S) : Server E S → Prop
  | unused (hused : (s.party p).isUsed = false) : TickOutcome s p s
  | kept (impedingDisconnectCounter : Nat) (hused : (s.party p).isUsed = true)
      (hstate : (s.party p).state = .normal)
      (hcounter : impedingDisconnectCounter ≤ (s.party p).impedingDisconnectCounter ∨
        isFailingToProvideStepsInTime (s.party p).quality = true) :
      TickOutcome s p (s.setParty p { s.party p with impedingDisconnectCounter })
  | lost (impedingDisconnectCounter : Nat) (hused : (s.party p).isUsed = true)
      (hstate : (s.party p).state = .normal)
      (hfailing : isFailingToProvideStepsInTime (s.party p).quality = true) :
      TickOutcome s p (setToWaitingForReJoin
        (s.setParty p { s.party p with impedingDisconnectCounter }) p)
  | waited (hused : (s.party p).isUsed = true)
      (hstate : (s.party p).state = .waitingForReJoin) : TickOutcome s p (advanceTimer s p)
  | stale (hused : (s.party p).isUsed = true) (hstate : (s.party p).state = .dissolved) :
      TickOutcome s p s
  | dissolved (hused : (s.party p).isUsed = true)
      (hstate : (s.party p).state = .waitingForReJoin)
      (hcount : s.localParties.partiesCount ≠ 0)
      (hconnection : (s.party p).transportConnection = none) :
      TickOutcome s p (dissolveParty (advanceTimer s p) p)
  | disconnected (t : ConnectionPtr) (hused : (s.party p).isUsed = true)
      (hstate : (s.party p).state = .waitingForReJoin)
      (hcount : s.localParties.partiesCount ≠ 0)
      (hconnection : (s.party p).transportConnection = some t)
      (hfull : s.freeTransportConnectionList.isFull = false) :
      TickOutcome s p (releaseConnection (dissolveParty (advanceTimer s p) p) t)

/-- A tick composes nothing and stores nothing. -/
theorem TickOutcome.log {s s' : Server E S} {p : PartyPtr S} (h : TickOutcome s p s') :
    s'.game.participants.log = s.game.participants.log := by
  cases h with
  | unused _ | kept _ _ _ _ | waited _ _ | stale _ _ => rfl
  | lost counter hused hstate hfailing => exact setReferencedStates_log _ _ _
  | dissolved hused hstate hcount hconnection => exact dissolveParty_log _ p
  | disconnected t hused hstate hcount hconnection hfull => exact dissolveParty_log _ p

/-- A tick leaves the authoritative steps alone. -/
theorem TickOutcome.authoritativeSteps {s s' : Server E S} {p : PartyPtr S}
    (h : TickOutcome s p s') : s'.game.authoritativeSteps = s.game.authoritativeSteps := by
  cases h with
  | unused _ | kept _ _ _ _ | waited _ _ | stale _ _ => rfl
  | lost counter hused hstate hfailing => exact setReferencedStates_authoritativeSteps _ _ _
  | dissolved hused hstate hcount hconnection => exact dissolveParty_authoritativeSteps _ p
  | disconnected t hused hstate hcount hconnection hfull =>
    exact dissolveParty_authoritativeSteps _ p

/-- Where `tickParty` can stop. -/
inductive TickFault (s : Server E S) (p : PartyPtr S) : Fault → Prop
  | partiesCount (hused : (s.party p).isUsed = true)
      (hcount : s.localParties.partiesCount = 0) : TickFault s p .partiesCount
  | overwrite (t : ConnectionPtr) (hused : (s.party p).isUsed = true)
      (hconnection : (s.party p).transportConnection = some t)
      (hfull : s.freeTransportConnectionList.isFull = true) :
      TickFault s p (.circularBufferOverwrite .transportConnections)

/-- The only reason to disconnect is that steps do not come in time. -/
theorem checkIfShouldDisconnect_eq (quality : ConnectionQuality) :
    nimbleServerConnectionQualityCheckIfShouldDisconnect quality
      = isFailingToProvideStepsInTime quality := by
  unfold nimbleServerConnectionQualityCheckIfShouldDisconnect evaluate
  cases isFailingToProvideStepsInTime quality with
  | true => rfl
  | false => rfl

/-- The tick of a party in play keeps it, or loses its client. -/
theorem tickNormal_outcome {s : Server E S} {p : PartyPtr S}
    (hused : (s.party p).isUsed = true) (hstate : (s.party p).state = .normal) :
    TickOutcome s p (tickNormal s p) := by
  unfold tickNormal nimbleServerConnectionQualityDelayedTick
  rw [checkIfShouldDisconnect_eq]
  cases hfailing : isFailingToProvideStepsInTime (s.party p).quality with
  | true =>
    simp only [if_true]
    split
    · exact .lost _ hused hstate hfailing
    · exact .kept _ hused hstate (.inr hfailing)
  | false =>
    -- A quality that is good enough keeps the party, and only moves the counter down.
    exact .kept _ hused hstate (.inl (Nat.sub_le _ 1))

/-- Destroying a party in use dissolves it, and stops only if no party is counted. -/
theorem destroyParty_ensures {s : Server E S} {p : PartyPtr S}
    (hused : (s.party p).isUsed = true) :
    Ensures (destroyParty s p)
      (fun s' => s.localParties.partiesCount ≠ 0 ∧ s' = dissolveParty s p)
      (fun fault => fault = .partiesCount ∧ s.localParties.partiesCount = 0) := by
  -- Marking the participants as leaving touches no party, so what is removed is the party that
  -- was destroyed.
  have hparties : (markReferencesAsLeaving (s.setParty p (nimbleServerLocalPartyDestroy
      (s.party p))) (s.party p).participantReferences).localParties
      = (s.setParty p (nimbleServerLocalPartyDestroy (s.party p))).localParties :=
    setReferencedStates_localParties _ _ _
  have hstill : (markReferencesAsLeaving (s.setParty p (nimbleServerLocalPartyDestroy
      (s.party p))) (s.party p).participantReferences).party p
      = nimbleServerLocalPartyDestroy (s.party p) := by
    refine (congrArg (LocalParties.get · p) hparties).trans ?_
    show (s.setParty p _).party p = _
    rw [Server.party_setParty, if_pos rfl]
  have hrefs : ((s.setParty p (nimbleServerLocalPartyDestroy (s.party p))).party p
      ).participantReferences = (s.party p).participantReferences := by
    rw [Server.party_setParty, if_pos rfl]
    rfl
  unfold destroyParty nimbleServerLocalPartiesRemove
  dsimp only
  rw [hrefs, hstill, hparties, if_neg (by simp [nimbleServerLocalPartyDestroy, hused])]
  by_cases hcount : s.localParties.partiesCount = 0
  · have : (s.setParty p (nimbleServerLocalPartyDestroy (s.party p))).localParties.partiesCount
        = 0 := hcount
    rw [this]
    exact ⟨rfl, hcount⟩
  · have : ¬(s.setParty p (nimbleServerLocalPartyDestroy
        (s.party p))).localParties.partiesCount = 0 := hcount
    rw [if_neg this]
    refine ⟨hcount, ?_⟩
    simp only [dissolveParty, hparties, hstill]

/-- The rest of the round of a party that gives up. -/
def dissolveRound (s : Server E S) (p : PartyPtr S) : Result (Server E S) := do
  let s ← destroyParty s p
  match (s.party p).transportConnection with
  | none => return s
  | some t => disconnectTransportConnection s t

/-- A party that gives up is dissolved, and its transport connection, if it has one, is given
back. That stops if the list of free connections has no room. -/
theorem dissolveRound_ensures {s : Server E S} {p : PartyPtr S}
    (hused : (s.party p).isUsed = true) :
    Ensures (dissolveRound (advanceTimer s p) p)
      (fun s' => s.localParties.partiesCount ≠ 0 ∧
        (((s.party p).transportConnection = none ∧ s' = dissolveParty (advanceTimer s p) p) ∨
          ∃ t, (s.party p).transportConnection = some t ∧
            s.freeTransportConnectionList.isFull = false ∧
            s' = releaseConnection (dissolveParty (advanceTimer s p) p) t))
      (fun fault => (fault = .partiesCount ∧ s.localParties.partiesCount = 0) ∨
        ∃ t, (s.party p).transportConnection = some t ∧
          s.freeTransportConnectionList.isFull = true ∧
          fault = .circularBufferOverwrite .transportConnections) := by
  have hused' : ((advanceTimer s p).party p).isUsed = true := by
    rw [party_advanceTimer, if_pos rfl]
    exact hused
  refine ((destroyParty_ensures hused').mono (fun _ h => h) fun _ h => .inl h).bind ?_
  rintro s' ⟨hcount, rfl⟩
  -- The reset leaves the connection of the party in place, and the round reads it afterwards.
  have hconnection : ((dissolveParty (advanceTimer s p) p).party p).transportConnection
      = (s.party p).transportConnection := by
    rw [party_dissolved, if_pos rfl]
    rfl
  have hlist : (dissolveParty (advanceTimer s p) p).freeTransportConnectionList
      = s.freeTransportConnectionList := dissolveParty_freeTransportConnectionList _ _
  rw [hconnection]
  cases ht : (s.party p).transportConnection with
  | none => exact ⟨hcount, .inl ⟨rfl, rfl⟩⟩
  | some t =>
    dsimp only
    unfold disconnectTransportConnection nimbleServerCircularBufferWrite
    cases hfull : s.freeTransportConnectionList.isFull with
    | true =>
      rw [hlist, if_pos hfull]
      exact .inr ⟨t, rfl, rfl, rfl⟩
    | false =>
      rw [hlist, if_neg (Bool.eq_false_iff.mp hfull), ← hlist]
      exact ⟨hcount, .inr ⟨t, rfl, rfl, rfl⟩⟩

/-- These are all the ways the tick of a party ends, and all the ways it stops. -/
theorem tickParty_ensures (s : Server E S) (p : PartyPtr S) :
    Ensures (tickParty s p) (TickOutcome s p) (TickFault s p) := by
  unfold tickParty
  split
  · rename_i hused
    unfold nimbleServerLocalPartyTick
    cases hstate : (s.party p).state with
    | normal => exact tickNormal_outcome hused hstate
    | dissolved => exact .stale hused hstate
    | waitingForReJoin =>
      dsimp only
      cases hkeep : (tickWaitingForReconnect (s.party p)).1 with
      | true => exact .waited hused hstate
      | false =>
        -- The timer has run out: the source destroys the party within the same tick.
        show Ensures (dissolveRound (advanceTimer s p) p) _ _
        refine (dissolveRound_ensures hused).mono ?_ ?_
        · rintro s' ⟨hcount, ⟨ht, rfl⟩ | ⟨t, ht, hfull, rfl⟩⟩
          · exact .dissolved hused hstate hcount ht
          · exact .disconnected t hused hstate hcount ht hfull
        · rintro fault (⟨rfl, hcount⟩ | ⟨t, ht, hfull, rfl⟩)
          · exact .partiesCount hused hcount
          · exact .overwrite t hused ht hfull
  · rename_i hused
    exact .unused (Bool.eq_false_iff.mpr hused)

/-- The rule for a tick: a property that every outcome keeps holds after all parties
ticked. -/
theorem tickParties_ensures {inv : Server E S → Prop} {fault : Fault → Prop} {s : Server E S}
    (hs : inv s) (hkeep : ∀ s p s', inv s → TickOutcome s p s' → inv s')
    (hfault : ∀ s p f, inv s → TickFault s p f → fault f) :
    Ensures (tickParties s) inv fault :=
  ensures_foldlM _ hs fun p _ s hs =>
    (tickParty_ensures s p).mono (fun s' h => hkeep s p s' hs h) (fun f h => hfault s p f hs h)

/-! ### Connect requests -/

/-- How `acceptConnectRequest` ends. -/
inductive ConnectOutcome (s : Server E S) (transportConnectionIndex : UInt8)
    (options : ConnectRequest) : Except Int ConnectionPtr × Server E S → Prop
  | refused (code : Int) :
      ConnectOutcome s transportConnectionIndex options (.error code, s)
  | existing (c : ConnectionPtr) :
      ConnectOutcome s transportConnectionIndex options (.ok c, s)
  | taken (c : ConnectionPtr) (hversion : S.applicationVersion = options.applicationVersion)
      (hfind : findExistingConnectionRequest s transportConnectionIndex options.clientRequestId
        = none)
      (hempty : s.freeTransportConnectionList.isEmpty = false)
      (hfront : s.freeTransportConnectionList.front = UInt8.ofNat c.val)
      (hfree : (s.connection c).isUsed = false) :
      ConnectOutcome s transportConnectionIndex options (.ok c,
        { s with
            freeTransportConnectionList := s.freeTransportConnectionList.pop }.setConnection c
          (transportConnectionInit { s.connection c with
            isUsed := true
            isInitialized := false
            transportIndex := transportConnectionIndex
            connectedFromConnectRequestId := options.clientRequestId
            useDebugStreams := options.useDebugStreams
            phase := .connected
            id := s.freeTransportConnectionList.front } S.maxGameStateOctetCount))

/-- Where `acceptConnectRequest` can stop. -/
inductive ConnectFault (s : Server E S) : Fault → Prop
  | used (c : ConnectionPtr) (hempty : s.freeTransportConnectionList.isEmpty = false)
      (hfront : s.freeTransportConnectionList.front = UInt8.ofNat c.val)
      (hused : (s.connection c).isUsed = true) : ConnectFault s .transportConnectionUsed
  | outOfBounds (hempty : s.freeTransportConnectionList.isEmpty = false)
      (hfront : NIMBLE_NIMBLE_SERVER_MAX_TRANSPORT_CONNECTIONS
        ≤ s.freeTransportConnectionList.front.toNat) : ConnectFault s .connectionOutOfBounds

/-- These are all the ways a connect request ends, and all the ways it stops. -/
theorem acceptConnectRequest_ensures (s : Server E S) (transportConnectionIndex : UInt8)
    (options : ConnectRequest) :
    Ensures (acceptConnectRequest s transportConnectionIndex options)
      (ConnectOutcome s transportConnectionIndex options) (ConnectFault s) := by
  unfold acceptConnectRequest
  split
  · exact .refused _
  · rename_i hversion
    dsimp only [pure_bind]
    split
    · -- A request that was already accepted is answered with the same connection.
      rename_i c _
      exact .existing c
    · rename_i hfind
      unfold nimbleServerCircularBufferIsEmpty nimbleServerCircularBufferRead
      split
      · exact .refused _
      · rename_i hempty
        -- The list has an id. As for participants, it has to be in range and free.
        have hempty' : s.freeTransportConnectionList.isEmpty = false :=
          Bool.eq_false_iff.mpr hempty
        show Ensures (dite _ _ _) _ _
        split
        · rename_i hlt
          have hfront : s.freeTransportConnectionList.front
              = UInt8.ofNat (⟨s.freeTransportConnectionList.front.toNat, hlt⟩ :
                ConnectionPtr).val := UInt8.ofNat_toNat.symm
          split
          · rename_i hused
            exact .used _ hempty' hfront hused
          · rename_i hused
            exact .taken _ (not_not.mp hversion) hfind hempty' hfront
              (Bool.eq_false_iff.mpr hused)
        · rename_i hge
          exact .outOfBounds hempty' (Nat.le_of_not_lt hge)

/-! ### Traffic on a connection -/

/-- A property that sending on connection `t` keeps: it commits headers, and the transfer
receives commands of the client and prepares what is sent. -/
structure SendingKeeps (t : ConnectionPtr) (inv : Server E S → Prop) : Prop where
  commitHeader : ∀ s, inv s →
    inv (s.setConnection t (transportConnectionCommitHeader (s.connection t)))
  receive : ∀ s inStream, inv s → inv (s.setConnection t { s.connection t with
    blobStreamLogicOut :=
      (E.blobStreamLogicOutReceive (s.connection t).blobStreamLogicOut inStream).2.2 })
  prepareSend : ∀ s now, inv s → inv (s.setConnection t { s.connection t with
    blobStreamLogicOut :=
      (E.blobStreamLogicOutPrepareSend (s.connection t).blobStreamLogicOut now).2 })

namespace SendingKeeps

variable {t : ConnectionPtr} {inv : Server E S → Prop}

/-- Induction on the entries that remain. -/
theorem sendBlobStreamEntries (h : SendingKeeps t inv) (clientTime : UInt16) :
    ∀ (entries : List E.BlobStreamOutEntry) (sent : List (List UInt8)) (s : Server E S), inv s →
      inv (NimbleServer.sendBlobStreamEntries t clientTime entries sent s).2.2 := by
  intro entries
  induction entries with
  | nil =>
    intro sent s hs
    exact hs
  | cons entry entries ih =>
    intro sent s hs
    simp only [NimbleServer.sendBlobStreamEntries]
    split
    · exact h.commitHeader s hs
    · exact ih _ _ (h.commitHeader s hs)

/-- Sending what the transfer has prepared. -/
theorem sendBlobStream (h : SendingKeeps t inv) (clientTime : UInt16) (now : Nat)
    (sent : List (List UInt8)) {s : Server E S} (hs : inv s) :
    inv (nimbleServerSendBlobStream s t clientTime now sent).2.2 :=
  h.sendBlobStreamEntries clientTime _ sent _ (h.prepareSend s now hs)

/-- A command for the transfer, and what is sent because of it. -/
theorem reqBlobStream (h : SendingKeeps t inv) (inStream : InStream) (clientTime : UInt16)
    (now : Nat) {s : Server E S} (hs : inv s) :
    inv (nimbleServerReqBlobStream s t inStream clientTime now).2.2.2 := by
  have hset := h.receive s inStream hs
  rcases hreceive : E.blobStreamLogicOutReceive (s.connection t).blobStreamLogicOut inStream with
    ⟨result, consumed, logic⟩
  rw [hreceive] at hset
  simp only [nimbleServerReqBlobStream, hreceive]
  split
  · exact hset
  · exact h.sendBlobStream clientTime now [] hset

/-- A download, with the property given for the connection after the download was started. -/
theorem reqDownloadGameState (h : SendingKeeps t inv) (inStream : InStream)
    (clientTime : UInt16) (uninitialized : Uninitialized S) (state : SerializedGameState)
    (now : Nat) {s : Server E S}
    (hstart : (readInto E.fldInStreamReadUInt8 inStream
      uninitialized.downloadClientRequestId).1 ≠ 0 →
      inv (s.setConnection t (startDownload (s.connection t)
        (readInto E.fldInStreamReadUInt8 inStream
          uninitialized.downloadClientRequestId).1 state))) :
    Ensures (nimbleServerReqDownloadGameState s t inStream clientTime uninitialized state now)
      (fun r => inv r.2.2.2) (fun fault => fault = .downloadRequestId) := by
  simp only [nimbleServerReqDownloadGameState]
  split
  · rfl
  · rename_i hrequest
    have hs := hstart hrequest
    split
    · exact hs
    · split
      · exact hs
      · exact h.sendBlobStream clientTime now _ (h.commitHeader _ hs)

end SendingKeeps

/-- A property that sending on connection `t` keeps, whatever the transfer does. -/
structure TransferKeeps (t : ConnectionPtr) (inv : Server E S → Prop) : Prop where
  commitHeader : ∀ s, inv s →
    inv (s.setConnection t (transportConnectionCommitHeader (s.connection t)))
  logic : ∀ s blobStreamLogicOut, inv s →
    inv (s.setConnection t { s.connection t with blobStreamLogicOut })

/-- What any change of the transfer keeps is kept by those of sending. -/
theorem TransferKeeps.sendingKeeps {t : ConnectionPtr} {inv : Server E S → Prop}
    (h : TransferKeeps t inv) : SendingKeeps t inv where
  commitHeader := h.commitHeader
  receive := fun s _ => h.logic s _
  prepareSend := fun s _ => h.logic s _

/-- The two connections differ only in what they keep about their traffic. -/
structure SameSlot (c c' : TransportConnection E S) : Prop where
  id : c'.id = c.id
  transportConnectionId : c'.transportConnectionId = c.transportConnectionId
  transportIndex : c'.transportIndex = c.transportIndex
  assignedParty : c'.assignedParty = c.assignedParty
  isUsed : c'.isUsed = c.isUsed
  isInitialized : c'.isInitialized = c.isInitialized

/-- The two servers differ only in what connections keep about their traffic. -/
structure SameSlots (s s' : Server E S) : Prop where
  game : s'.game = s.game
  localParties : s'.localParties = s.localParties
  freeTransportConnectionList :
    s'.freeTransportConnectionList = s.freeTransportConnectionList
  connection : ∀ c, SameSlot (s.connection c) (s'.connection c)

namespace SameSlots

/-- Every server has the slots of itself. -/
theorem refl (s : Server E S) : SameSlots s s :=
  ⟨rfl, rfl, rfl, fun _ => ⟨rfl, rfl, rfl, rfl, rfl, rfl⟩⟩

/-- Two changes that keep the slots, one after the other. -/
theorem trans {s s' s'' : Server E S} (h : SameSlots s s') (h' : SameSlots s' s'') :
    SameSlots s s'' where
  game := h'.game.trans h.game
  localParties := h'.localParties.trans h.localParties
  freeTransportConnectionList :=
    h'.freeTransportConnectionList.trans h.freeTransportConnectionList
  connection := fun c =>
    ⟨(h'.connection c).id.trans (h.connection c).id,
      (h'.connection c).transportConnectionId.trans (h.connection c).transportConnectionId,
      (h'.connection c).transportIndex.trans (h.connection c).transportIndex,
      (h'.connection c).assignedParty.trans (h.connection c).assignedParty,
      (h'.connection c).isUsed.trans (h.connection c).isUsed,
      (h'.connection c).isInitialized.trans (h.connection c).isInitialized⟩

/-- The parties are the same. -/
theorem party {s s' : Server E S} (h : SameSlots s s') (p : PartyPtr S) :
    s'.party p = s.party p := by
  unfold Server.party
  rw [h.localParties]

/-- Assigning to a connection one that differs only in its traffic. -/
theorem setConnection (s : Server E S) (t : ConnectionPtr) {x : TransportConnection E S}
    (hx : SameSlot (s.connection t) x) : SameSlots s (s.setConnection t x) where
  game := rfl
  localParties := rfl
  freeTransportConnectionList := rfl
  connection := by
    intro c
    rw [Server.connection_setConnection]
    split
    · rename_i htc
      exact htc ▸ hx
    · exact ⟨rfl, rfl, rfl, rfl, rfl, rfl⟩

/-- Committing a header is traffic. -/
theorem commitHeader (s : Server E S) (t : ConnectionPtr) :
    SameSlots s (s.setConnection t (transportConnectionCommitHeader (s.connection t))) :=
  setConnection s t ⟨rfl, rfl, rfl, rfl, rfl, rfl⟩

/-- So is whatever the transfer does. -/
theorem transferKeeps (s : Server E S) (t : ConnectionPtr) :
    TransferKeeps t (SameSlots s) where
  commitHeader := fun s' h => h.trans (commitHeader s' t)
  logic := fun s' _ h => h.trans (setConnection s' t ⟨rfl, rfl, rfl, rfl, rfl, rfl⟩)

/-- A command for the transfer changes only the traffic, -/
theorem reqBlobStream (s : Server E S) (t : ConnectionPtr) (inStream : InStream)
    (clientTime : UInt16) (now : Nat) :
    SameSlots s (nimbleServerReqBlobStream s t inStream clientTime now).2.2.2 :=
  (transferKeeps s t).sendingKeeps.reqBlobStream inStream clientTime now (refl s)

/-- starting a download does too, -/
theorem startDownload (c : TransportConnection E S) (requestId : UInt8)
    (state : SerializedGameState) : SameSlot c (NimbleServer.startDownload c requestId state) := by
  unfold NimbleServer.startDownload
  split
  · exact ⟨rfl, rfl, rfl, rfl, rfl, rfl⟩
  · exact ⟨rfl, rfl, rfl, rfl, rfl, rfl⟩

/-- and so does a request for one. -/
theorem reqDownloadGameState (s : Server E S) (t : ConnectionPtr) (inStream : InStream)
    (clientTime : UInt16) (uninitialized : Uninitialized S) (state : SerializedGameState)
    (now : Nat) :
    Ensures (nimbleServerReqDownloadGameState s t inStream clientTime uninitialized state now)
      (fun r => SameSlots s r.2.2.2) (fun fault => fault = .downloadRequestId) :=
  (transferKeeps s t).sendingKeeps.reqDownloadGameState inStream clientTime uninitialized state now
    fun _ => setConnection s t (startDownload (s.connection t) _ state)

end SameSlots

/-! ### Host migration -/

/-- The server after a party was prepared: it waits for its client, without a connection. -/
def prepareParty (s : Server E S) (p : PartyPtr S) (participants : Participants E S)
    (i : ParticipantPtr S) : Server E S :=
  let added := addParty ((nameParty s p).setParticipants participants) p none [i]
  added.setParty p { added.party p with
    isUsed := true, state := .waitingForReJoin, waitingForReconnectTimer := 0 }

/-- A prepared party. -/
def preparedParty (self : LocalParty S) (p : PartyPtr S) (i : ParticipantPtr S) :
    LocalParty S :=
  { nimbleServerLocalPartyReInit self none with
      id := UInt8.ofNat p.val
      isUsed := true
      participantReferences := [i]
      state := .waitingForReJoin }

/-- The parties after one of them was prepared. -/
theorem party_prepareParty (s : Server E S) (p q : PartyPtr S)
    (participants : Participants E S) (i : ParticipantPtr S) :
    (prepareParty s p participants i).party q
      = if p = q then preparedParty (s.party p) p i else s.party q := by
  have hnamed : ∀ q, ((nameParty s p).setParticipants participants).party q
      = (nameParty s p).party q := fun _ => rfl
  unfold prepareParty
  rw [Server.party_setParty, party_addParty, party_addParty, if_pos rfl, hnamed, hnamed,
    party_nameParty, party_nameParty, if_pos rfl]
  split
  · rfl
  · rfl

/-- The stops of host migration. -/
def Fault.IsMigration (fault : Fault) : Prop :=
  fault = .uninitializedPointer ∨ fault = .illegalParticipantId ∨
    fault = .circularBufferOverwrite .participants

/-- The pool after a participant was prepared. -/
def preparedPool (self : Participants E S) (i : ParticipantPtr S) (participantId : UInt8)
    (party : PartyPtr S) (stepId : StepId) : Participants E S :=
  { self.set i { nimbleServerParticipantReInit (self.get i) party stepId with
      localIndex := 0, isUsed := true, state := .waitingForRejoin, id := participantId } with
    participantCount := self.participantCount + 1 }

/-- How `nimbleServerParticipantsPrepare` ends. -/
inductive ParticipantsPrepareOutcome (self : Participants E S) (participantId : UInt8)
    (party : PartyPtr S) (stepId : StepId) :
    Except Int (ParticipantPtr S) × Participants E S → Prop
  | full (hfull : S.maxParticipantCount ≤ self.participantCount) :
      ParticipantsPrepareOutcome self participantId party stepId
        (.error NimbleServerErrSessionFull, self)
  | used (i : ParticipantPtr S) (hid : participantId.toNat = i.val)
      (hroom : self.participantCount < S.maxParticipantCount)
      (hused : (self.get i).isUsed = true) :
      ParticipantsPrepareOutcome self participantId party stepId (.error (-2), self)
  | prepared (i : ParticipantPtr S) (hid : participantId.toNat = i.val)
      (hroom : self.participantCount < S.maxParticipantCount)
      (hfree : (self.get i).isUsed = false) :
      ParticipantsPrepareOutcome self participantId party stepId
        (.ok i, preparedPool self i participantId party stepId)

/-- These are all the ways a participant is prepared. It stops only at an id that is out of
range. -/
theorem nimbleServerParticipantsPrepare_ensures (self : Participants E S) (participantId : UInt8)
    (party : PartyPtr S) (stepId : StepId) :
    Ensures (nimbleServerParticipantsPrepare self participantId party stepId)
      (ParticipantsPrepareOutcome self participantId party stepId)
      (fun fault => fault = .illegalParticipantId ∧
        S.maxParticipantCount ≤ participantId.toNat) := by
  unfold nimbleServerParticipantsPrepare
  split
  · rename_i hfull
    exact .full (by omega)
  · rename_i hroom
    dsimp only
    split
    · rename_i hlt
      split
      · rename_i hused
        exact .used ⟨participantId.toNat, hlt⟩ rfl (by omega) hused
      · rename_i hused
        exact .prepared ⟨participantId.toNat, hlt⟩ rfl (by omega) (Bool.eq_false_iff.mpr hused)
    · rename_i hge
      exact ⟨rfl, by omega⟩

/-- The rule for preparing the participants of one party: a property of the pool that
preparing one participant keeps. It stops only at an id that is out of range. Induction on
the ids. -/
theorem prepareParticipants_ensures (inv : Participants E S → Prop) (p : PartyPtr S)
    (stepId : StepId)
    (hprepare : ∀ self participantId r, inv self →
      ParticipantsPrepareOutcome self participantId p stepId r → inv r.2) :
    ∀ (ids : List UInt8) (created : List (ParticipantPtr S)) (participants : Participants E S),
      inv participants →
      Ensures (prepareParticipants p stepId ids created participants) (fun r => inv r.2)
        Fault.IsMigration := by
  intro ids
  induction ids with
  | nil =>
    intro created participants h
    exact h
  | cons id ids ih =>
    intro created participants h
    unfold prepareParticipants
    refine Ensures.bind_of (fun r => inv r.2)
      ((nimbleServerParticipantsPrepare_ensures participants id p stepId).mono
        (fun r hr => hprepare _ _ _ h hr) (fun f hf => .inr (.inl hf.1))) ?_
    rintro ⟨result, participants'⟩ h'
    cases result with
    -- The first participant that cannot be prepared ends the loop.
    | error code => exact h'
    | ok i => exact ih _ _ h'

/-- How the preparation of one party ends. -/
theorem nimbleServerLocalPartiesPrepare_ensures (s : Server E S) (stepId : StepId)
    (info : LocalPartyInfo) (uninitialized : Uninitialized S) :
    Ensures (nimbleServerLocalPartiesPrepare s stepId info uninitialized)
      (fun r => r.2 = s ∨ ∃ p, firstFreeParty s = some p ∧
        ((∃ participants, r.2 = (nameParty s p).setParticipants participants) ∨
          ∃ participants i, r.2 = prepareParty s p participants i))
      Fault.IsMigration := by
  simp only [nimbleServerLocalPartiesPrepare, findFreePartyPlaceButDoNotReserveItYet]
  cases hplace : firstFreeParty s with
  | none => exact .inl rfl
  | some p =>
    refine (prepareParticipants_ensures (fun _ => True) p stepId (fun _ _ _ _ _ => trivial)
      info.participantIds [] _ trivial).bind ?_
    rintro ⟨result, participants⟩ -
    cases result with
    | error code => exact .inr ⟨p, rfl, .inl ⟨participants, rfl⟩⟩
    | ok created =>
      dsimp only
      -- Without a participant the pointer to the first one was never assigned.
      split
      · exact .inl rfl
      · rename_i i _
        exact .inr ⟨p, rfl, .inr ⟨participants, i, rfl⟩⟩

/-- The rule for host migration: a property that holds after the reset, and that preparing a
party keeps, holds at the end. -/
theorem nimbleServerHostMigration_ensures (inv : Server E S → Prop) {s : Server E S}
    (hreset : inv { s with localParties := nimbleServerLocalPartiesReset s.localParties })
    (hparticipants : ∀ s participants, inv s → inv (s.setParticipants participants))
    (hname : ∀ s p, inv s → firstFreeParty s = some p → inv (nameParty s p))
    (hprepare : ∀ s p participants i, inv s → firstFreeParty s = some p →
      inv (prepareParty s p participants i))
    (infos : List LocalPartyInfo) (uninitialized : Uninitialized S) :
    Ensures (nimbleServerHostMigration s infos uninitialized) (fun r => inv r.2)
      Fault.IsMigration := by
  -- The loop over the parties, by induction on the parties that remain. It ends at the first
  -- error.
  have hloop : ∀ (infos : List LocalPartyInfo) (s : Server E S), inv s →
      Ensures (prepareParties uninitialized infos s) (fun r => inv r.2) Fault.IsMigration := by
    intro infos
    induction infos with
    | nil =>
      intro s hs
      exact hs
    | cons info infos ih =>
      intro s hs
      unfold prepareParties
      refine (nimbleServerLocalPartiesPrepare_ensures s _ info uninitialized).bind ?_
      rintro ⟨err, s'⟩ hs'
      have hinv : inv s' := by
        rcases hs' with rfl | ⟨p, hplace, ⟨participants, rfl⟩ | ⟨participants, i, rfl⟩⟩
        · exact hs
        · exact hparticipants _ _ (hname s p hs hplace)
        · exact hprepare s p participants i hs hplace
      dsimp only
      split
      · exact hinv
      · exact ih s' hinv
  unfold nimbleServerHostMigration
  refine (hloop infos _ hreset).bind ?_
  rintro ⟨err, s'⟩ hs'
  dsimp only
  split
  · exact hs'
  · -- What remains is the free list, which is part of the participants.
    refine Ensures.bind_of (fun _ => True) ?_ fun freeList _ => hparticipants _ _ hs'
    refine ensures_foldlM _ trivial ?_
    intro i _ freeList _
    split
    · trivial
    · unfold nimbleServerCircularBufferWrite
      split
      · exact .inr (.inr rfl)
      · trivial

/-! ### A lost transport connection -/

/-- The server after the party in slot `p` was marked as not in use. -/
def dropParty (s : Server E S) (c : ConnectionPtr) (p : PartyPtr S) : Server E S :=
  (s.setParty p { s.party p with id := 0xff, isUsed := false }).setConnection c
    { s.connection c with
        orderedDatagramInLogic := E.clearHasReceivedInitialDatagram
          (s.connection c).orderedDatagramInLogic }

/-- The parties after one of them was marked as not in use. -/
theorem party_dropParty (s : Server E S) (c : ConnectionPtr) (p q : PartyPtr S) :
    (dropParty s c p).party q
      = if p = q then { s.party p with id := 0xff, isUsed := false } else s.party q :=
  Server.party_setParty s p q _

/-- The call looks at the slot with the number of the connection, and stops if there is
none. -/
theorem connectionDisconnected_eq (s : Server E S) (c : ConnectionPtr) :
    nimbleServerConnectionDisconnected s c
      = if h : c.val < S.maxConnectionCount then
          if (s.party ⟨c.val, h⟩).isUsed = true then .ok (0, dropParty s c ⟨c.val, h⟩)
          else .ok (-4, s)
        else .error .illegalPartyId := by
  unfold nimbleServerConnectionDisconnected nimbleServerLocalPartiesFindParty
  simp only [toNat_connectionOctet]
  by_cases h : c.val < S.maxConnectionCount
  · rw [dif_pos h, dif_pos h]
    show (if (!(s.party ⟨c.val, h⟩).isUsed) = true then _ else _) = _
    cases (s.party ⟨c.val, h⟩).isUsed <;> rfl
  · rw [dif_neg h, dif_neg h]
    rfl

/-- The connections after a party was marked as not in use. -/
theorem connection_dropParty (s : Server E S) (c : ConnectionPtr) (p : PartyPtr S)
    (d : ConnectionPtr) : (dropParty s c p).connection d
      = if c = d then { s.connection c with
          orderedDatagramInLogic := E.clearHasReceivedInitialDatagram
            (s.connection c).orderedDatagramInLogic }
        else s.connection d :=
  Server.connection_setConnection _ c d _

/-- What the call keeps: it changes nothing, or it drops a party in use. -/
theorem connectionDisconnected_ensures (inv : Server E S → Prop) {s : Server E S} (hs : inv s)
    (c : ConnectionPtr)
    (hdrop : ∀ p : PartyPtr S, p.val = c.val → (s.party p).isUsed = true →
      inv (dropParty s c p)) :
    Ensures (nimbleServerConnectionDisconnected s c) (fun r => inv r.2)
      (fun fault => fault = .illegalPartyId) := by
  rw [connectionDisconnected_eq]
  split
  · rename_i hlt
    split
    · rename_i hused
      exact hdrop ⟨c.val, hlt⟩ rfl hused
    · exact hs
  · rfl

/-! ### Where connections stand after a join or a tick -/

/-- A join assigns a party to the connection it came on, and touches no other connection. -/
theorem JoinOutcome.connection {s s' : Server E S} {t : ConnectionPtr}
    {request : JoinGameRequest} {uninitialized : Uninitialized S}
    {result : Except Int (PartyPtr S)}
    (h : JoinOutcome s t request uninitialized (result, s')) (c : ConnectionPtr) :
    s'.connection c = s.connection c ∨
      ∃ p, t = c ∧ result = .ok p ∧
        s'.connection c = { s.connection c with assignedParty := some p } := by
  -- Every join that succeeds ends in the same assignment, so it is looked at once.
  have hassign : ∀ (s1 : Server E S) (p : PartyPtr S), s1.connection t = s.connection t →
      s1.connection c = s.connection c →
      (assignParty s1 t p).connection c = s.connection c ∨
        ∃ q, t = c ∧ (Except.ok p : Except Int (PartyPtr S)) = .ok q ∧
          (assignParty s1 t p).connection c
            = { s.connection c with assignedParty := some q } := by
    intro s1 p ht hc
    unfold assignParty
    rw [Server.connection_setConnection]
    split
    · rename_i htc
      subst htc
      refine .inr ⟨p, rfl, rfl, ?_⟩
      rw [ht]
    · exact .inl hc
  cases h with
  | noPlace code hplace => exact .inl rfl
  | sessionFull code p hplace => exact .inl rfl
  | found p hcount hmatch => exact hassign s p rfl rfl
  | unassigned p q htype hfind hnamed hcount hpointer => exact hassign s p rfl rfl
  | rejoined p htype hfind hnamed hcount => exact hassign _ p rfl rfl
  | created p i participants htype hfind hplace hjoin => exact hassign _ p rfl rfl

/-- The tick of a party disconnects the connection of a dissolved party, and touches no
other connection. -/
theorem TickOutcome.connection {s s' : Server E S} {p : PartyPtr S} (h : TickOutcome s p s')
    (c : ConnectionPtr) :
    s'.connection c = s.connection c ∨
      s'.connection c = transportConnectionDisconnect (s.connection c) := by
  have hdissolve : ∀ c, (dissolveParty (advanceTimer s p) p).connection c = s.connection c := by
    intro c
    unfold Server.connection
    rw [dissolveParty_transportConnections]
    rfl
  cases h with
  | unused hused => exact .inl rfl
  | kept counter hused hstate hcounter => exact .inl rfl
  | lost counter hused hstate hfailing =>
    refine .inl ?_
    unfold Server.connection setToWaitingForReJoin
    rw [setReferencedStates_transportConnections]
    rfl
  | waited hused hstate => exact .inl rfl
  | stale hused hstate => exact .inl rfl
  | dissolved hused hstate hcount hconnection => exact .inl (hdissolve c)
  | disconnected t hused hstate hcount hconnection hfull =>
    unfold releaseConnection
    rw [Server.connection_setConnection]
    split
    · rename_i htc
      subst htc
      rw [hdissolve]
      exact .inr rfl
    · exact .inl (hdissolve c)

end NimbleServer
