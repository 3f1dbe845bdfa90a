import NimbleServer.Proofs.AuthoritativeBuffer
import NimbleServer.Proofs.BackReferences
import NimbleServer.Proofs.ConnectionTable
import NimbleServer.Proofs.JoinHandling
import NimbleServer.Proofs.PartyTicks
import NimbleServer.Proofs.Round

/-!
# `NimbleServer.Proofs.Stops`: where a running game can stop

The source stops at a failed assertion, at a `CLOG_ERROR` and wherever it follows a pointer or
an index that leads nowhere. `Fault` lists twenty such places. Most of them are there in case
the records of the server disagree, and in the first game of a server they do not: the pool,
the parties, the buffers and the two free lists keep the invariants of the modules before.
What is left is `Stops`, and it is exact (`play_stops_iff`). Five of the six entries are
decided by what a client sends:

* a connect request when the slot at the front of the free list is in use,
* a join for a new party with no player or several,
* a join that names a party by a number that is too large,
* a join with the wrong number of players, which follows a pointer that was never assigned,
* a download request with the id 0,

and the last is a tick in which parties give up while the free list is full. Composing a step
stops only at a buffer that cannot be read (`InOrder.composeRound_fault`).

A later game can also stop at the lookup of a party, because the count of parties in use is
not reset with the parties.
-/

set_option autoImplicit false

namespace NimbleServer

open NimbleServer.Lib

variable {E : External} {S : Setup}

/-! ### The numbers on the free list -/

/-- The free list holds numbers of connections. So do the connections that are used, and those
that parties in use belong to: a tick writes their numbers to the list. -/
structure IdsInRange (s : Server E S) : Prop where
  listed : ∀ id ∈ s.freeTransportConnectionList.toList,
    id.toNat < NIMBLE_NIMBLE_SERVER_MAX_TRANSPORT_CONNECTIONS
  used : ∀ c, (s.connection c).isUsed = true →
    (s.connection c).id.toNat < NIMBLE_NIMBLE_SERVER_MAX_TRANSPORT_CONNECTIONS
  bound : ∀ p t, (s.party p).BelongsTo t →
    (s.connection t).id.toNat < NIMBLE_NIMBLE_SERVER_MAX_TRANSPORT_CONNECTIONS

namespace IdsInRange

variable {s s' : Server E S}

/-- The list stays in range, the connections keep their numbers and none comes into use, and a
party belongs to a connection it belonged to or to a used one. -/
theorem congr (h : IdsInRange s)
    (hlist : ∀ id ∈ s'.freeTransportConnectionList.toList,
      id.toNat < NIMBLE_NIMBLE_SERVER_MAX_TRANSPORT_CONNECTIONS)
    (hconnection : ∀ c, (s'.connection c).id = (s.connection c).id ∧
      ((s'.connection c).isUsed = true → (s.connection c).isUsed = true))
    (hparty : ∀ p t, (s'.party p).BelongsTo t →
      (s.party p).BelongsTo t ∨ (s.connection t).isUsed = true) : IdsInRange s' where
  listed := hlist
  used := by
    intro c hc
    rw [(hconnection c).1]
    exact h.used c ((hconnection c).2 hc)
  bound := by
    intro p t hp
    rw [(hconnection t).1]
    rcases hparty p t hp with hp | ht
    · exact h.bound p t hp
    · exact h.used t ht

/-- A slot is taken into use and gets a number in range. -/
theorem occupy (h : IdsInRange s)
    (hlist : ∀ id ∈ s'.freeTransportConnectionList.toList,
      id ∈ s.freeTransportConnectionList.toList)
    (t : ConnectionPtr) {x : TransportConnection E S}
    (hs' : ∀ c, s'.connection c = if t = c then x else s.connection c)
    (hx : x.id.toNat < NIMBLE_NIMBLE_SERVER_MAX_TRANSPORT_CONNECTIONS)
    (hparty : ∀ p, s'.party p = s.party p) : IdsInRange s' where
  listed := fun id hid => h.listed id (hlist id hid)
  used := by
    intro c hc
    rw [hs' c] at hc ⊢
    split at hc
    · rename_i htc
      rw [if_pos htc]
      exact hx
    · rename_i htc
      rw [if_neg htc]
      exact h.used c hc
  bound := by
    intro p c hp
    rw [hparty p] at hp
    rw [hs' c]
    split
    · exact hx
    · exact h.bound p c hp

/-- A join gives a party at most the connection it came on, which is used. -/
theorem join (h : IdsInRange s) {t : ConnectionPtr} {request : JoinGameRequest}
    {uninitialized : Uninitialized S} {result : Except Int (PartyPtr S)}
    (ht : (s.connection t).isUsed = true)
    (hr : JoinOutcome s t request uninitialized (result, s')) : IdsInRange s' := by
  have hconnection : ∀ c, (s'.connection c).id = (s.connection c).id ∧
      ((s'.connection c).isUsed = true → (s.connection c).isUsed = true) := by
    intro c
    rcases hr.connection c with hc | ⟨p, -, -, hc⟩
    · rw [hc]
      exact ⟨rfl, fun hused => hused⟩
    · rw [hc]
      exact ⟨rfl, fun hused => hused⟩
  -- The party that is replaced belongs to what it belonged to, or to the connection of the join.
  have hupdate : ∀ (p : PartyPtr S) (x : LocalParty S),
      s'.freeTransportConnectionList = s.freeTransportConnectionList →
      (∀ q, s'.party q = if p = q then x else s.party q) →
      (x.transportConnection = some t ∨ ∀ c, x.BelongsTo c → (s.party p).BelongsTo c) →
      IdsInRange s' := by
    intro p x hlist hs' hx
    refine h.congr (hlist ▸ h.listed) hconnection fun q c hq => ?_
    rw [hs'] at hq
    split at hq
    · rename_i hpq
      rcases hx with hx | hx
      · obtain rfl : c = t := Option.some.inj (hq.2.symm.trans hx)
        exact .inr ht
      · exact .inl (hpq ▸ hx c hq)
    · exact .inl hq
  cases hr with
  | noPlace code hplace => exact h
  | sessionFull code p hplace =>
    exact hupdate p _ rfl (party_nameParty s p) (.inr fun _ hc => hc)
  | found p hcount hmatch =>
    exact hupdate p _ rfl (party_assignParty s t p) (.inr fun _ hc => hc)
  | unassigned p q htype hfind hnamed hcount hpointer =>
    exact hupdate p _ rfl (party_assignParty s t p) (.inr fun _ hc => hc)
  | rejoined p htype hfind hnamed hcount =>
    exact hupdate p _ rfl (party_rejoined s t p) (.inl rfl)
  | created p i participants htype hfind hplace hjoin =>
    exact hupdate p _ rfl (fun q => party_created s t p q participants i) (.inl rfl)

/-- One round of a tick. The number that is written to the list is that of a connection which
a party belonged to. -/
theorem tick (h : IdsInRange s) {p : PartyPtr S} (hs' : TickOutcome s p s') :
    IdsInRange s' := by
  have hconnection : ∀ c, (s'.connection c).id = (s.connection c).id ∧
      ((s'.connection c).isUsed = true → (s.connection c).isUsed = true) := by
    intro c
    rcases hs'.connection c with hc | hc
    · rw [hc]
      exact ⟨rfl, fun hused => hused⟩
    · rw [hc]
      exact ⟨rfl, by rintro ⟨⟩⟩
  have hparty : ∀ q t, (s'.party q).BelongsTo t →
      (s.party q).BelongsTo t ∨ (s.connection t).isUsed = true :=
    fun q t hq => .inl (hs'.belongsTo hq)
  cases hs' with
  | unused hused => exact h
  | kept counter hused hstate hcounter => exact h.congr h.listed hconnection hparty
  | lost counter hused hstate hfailing =>
    refine h.congr ?_ hconnection hparty
    unfold setToWaitingForReJoin
    rw [setReferencedStates_freeTransportConnectionList]
    exact h.listed
  | waited hused hstate => exact h.congr h.listed hconnection hparty
  | stale hused hstate => exact h
  | dissolved hused hstate hcount hconnected =>
    refine h.congr ?_ hconnection hparty
    rw [dissolveParty_freeTransportConnectionList]
    exact h.listed
  | disconnected t hused hstate hcount hconnected hfull =>
    refine h.congr ?_ hconnection hparty
    have hpush : (releaseConnection (dissolveParty (advanceTimer s p) p)
        t).freeTransportConnectionList
          = s.freeTransportConnectionList.push (s.connection t).id := by
      unfold releaseConnection Server.connection
      rw [dissolveParty_freeTransportConnectionList, dissolveParty_transportConnections]
      rfl
    intro id hmem
    rw [hpush, Ring.toList_push _ _ hfull] at hmem
    rcases List.mem_append.mp hmem with hmem | hmem
    · exact h.listed id hmem
    · rw [List.mem_singleton.mp hmem]
      exact h.bound p t ⟨hused, hconnected⟩

end IdsInRange

/-- Neither a datagram nor a tick. -/
theorem Op.not_isPlay {op : Op S} (hdatagram : ¬op.IsDatagram) (htick : op ≠ .tick) :
    ¬op.IsPlay :=
  fun hplay => hplay.elim hdatagram htick

/-- The operations of a running game keep the numbers in range. -/
theorem idsInRange_keeps :
    BindingKeeps (fun (s : Server E S) op => op.IsPlay ∧ s.Enabled op) IdsInRange
      (fun _ => True) where
  sameParties := by
    intro s s' h hs
    refine h.congr (hs.freeTransportConnectionList ▸ h.listed) (fun c => ?_) fun p t hp => .inl
      ⟨(hs.isUsed p).symm.trans hp.1, (hs.transportConnection p).symm.trans hp.2⟩
    rw [hs.connection c]
    exact ⟨rfl, fun hused => hused⟩
  sameSlots := fun s s' h hs => h.congr (hs.freeTransportConnectionList ▸ h.listed)
    (fun c => ⟨(hs.connection c).id, fun hused => (hs.connection c).isUsed.symm.trans hused⟩)
    fun p t hp => .inl (by rwa [hs.party p] at hp)
  receive := by
    intro s t h _
    unfold receiveOnConnection
    split
    · exact h
    · refine h.occupy (fun _ hid => hid) t (fun c => Server.connection_setConnection s t c _) ?_
        fun _ => rfl
      -- The slot that a datagram takes into use gets its own index as number.
      show (UInt8.ofNat t.val).toNat < _
      rw [toNat_connectionOctet]
      exact t.isLt
  connect := by
    intro s t request r h _ hr
    cases hr with
    | refused code => exact h
    | existing c => exact h
    | taken c hversion hfind hempty hfront hfree =>
      refine h.occupy (fun id hid => ?_) c (fun d => Server.connection_setConnection _ c d _) ?_
        fun _ => rfl
      · rw [Ring.toList_pop _ hempty]
        exact List.mem_cons_of_mem _ hid
      · -- A connect request gives the slot the number it read from the list.
        show s.freeTransportConnectionList.front.toNat < _
        rw [hfront, toNat_connectionOctet]
        exact c.isLt
  join := fun s t request uninitialized r h hallowed hr => h.join hallowed.2.1 hr
  tick := fun s h _ => tickParties_ensures h (fun s p s' h hs' => h.tick hs')
    fun _ _ _ _ _ => trivial
  reInit := fun _ _ _ _ hallowed => absurd hallowed.1 (Op.not_isPlay id (by rintro ⟨⟩))
  migrate := fun _ _ _ _ hallowed => absurd hallowed.1 (Op.not_isPlay id (by rintro ⟨⟩))
  connected := fun _ _ _ hallowed => absurd hallowed.1 (Op.not_isPlay id (by rintro ⟨⟩))
  disconnected := fun _ _ _ hallowed => absurd hallowed.1 (Op.not_isPlay id (by rintro ⟨⟩))
  connectFault := fun _ _ _ _ => trivial
  joinFault := fun _ _ _ _ => trivial
  composeFault := fun _ _ => trivial
  downloadFault := trivial
  capacityFault := trivial

/-! ### The first game of a server -/

/-- The first game that is set up on a server. -/
def FirstGame (s : Server E S) : Prop :=
  ∃ init stepId, Started init ∧ nimbleServerReInitWithGame init stepId = .ok s

/-- The games of the tests are first games. -/
theorem firstGame_of_plainGame {count : Nat} {s : Server plainExternal (plainSetup count)}
    (h : plainGame count = .ok s) : FirstGame s := by
  obtain ⟨init, hinit, hs⟩ := bind_eq_ok.mp h
  exact ⟨init, 0, ⟨_, hinit⟩, hs⟩

/-- A first game is a new game. -/
theorem FirstGame.startsGame {s : Server E S} (h : FirstGame s) : StartsGame s := by
  obtain ⟨init, stepId, -, hs⟩ := h
  exact ⟨init, stepId, hs⟩

/-- At its start the list holds slots, used connections have their slot as number, and no party is
in use. -/
theorem FirstGame.idsInRange {s : Server E S} (h : FirstGame s) : IdsInRange s := by
  obtain ⟨init, stepId, hinit, hs⟩ := h
  obtain ⟨hparties, hconnections, hlist⟩ :=
    (nimbleServerReInitWithGame_binding init stepId).of_ok hs
  refine ⟨?_, fun c hc => ?_, fun p t hp => ?_⟩
  · rw [hlist]
    obtain ⟨free, hfree, -⟩ := hinit.freeListSound.free
    intro id hid
    rw [hfree] at hid
    obtain ⟨c, -, rfl⟩ := List.mem_map.mp hid
    unfold connectionOctet
    rw [toNat_connectionOctet]
    exact c.isLt
  · have hsame : s.connection c = init.connection c := by
      unfold Server.connection
      rw [hconnections]
    rw [hsame] at hc ⊢
    rw [hinit.usedIds c hc]
    unfold connectionOctet
    rw [toNat_connectionOctet]
    exact c.isLt
  · have hused := hp.1
    rw [party_of_reset hparties] at hused
    cases hused

/-- What holds while the first game is played. -/
structure InOrder (s : Server E S) : Prop where
  back : BackReferences s
  counted : PartiesCounted s
  ids : IdsInRange s

/-- The records of the first game agree in every state that it reaches. -/
theorem inOrder_reachable {start s : Server E S} (hfirst : FirstGame start)
    (hrun : Reaches Server.step (fun s op => op.IsPlay ∧ s.Enabled op) start s) : InOrder s := by
  refine ⟨backReferences_reachable hfirst.startsGame (hrun.mono fun _ _ h => h.1), ?_,
    idsInRange_keeps.reachable hfirst.idsInRange hrun⟩
  obtain ⟨init, stepId, hinit, hs⟩ := hfirst
  -- Setting up the first game resets parties of which none is in use, so the count stays right.
  have hunused : ∀ p, (init.party p).isUsed = false := fun p =>
    congrArg LocalParty.isUsed (hinit.party p)
  have hgame : Reaches Server.step CountKept init start :=
    .single (l := .reInitWithGame stepId) hunused hs
  refine partiesCounted_keeps.reachable hinit.partiesCounted (hgame.trans (hrun.mono ?_))
  rintro s op ⟨hplay, -⟩
  cases op with
  | reInitWithGame _ | hostMigration _ _ | connectionDisconnected _ =>
    exact absurd hplay (Op.not_isPlay id (by rintro ⟨⟩))
  | _ => trivial

/-! ### What stops the server -/

/-- The operation stops the server, and where. -/
inductive Stops (s : Server E S) : Op S → Fault → Prop
  | connect (t : ConnectionPtr) (request : ConnectRequest) (c : ConnectionPtr)
      (hversion : S.applicationVersion = request.applicationVersion)
      (hfind : findExistingConnectionRequest s (UInt8.ofNat t.val) request.clientRequestId = none)
      (hempty : s.freeTransportConnectionList.isEmpty = false)
      (hfront : s.freeTransportConnectionList.front = UInt8.ofNat c.val)
      (hused : (s.connection c).isUsed = true) :
      Stops s (.connect t request) .transportConnectionUsed
  | players (t : ConnectionPtr) (request : JoinGameRequest) (uninitialized : Uninitialized S)
      (hfind : nimbleServerLocalPartiesFindPartyForTransport s
        (s.connection t).transportConnectionId = .ok none)
      (htype : request.joinGameType = .noSecret) (p : PartyPtr S)
      (hfree : (s.party p).isUsed = false) (hcount : request.playerCount ≠ 1) :
      Stops s (.join t request uninitialized) .localParticipantCount
  | partyId (t : ConnectionPtr) (request : JoinGameRequest) (uninitialized : Uninitialized S)
      (hfind : nimbleServerLocalPartiesFindPartyForTransport s
        (s.connection t).transportConnectionId = .ok none)
      (htype : request.joinGameType = .partySecret)
      (hrange : S.maxConnectionCount ≤ request.partyId.toNat) :
      Stops s (.join t request uninitialized) .illegalPartyId
  | pointer (t : ConnectionPtr) (request : JoinGameRequest) (uninitialized : Uninitialized S)
      (hfind : nimbleServerLocalPartiesFindPartyForTransport s
        (s.connection t).transportConnectionId = .ok none)
      (htype : request.joinGameType = .partySecret) (p : PartyPtr S)
      (hnamed : p.val = request.partyId.toNat)
      (hcount : (s.party p).participantReferences.length ≠ request.playerCount)
      (hpointer : uninitialized.party = none) :
      Stops s (.join t request uninitialized) .uninitializedPointer
  | download (t : ConnectionPtr) (inStream : InStream) (clientTime : UInt16)
      (uninitialized : Uninitialized S) (state : SerializedGameState) (now : Nat)
      (hid : (readInto E.fldInStreamReadUInt8 inStream
        uninitialized.downloadClientRequestId).1 = 0) :
      Stops s (.downloadGameState t inStream clientTime uninitialized state now)
        .downloadRequestId
  | tick (hfull : NIMBLE_SERVER_CIRCULAR_BUFFER_SIZE < s.freeTransportConnectionList.count
        + freedCount s (List.finRange S.maxConnectionCount)) :
      Stops s .tick (.circularBufferOverwrite .transportConnections)

/-- The operation decides where the server stops. -/
theorem Stops.unique {s : Server E S} {op : Op S} {fault fault' : Fault}
    (h : Stops s op fault) (h' : Stops s op fault') : fault = fault' := by
  cases h with
  | connect => cases h' with | connect => rfl
  | download => cases h' with | download => rfl
  | tick => cases h' with | tick => rfl
  | players _ _ _ _ htype =>
    cases h' with
    | players => rfl
    | partyId _ _ _ _ htype' => cases htype.symm.trans htype'
    | pointer _ _ _ _ htype' => cases htype.symm.trans htype'
  | partyId _ _ _ _ htype hrange =>
    cases h' with
    | players _ _ _ _ htype' => cases htype.symm.trans htype'
    | partyId => rfl
    -- A party that exists has a number in range.
    | pointer _ _ _ _ _ p hnamed =>
      have hlt := p.isLt
      omega
  | pointer _ _ _ _ htype p hnamed =>
    cases h' with
    | players _ _ _ _ htype' => cases htype.symm.trans htype'
    | partyId _ _ _ _ _ hrange =>
      have hlt := p.isLt
      omega
    | pointer => rfl

/-- The operation returns where nothing stops it, and stops where something does. -/
def StopsExactly (s : Server E S) (op : Op S) : Prop :=
  Ensures (s.step op) (fun _ => ∀ fault, ¬Stops s op fault) (Stops s op)

/-- The two directions as one. -/
theorem StopsExactly.iff {s : Server E S} {op : Op S} (h : StopsExactly s op) (fault : Fault) :
    s.step op = .error fault ↔ Stops s op fault := by
  constructor
  · exact fun hstep => Ensures.of_error h hstep
  · intro hstops
    cases hstep : s.step op with
    | ok s' => exact absurd hstops (Ensures.of_ok h hstep fault)
    | error fault' => rw [(Ensures.of_error h hstep).unique hstops]

/-! ### Connect requests and joins -/

/-- A connect request stops only at a slot that is in use. -/
theorem InOrder.connect {s : Server E S} (h : InOrder s) (t : ConnectionPtr)
    (request : ConnectRequest) : StopsExactly s (.connect t request) := by
  refine Ensures.map ?_
  unfold acceptConnectRequest
  by_cases hversion : S.applicationVersion = request.applicationVersion
  case neg =>
    rw [if_pos hversion]
    intro fault hstops
    cases hstops with
    | connect _ _ _ hversion' => exact hversion hversion'
  rw [if_neg (not_not.mpr hversion)]
  dsimp only [pure_bind]
  cases hfind : findExistingConnectionRequest s (UInt8.ofNat t.val) request.clientRequestId with
  | some c =>
    intro fault hstops
    cases hstops with
    | connect _ _ _ _ hnone => cases hfind.symm.trans hnone
  | none =>
    unfold nimbleServerCircularBufferIsEmpty nimbleServerCircularBufferRead
    cases hempty : s.freeTransportConnectionList.isEmpty with
    | true =>
      intro fault hstops
      cases hstops with
      | connect _ _ _ _ _ hempty' => cases hempty.symm.trans hempty'
    | false =>
      -- What is on the list is the number of a connection.
      have hlt : s.freeTransportConnectionList.front.toNat
          < NIMBLE_NIMBLE_SERVER_MAX_TRANSPORT_CONNECTIONS := by
        refine h.ids.listed _ ?_
        rw [Ring.toList_pop _ hempty]
        exact List.mem_cons_self
      show Ensures (dite _ _ _) _ _
      rw [dif_pos hlt]
      have hfront : s.freeTransportConnectionList.front
          = UInt8.ofNat (⟨s.freeTransportConnectionList.front.toNat, hlt⟩ : ConnectionPtr).val :=
        UInt8.ofNat_toNat.symm
      by_cases hused : (s.connection ⟨s.freeTransportConnectionList.front.toNat, hlt⟩).isUsed = true
      · rw [if_pos hused]
        exact .connect t request _ hversion hfind hempty hfront hused
      · rw [if_neg hused]
        intro fault hstops
        cases hstops with
        | connect _ _ c _ _ _ hfront' hused' =>
          have hc : c = ⟨s.freeTransportConnectionList.front.toNat, hlt⟩ :=
            Fin.ext ((congrArg UInt8.toNat hfront').trans (toNat_connectionOctet c)).symm
          exact hused (hc ▸ hused')

/-- A pool that is in order has an answer for a join. -/
theorem PoolInvariant.answers {self : Participants E S} (h : PoolInvariant self) :
    PoolAnswers self := by
  cases hempty : self.freeList.isEmpty with
  | true =>
    have hzero : self.freeList.count = 0 := (Ring.isEmpty_iff _).mp hempty
    have hsum := h.count_add
    unfold nimbleServerCircularBufferCount at hsum
    exact .inl (by omega)
  | false =>
    obtain ⟨i, free, hfront, -, htracks⟩ := h.front hempty
    refine .inr ⟨hempty, i, ?_, (htracks.mem_iff i).mp List.mem_cons_self⟩
    rw [hfront, slotOctet_toNat h.capacity i]

/-- A request for a new party stops at the number of its players, and only when there is a
place for the party. -/
theorem InOrder.create {s : Server E S} (h : InOrder s) (t : ConnectionPtr)
    (players : List Nat) (stepId : StepId) :
    Ensures (nimbleServerLocalPartiesCreate s t players stepId)
      (fun _ => (∀ p, (s.party p).isUsed = true) ∨ players.length = 1)
      (fun fault => fault = .localParticipantCount ∧ (∃ p, (s.party p).isUsed = false) ∧
        players.length ≠ 1) := by
  have hpool := h.back.references.pool
  simp only [nimbleServerLocalPartiesCreate, findFreePartyPlaceButDoNotReserveItYet]
  cases hplace : firstFreeParty s with
  | none => exact .inl (firstFreeParty_none hplace)
  | some p =>
    have hfree := firstFreeParty_isUsed hplace
    have hreturns := nimbleServerParticipantsJoin_returns_iff s.game.participants players p stepId
    have houtcome := nimbleServerParticipantsJoin_ensures s.game.participants players p stepId
    dsimp only
    have hgame : (s.setParty p { s.party p with id := UInt8.ofNat p.val }).game = s.game := rfl
    rw [hgame]
    cases hjoin : nimbleServerParticipantsJoin s.game.participants players p stepId with
    | error fault =>
      -- One player and a pool that answers would have returned.
      refine ⟨hpool.joinFault (houtcome.of_error hjoin), ⟨p, hfree⟩, fun hone => ?_⟩
      obtain ⟨r, hr⟩ := hreturns.mpr ⟨hone, hpool.answers⟩
      cases hjoin.symm.trans hr
    | ok r =>
      have hone := (hreturns.mp ⟨r, hjoin⟩).1
      obtain ⟨result, participants⟩ := r
      cases result with
      | error code => exact .inr hone
      | ok i => exact .inr hone

/-- A client without a party asks for a new one. -/
theorem InOrder.joinNew {s : Server E S} (h : InOrder s) {t : ConnectionPtr}
    {request : JoinGameRequest} (uninitialized : Uninitialized S)
    (hfind : nimbleServerLocalPartiesFindPartyForTransport s
      (s.connection t).transportConnectionId = .ok none)
    (htype : request.joinGameType = .noSecret) :
    StopsExactly s (.join t request uninitialized) := by
  refine Ensures.map ?_
  unfold joinGame nimbleServerReadAndJoinParticipants
  rw [joinLocalParty_noSecret hfind htype]
  have hcreate := h.create t request.players (E.expectedWriteId s.game.authoritativeSteps)
  cases hresult : nimbleServerLocalPartiesCreate s t request.players
      (E.expectedWriteId s.game.authoritativeSteps) with
  | error fault =>
    obtain ⟨rfl, ⟨p, hfree⟩, hcount⟩ := hcreate.of_error hresult
    exact .players t request uninitialized hfind htype p hfree hcount
  | ok r =>
    obtain ⟨result, s1⟩ := r
    have hnot : ∀ fault, ¬Stops s (.join t request uninitialized) fault := by
      intro fault hstops
      cases hstops with
      | players _ _ _ _ _ p hfree hcount =>
        rcases hcreate.of_ok hresult with hall | hone
        · cases hfree.symm.trans (hall p)
        · exact hcount hone
      | partyId _ _ _ _ htype' => cases htype.symm.trans htype'
      | pointer _ _ _ _ htype' => cases htype.symm.trans htype'
    cases result with
    | error code => exact hnot
    | ok p => exact hnot

/-- A client without a party asks for one by its number. With the wrong number of players the
source goes on with a pointer that it never assigned. -/
theorem stopsExactly_rejoin {s : Server E S} {t : ConnectionPtr} {request : JoinGameRequest}
    (uninitialized : Uninitialized S)
    (hfind : nimbleServerLocalPartiesFindPartyForTransport s
      (s.connection t).transportConnectionId = .ok none)
    (htype : request.joinGameType = .partySecret) :
    StopsExactly s (.join t request uninitialized) := by
  refine Ensures.map ?_
  unfold joinGame nimbleServerReadAndJoinParticipants joinLocalParty
    nimbleServerLocalPartiesFindParty
  rw [hfind, htype]
  by_cases hlt : request.partyId.toNat < S.maxConnectionCount
  case neg =>
    simp only [dif_neg hlt]
    exact .partyId t request uninitialized hfind htype (Nat.not_lt.mp hlt)
  simp only [dif_pos hlt, bind, Except.bind, pure, Except.pure]
  have hnot : ∀ fault, Stops s (.join t request uninitialized) fault →
      (s.party ⟨request.partyId.toNat, hlt⟩).participantReferences.length
        ≠ request.playerCount ∧ uninitialized.party = none := by
    intro fault hstops
    cases hstops with
    | players _ _ _ _ htype' => cases htype.symm.trans htype'
    | partyId _ _ _ _ _ hrange => exact absurd hlt (Nat.not_lt.mpr hrange)
    | pointer _ _ _ _ _ p hnamed hcount hpointer =>
      obtain rfl : p = ⟨request.partyId.toNat, hlt⟩ := Fin.ext hnamed
      exact ⟨hcount, hpointer⟩
  by_cases hcount : (s.party ⟨request.partyId.toNat, hlt⟩).participantReferences.length
      = request.playerCount
  · rw [if_neg (not_not.mpr hcount)]
    exact fun fault hstops => (hnot fault hstops).1 hcount
  · rw [if_pos hcount]
    cases hpointer : uninitialized.party with
    | none => exact .pointer t request uninitialized hfind htype _ rfl hcount hpointer
    | some p =>
      intro fault hstops
      cases hpointer.symm.trans (hnot fault hstops).2

/-- The three ways in which a join stops need a client without a party. -/
theorem InOrder.join {s : Server E S} (h : InOrder s) (t : ConnectionPtr)
    (request : JoinGameRequest) (uninitialized : Uninitialized S) :
    StopsExactly s (.join t request uninitialized) := by
  obtain ⟨found, hfind⟩ :=
    h.counted.findPartyForTransport (s.connection t).transportConnectionId
  cases found with
  | some p =>
    refine Ensures.map ?_
    unfold joinGame nimbleServerReadAndJoinParticipants
    rw [joinLocalParty_found hfind]
    -- A connection with a party gets this party back, whatever the request asks for.
    intro fault hstops
    cases hstops with
    | players _ _ _ hnone => cases hfind.symm.trans hnone
    | partyId _ _ _ hnone => cases hfind.symm.trans hnone
    | pointer _ _ _ hnone => cases hfind.symm.trans hnone
  | none =>
    cases htype : request.joinGameType with
    | noSecret => exact h.joinNew uninitialized hfind htype
    | partySecret => exact stopsExactly_rejoin uninitialized hfind htype

/-! ### Downloads, ticks and rounds -/

/-- A download request stops at its id, before anything else is looked at. -/
theorem stopsExactly_download (s : Server E S) (t : ConnectionPtr) (inStream : InStream)
    (clientTime : UInt16) (uninitialized : Uninitialized S) (state : SerializedGameState)
    (now : Nat) :
    StopsExactly s (.downloadGameState t inStream clientTime uninitialized state now) := by
  refine Ensures.map ?_
  by_cases hid : (readInto E.fldInStreamReadUInt8 inStream
      uninitialized.downloadClientRequestId).1 = 0
  · simp only [nimbleServerReqDownloadGameState, if_pos hid]
    exact .download t inStream clientTime uninitialized state now hid
  · have hnot : ∀ fault, ¬Stops s (.downloadGameState t inStream clientTime uninitialized state
        now) fault := by
      intro fault hstops
      cases hstops with
      | download _ _ _ _ _ _ hid' => exact hid hid'
    simp only [nimbleServerReqDownloadGameState, if_neg hid]
    split
    · exact hnot
    · split
      · exact hnot
      · exact hnot

/-- A tick stops only when there is no room for the connections that it frees. -/
theorem InOrder.tick {s : Server E S} (h : InOrder s) :
    StopsExactly s .tick := by
  have hcovered : s.localParties.usedCount ≤ s.localParties.partiesCount := by
    rw [h.counted]
  have hreturns := tickParties_returns_iff hcovered
  -- The count of parties is right all through the tick, so only the list can stop it.
  have hfault : Ensures (tickParties s) (fun _ => True)
      (fun fault => fault = .circularBufferOverwrite .transportConnections) := by
    have hloop : Ensures (tickParties s) (PartiesRelated fun used count => count = used)
        (fun fault => fault = .circularBufferOverwrite .transportConnections) := by
      refine tickParties_ensures h.counted (fun s p s' h hs' => h.tick countsParties_eq hs') ?_
      intro s p f h hf
      cases hf with
      | partiesCount hused hcount =>
        -- The count is zero only if no party is in use, and this one is.
        have hpos : 0 < s.localParties.usedCount := LocalParties.usedCount_pos hused
        unfold PartiesRelated at h
        omega
      | overwrite t hused hconnection hfull => rfl
    exact hloop.mono (fun _ _ => trivial) fun _ hf => hf
  show Ensures (tickParties s) _ _
  cases htick : tickParties s with
  | ok s' =>
    intro fault hstops
    cases hstops with
    | tick hfull =>
      have hroom := hreturns.mp ⟨s', htick⟩
      omega
  | error fault =>
    obtain rfl := hfault.of_error htick
    refine .tick (Nat.not_le.mp fun hroom => ?_)
    obtain ⟨s', hs'⟩ := hreturns.mpr hroom
    cases htick.symm.trans hs'

/-- Every operation of the game but composing. -/
theorem InOrder.step_stops_iff {s : Server E S} (h : InOrder s) {op : Op S}
    (hplay : op.IsPlay) (hround : op ≠ .composeRound) (fault : Fault) :
    s.step op = .error fault ↔ Stops s op fault := by
  refine StopsExactly.iff ?_ fault
  cases op with
  | connect t request => exact h.connect t request
  | join t request uninitialized => exact h.join t request uninitialized
  | downloadGameState t inStream clientTime uninitialized state now =>
    exact stopsExactly_download s t inStream clientTime uninitialized state now
  | tick => exact h.tick
  | composeRound => exact absurd rfl hround
  | reInitWithGame _ | hostMigration _ _ | connectionConnected _ | connectionDisconnected _ =>
    exact absurd hplay (Op.not_isPlay id (by rintro ⟨⟩))
  -- None of these can stop, and `Stops` has no entry for them.
  | receive _ | ordered _ _ | incomingSteps _ _ _ | blobStream _ _ _ _ | commitHeader _ =>
    intro fault hstops
    cases hstops

/-- Reading the step that is due from the buffer of a used participant fails, and not because
the buffer has no steps. -/
def BufferCorrupt (s : Server E S) : Prop :=
  ∃ i code, (s.participant i).isUsed = true ∧ code ≠ E.NimbleStepErrCollectionIsEmpty ∧
    (E.nbsStepsReadExactStepId (s.participant i).steps (nextStepId s)).1 = .error code

/-- Composing stops only at such a buffer. -/
theorem InOrder.composeRound_fault [LawfulOutStreams E] {s : Server E S} (h : InOrder s) :
    Ensures (composeRound s) (fun _ => True)
      (fun fault => fault = .stepsCorrupt ∧ BufferCorrupt s) := by
  have hpool := h.back.references.pool
  have hrule : ComposeRule (fun s : Server E S => PoolInvariant s.game.participants)
      (fun fault => ¬fault.IsPool) := (pool_playKeeps fun _ _ => True).toComposeKeeps.composeRule
  have hfault := hrule.composeRound hpool
  refine ((composeRound_outcome hpool.counted).and hfault).mono (fun _ _ => trivial) ?_
  rintro fault ⟨hstops, hnot⟩
  cases hstops with
  | nullParty i _ hused hparty => exact absurd hparty (h.back.inParty i hused)
  | stepsCorrupt i _ hused code hcode hread => exact ⟨rfl, i, code, hused, hcode, hread⟩
  -- The places that a round gives back fit on the list of the pool.
  | freeListFull hfull => exact absurd trivial hnot

/-- In every state that the first game of a server reaches, an operation other than composing
stops the server exactly when it is one of `Stops`, and at the place that is named there. -/
theorem play_stops_iff {start s : Server E S} (hfirst : FirstGame start)
    (hrun : Reaches Server.step (fun s op => op.IsPlay ∧ s.Enabled op) start s) {op : Op S}
    (hplay : op.IsPlay) (hround : op ≠ .composeRound) (fault : Fault) :
    s.step op = .error fault ↔ Stops s op fault :=
  (inOrder_reachable hfirst hrun).step_stops_iff hplay hround fault

/-- One client plays. Another asks for the party 200, and there are two places for parties. -/
theorem play_stops_iff_illegalPartyId :
    ∃ (start s : Server plainExternal (plainSetup 2)) (t : ConnectionPtr), FirstGame start ∧
      Reaches Server.step (fun s op => op.IsPlay ∧ s.Enabled op) start s ∧
      nimbleServerLocalPartiesFindPartyForTransport s
        (s.connection t).transportConnectionId = .ok none ∧
      s.step (.join t (returningPlayer 200 0) (zeroLocals _)) = .error .illegalPartyId := by
  obtain ⟨start, s, hstart, hrun, hs⟩ :=
    exists_run Server.step (fun s op => op.IsPlay ∧ s.Enabled op)
      (fun s : Server plainExternal (plainSetup 2) =>
        (nimbleServerLocalPartiesFindPartyForTransport s
          (s.connection 1).transportConnectionId).toOption.any Option.isNone = true)
      (plainGame 2) [.receive 0, .join 0 onePlayer (zeroLocals _), .receive 1]
      (by decide +kernel)
  obtain ⟨found, hfind, hnone⟩ := exists_ok_of_any hs
  obtain rfl : found = none := Option.isNone_iff_eq_none.mp hnone
  have hstops : Stops s (.join 1 (returningPlayer 200 0) (zeroLocals _)) .illegalPartyId :=
    .partyId 1 _ _ hfind rfl (by decide)
  have hplay : (Op.join 1 (returningPlayer 200 0) (zeroLocals (plainSetup 2))).IsPlay :=
    .inl trivial
  have hfirst := firstGame_of_plainGame hstart
  exact ⟨start, s, 1, hfirst, hrun, hfind,
    (play_stops_iff hfirst hrun hplay (by rintro ⟨⟩) .illegalPartyId).mpr hstops⟩

end NimbleServer
