import NimbleServer.Model.PlainServer
import NimbleServer.Proofs.OperationRules

/-!
# `NimbleServer.Proofs.Lookup`: which party a connection has

`nimbleServerLocalPartiesFindPartyForTransport` compares the ids of transport connections.
`nimbleServerInit` gives every connection the id of its slot and nothing assigns it again
(`connectionIds_reachable`), so the comparison is one of connections
(`isPartyForTransport_iff`).

A request to rejoin names a party. What the server checks before it hands the party over is
less than the request carries: the session secret is not compared, and the party can be one
that nobody left. `takesOver_iff` says exactly when a party is handed over, and
`rejoin_checked_iff` when that is right.
-/

set_option autoImplicit false

namespace NimbleServer

open NimbleServer.Lib

variable {E : External} {S : Setup}

/-! ### The ids of transport connections -/

/-- A connection of a table that was just filled. -/
theorem connection_init (connections : ConnectionPtr → TransportConnection E S)
    (s : Server E S) (c : ConnectionPtr) :
    ({ s with transportConnections := tabulate _ connections } : Server E S).connection c
      = connections c := by
  simp [Server.connection, tabulate]

/-- Every slot but the first is on the new free list. -/
theorem initFreeTransportConnectionList_ensures (buffer : CircularBuffer) :
    Ensures (initFreeTransportConnectionList buffer)
      (fun list => list.toList = ((List.finRange
        NIMBLE_NIMBLE_SERVER_MAX_TRANSPORT_CONNECTIONS).drop 1).map fun c => UInt8.ofNat c.val)
      (fun _ => False) := by
  -- The list is generalized, or the loop over it would be run here.
  suffices h : ∀ l : List ConnectionPtr, l.length ≤ NIMBLE_SERVER_CIRCULAR_BUFFER_SIZE →
      initFreeTransportConnectionList buffer
        = l.foldlM (fun list c => nimbleServerCircularBufferWrite .transportConnections list
          (UInt8.ofNat c.val)) (nimbleServerCircularBufferInit buffer) →
      Ensures (initFreeTransportConnectionList buffer)
        (fun list => list.toList = l.map fun c => UInt8.ofNat c.val) (fun _ => False) by
    refine h ((List.finRange NIMBLE_NIMBLE_SERVER_MAX_TRANSPORT_CONNECTIONS).drop 1) ?_ ?_
    · rw [List.length_drop, List.length_finRange]
      exact Nat.sub_le _ 1
    · unfold initFreeTransportConnectionList
      rfl
  intro l hroom hloop
  rw [hloop]
  exact writeAll_ensures .transportConnections (fun c : ConnectionPtr => UInt8.ofNat c.val) l
    hroom buffer

/-- A new server: new parties, unused connections that have the ids of their slots, and
every slot but the first on the free list. -/
theorem nimbleServerInit_ensures (memory : Server E S) :
    Ensures (nimbleServerInit memory)
      (fun s => s.localParties = nimbleServerLocalPartiesInit S ∧
        (∀ c, (s.connection c).transportConnectionId = UInt8.ofNat c.val ∧
          (s.connection c).assignedParty = none ∧ (s.connection c).isUsed = false) ∧
        s.freeTransportConnectionList.toList
          = ((List.finRange NIMBLE_NIMBLE_SERVER_MAX_TRANSPORT_CONNECTIONS).drop 1).map
            fun c => UInt8.ofNat c.val)
      (fun fault => fault = .illegalSetup) := by
  unfold nimbleServerInit
  -- The three checks of the setup. The free list is filled only if all of them pass.
  by_cases h1 : S.maxConnectionCount > NIMBLE_NIMBLE_SERVER_MAX_TRANSPORT_CONNECTIONS
  · rw [if_pos h1]
    rfl
  rw [if_neg h1]
  by_cases h2 : S.maxSingleParticipantStepOctetCount > E.NimbleStepMaxSingleStepOctetCount
  · rw [if_pos h2]
    rfl
  rw [if_neg h2]
  by_cases h3 : S.maxParticipantCount > NIMBLE_NIMBLE_SERVER_MAX_TRANSPORT_CONNECTIONS
  · rw [if_pos h3]
    rfl
  rw [if_neg h3]
  refine ((initFreeTransportConnectionList_ensures _).mono (fun _ h => h)
    (fun _ h => h.elim)).bind ?_
  intro list hlist
  refine ⟨rfl, ?_, hlist⟩
  intro c
  have hconnection := connection_init
    (fun c => { memory.connection c with
      assignedParty := none, transportConnectionId := UInt8.ofNat c.val, isUsed := false })
    { memory with
      localParties := nimbleServerLocalPartiesInit S, freeTransportConnectionList := list } c
  rw [hconnection]
  exact ⟨rfl, rfl, rfl⟩

/-- A party of a server that was just initialised. -/
theorem Started.party {s : Server E S} (h : Started s) (p : PartyPtr S) :
    s.party p = nimbleServerLocalPartyInit S (UInt8.ofNat p.val) := by
  obtain ⟨memory, hinit⟩ := h
  have hparties := ((nimbleServerInit_ensures memory).of_ok hinit).1
  unfold Server.party
  rw [hparties]
  simp [LocalParties.get, nimbleServerLocalPartiesInit, tabulate]

/-- Every connection has the id of its slot. -/
def ConnectionIds (s : Server E S) : Prop :=
  ∀ c, (s.connection c).transportConnectionId = UInt8.ofNat c.val

/-- No operation assigns the id of a connection. -/
theorem connectionIds_rule :
    ConnectionRule (fun (_ : Server E S) _ => True)
      (fun c x => x.transportConnectionId = UInt8.ofNat c.val) where
  sameSlot := fun _ _ _ h hx => hx.transportConnectionId.trans h
  assigned := fun _ _ _ h => h
  released := fun _ _ h => h
  receive := fun _ _ _ _ h hx => hx.transportConnectionId.trans h
  connect := fun _ _ _ _ _ _ _ _ _ h hx => hx.transportConnectionId.trans h
  connected := fun _ _ _ _ h => h

/-- `nimbleServerInit` gives out the ids. -/
theorem Started.connectionIds {s : Server E S} (h : Started s) : ConnectionIds s := by
  obtain ⟨memory, hinit⟩ := h
  exact fun c => (((nimbleServerInit_ensures memory).of_ok hinit).2.1 c).1

/-- On a server that was initialised, every connection has the id of its slot. -/
theorem connectionIds_reachable {allowed : Server E S → Op S → Prop} {start s : Server E S}
    (hstart : Started start) (hrun : Reaches Server.step allowed start s) : ConnectionIds s :=
  connectionIds_rule.bindingKeeps.reachable hstart.connectionIds (hrun.mono fun _ _ _ => trivial)

/-! ### The lookup -/

/-- There are few enough connections for one octet. -/
theorem connectionOctet_injective {c d : ConnectionPtr}
    (h : UInt8.ofNat c.val = UInt8.ofNat d.val) : c = d := by
  have hval : (UInt8.ofNat c.val).toNat = (UInt8.ofNat d.val).toNat := congrArg UInt8.toNat h
  rw [toNat_connectionOctet, toNat_connectionOctet] at hval
  exact Fin.ext hval

/-- The party belongs to the connection. -/
def LocalParty.BelongsTo (party : LocalParty S) (t : ConnectionPtr) : Prop :=
  party.isUsed = true ∧ party.transportConnection = some t

/-- Both parts are comparisons. -/
instance (party : LocalParty S) (t : ConnectionPtr) : Decidable (party.BelongsTo t) :=
  inferInstanceAs (Decidable (_ ∧ _))

/-- The lookup compares connections. -/
theorem isPartyForTransport_iff {s : Server E S} (hids : ConnectionIds s) (t : ConnectionPtr)
    (party : LocalParty S) :
    isPartyForTransport s (s.connection t).transportConnectionId party = true
      ↔ party.BelongsTo t := by
  unfold isPartyForTransport LocalParty.BelongsTo
  rw [Bool.and_eq_true, hids t]
  refine and_congr_right fun _ => ?_
  -- A party without a connection matches no id.
  cases party.transportConnection with
  | none => simp
  | some c =>
    simp only [beq_iff_eq, hids c, Option.some.injEq]
    exact ⟨connectionOctet_injective, fun h => by rw [h]⟩

/-- For a connection without a party the lookup finds nothing, as long as it stays within
the parties array. -/
theorem findPartyForTransport_none {s : Server E S} (hids : ConnectionIds s)
    {t : ConnectionPtr} (hnone : ∀ p, ¬(s.party p).BelongsTo t) :
    nimbleServerLocalPartiesFindPartyForTransport s (s.connection t).transportConnectionId
      = if s.localParties.partiesCount ≤ S.maxConnectionCount then .ok none
        else .error .partyOutOfBounds := by
  have hlookup := findPartyForTransport_ensures s (s.connection t).transportConnectionId
  cases hfind : nimbleServerLocalPartiesFindPartyForTransport s
      (s.connection t).transportConnectionId with
  | error fault =>
    obtain ⟨rfl, hlong, -⟩ := hlookup.of_error hfind
    rw [if_neg (by omega)]
  | ok r =>
    have hr := hlookup.of_ok hfind
    cases r with
    | some p => exact absurd ((isPartyForTransport_iff hids t _).mp hr.2) (hnone p)
    | none => rw [if_pos hr.1]

/-! ### Taking a party over -/

/-- The request is answered with the party, and the party is bound to the connection. -/
def TakesOver (s : Server E S) (t : ConnectionPtr) (request : JoinGameRequest)
    (p : PartyPtr S) : Prop :=
  ∃ s', joinLocalParty s t request = .ok (.ok (some p), s') ∧
    (s'.party p).transportConnection = some t

/-- A request to rejoin, once the lookup found no party. -/
theorem joinLocalParty_partySecret {s : Server E S} {t : ConnectionPtr}
    {request : JoinGameRequest} (hfind : nimbleServerLocalPartiesFindPartyForTransport s
      (s.connection t).transportConnectionId = .ok none)
    (htype : request.joinGameType = .partySecret) :
    joinLocalParty s t request
      = if h : request.partyId.toNat < S.maxConnectionCount then
          if (s.party ⟨request.partyId.toNat, h⟩).participantReferences.length
              = request.playerCount then
            .ok (.ok (some ⟨request.partyId.toNat, h⟩), s.setParty ⟨request.partyId.toNat, h⟩
              (nimbleServerLocalPartyRejoin (s.party ⟨request.partyId.toNat, h⟩) t))
          else .ok (.ok none, s)
        else .error .illegalPartyId := by
  unfold joinLocalParty nimbleServerLocalPartiesFindParty
  rw [hfind, htype]
  by_cases hlt : request.partyId.toNat < S.maxConnectionCount
  · simp only [dif_pos hlt, ite_not]
    rfl
  · simp only [dif_neg hlt]
    rfl

/-- A request to rejoin from a connection without a party takes over the party it names
exactly when the number of players is right and the lookup stays within the parties. -/
theorem takesOver_iff {s : Server E S} (hids : ConnectionIds s) {t : ConnectionPtr}
    (hnone : ∀ p, ¬(s.party p).BelongsTo t) {request : JoinGameRequest}
    (htype : request.joinGameType = .partySecret) (p : PartyPtr S) :
    TakesOver s t request p ↔ s.localParties.partiesCount ≤ S.maxConnectionCount ∧
      p.val = request.partyId.toNat ∧
      (s.party p).participantReferences.length = request.playerCount := by
  have hfind := findPartyForTransport_none hids hnone
  by_cases hcount : s.localParties.partiesCount ≤ S.maxConnectionCount
  · rw [if_pos hcount] at hfind
    unfold TakesOver
    rw [joinLocalParty_partySecret hfind htype]
    constructor
    · rintro ⟨s', hs', -⟩
      split at hs'
      · -- With the wrong number of players the pointer is not assigned, and no party is taken
        -- over.
        split at hs'
        · rename_i hplayers
          cases hs'
          exact ⟨hcount, rfl, hplayers⟩
        · cases hs'
      · cases hs'
    · rintro ⟨-, hp, hplayers⟩
      have hlt : request.partyId.toNat < S.maxConnectionCount := hp ▸ p.isLt
      obtain rfl : p = ⟨request.partyId.toNat, hlt⟩ := Fin.ext hp
      rw [dif_pos hlt, if_pos hplayers]
      refine ⟨_, rfl, ?_⟩
      rw [Server.party_setParty, if_pos rfl]
      rfl
  · rw [if_neg hcount] at hfind
    constructor
    · rintro ⟨s', hs', -⟩
      unfold joinLocalParty at hs'
      rw [hfind] at hs'
      cases hs'
    · rintro ⟨h, -, -⟩
      exact absurd h hcount

/-- The party may be handed over: it is in use, it waits for its client, and the request
carries the server's secret. -/
def MayTakeOver (s : Server E S) (request : JoinGameRequest) (p : PartyPtr S) : Prop :=
  (s.party p).isUsed = true ∧ (s.party p).state = .waitingForReJoin ∧
    request.sessionSecret = s.sessionSecret

/-- The lookup for the connection reads no memory outside the parties. -/
def LookupInBounds (s : Server E S) (t : ConnectionPtr) : Prop :=
  nimbleServerLocalPartiesFindPartyForTransport s (s.connection t).transportConnectionId
    ≠ .error .partyOutOfBounds

/-- Without a party to find, the lookup goes on to the count of parties. -/
theorem lookupInBounds_iff {s : Server E S} (hids : ConnectionIds s) {t : ConnectionPtr}
    (hnone : ∀ p, ¬(s.party p).BelongsTo t) :
    LookupInBounds s t ↔ s.localParties.partiesCount ≤ S.maxConnectionCount := by
  unfold LookupInBounds
  rw [findPartyForTransport_none hids hnone]
  by_cases hcount : s.localParties.partiesCount ≤ S.maxConnectionCount
  · rw [if_pos hcount]
    exact iff_of_true (by rintro ⟨⟩) hcount
  · rw [if_neg hcount]
    exact iff_of_false (fun h => h rfl) hcount

/-- When a request to rejoin is handled as it should be, on any server that was initialised
and for any connection without a party. The lookup stays within the parties and the request
takes over only a party that it may take over exactly when the count of parties does not
exceed their number and the number of players is wrong or the named party is one that it may
take over. The lookup stays within the parties and two requests that differ in the secret do
not both take over a party exactly when the count of parties does not exceed their number and
the number of players is wrong. -/
theorem rejoin_checked_iff {start s : Server E S} (hstart : Started start)
    (hrun : Reaches Server.step (fun _ _ => True) start s) {t : ConnectionPtr}
    (hnone : ∀ p, ¬(s.party p).BelongsTo t) {request : JoinGameRequest}
    (htype : request.joinGameType = .partySecret) :
    ((LookupInBounds s t ∧ ∀ p, TakesOver s t request p → MayTakeOver s request p) ↔
      s.localParties.partiesCount ≤ S.maxConnectionCount ∧
        ∀ p : PartyPtr S, p.val = request.partyId.toNat →
          (s.party p).participantReferences.length ≠ request.playerCount ∨
            MayTakeOver s request p) ∧
    ((LookupInBounds s t ∧ ∀ secret secret' p p', secret ≠ secret' →
        TakesOver s t { request with sessionSecret := secret } p →
          ¬TakesOver s t { request with sessionSecret := secret' } p') ↔
      s.localParties.partiesCount ≤ S.maxConnectionCount ∧
        ∀ p : PartyPtr S, p.val = request.partyId.toNat →
          (s.party p).participantReferences.length ≠ request.playerCount) := by
  have hids := connectionIds_reachable hstart hrun
  have htakes := fun p => takesOver_iff hids hnone htype p
  -- The secret is not looked at.
  have hsecret : ∀ secret p, TakesOver s t { request with sessionSecret := secret } p
      ↔ TakesOver s t request p := fun secret p =>
    (@takesOver_iff E S s hids t hnone { request with sessionSecret := secret } htype p).trans
      (htakes p).symm
  rw [lookupInBounds_iff hids hnone]
  constructor
  · refine and_congr_right fun hcount => ⟨fun h p hp => ?_, fun h p hp => ?_⟩
    · by_cases hplayers : (s.party p).participantReferences.length = request.playerCount
      · exact .inr (h p ((htakes p).mpr ⟨hcount, hp, hplayers⟩))
      · exact .inl hplayers
    · obtain ⟨-, hnamed, hplayers⟩ := (htakes p).mp hp
      exact (h p hnamed).resolve_left fun hne => hne hplayers
  · refine and_congr_right fun hcount => ⟨fun h p hp hplayers => ?_, ?_⟩
    · -- Any two secrets show that it was not compared.
      have hover : TakesOver s t request p := (htakes p).mpr ⟨hcount, hp, hplayers⟩
      exact h 0 1 p p (by decide) ((hsecret 0 p).mpr hover) ((hsecret 1 p).mpr hover)
    · intro h secret secret' p p' _ hp _
      obtain ⟨-, hnamed, hplayers⟩ := (htakes p).mp ((hsecret secret p).mp hp)
      exact h p hnamed hplayers

/-- A server with two slots to which a game with one party was moved, and a connection without
a party. -/
theorem exists_movedPartyServer :
    ∃ start s : Server plainExternal (plainSetup 2), nimbleServerInit (zeroMemory _) = .ok start ∧
      Reaches Server.step (fun _ _ => True) start s ∧
      (∀ p, ¬(s.party p).BelongsTo 1) ∧ s.localParties.partiesCount = 1 ∧
      (s.party ⟨0, by decide⟩).isUsed = true ∧
      (s.party ⟨0, by decide⟩).state = .waitingForReJoin ∧
      (s.party ⟨0, by decide⟩).participantReferences.length = 1 ∧ s.sessionSecret = 7 :=
  exists_run Server.step (fun _ _ => True)
    (fun s => (∀ p, ¬(s.party p).BelongsTo 1) ∧ s.localParties.partiesCount = 1 ∧
      (s.party ⟨0, by decide⟩).isUsed = true ∧
      (s.party ⟨0, by decide⟩).state = .waitingForReJoin ∧
      (s.party ⟨0, by decide⟩).participantReferences.length = 1 ∧ s.sessionSecret = 7)
    (nimbleServerInit (zeroMemory (plainSetup 2)))
    [.reInitWithGame 0, .hostMigration [{ participantIds := [0] }] (zeroLocals _), .receive 1]
    (by decide +kernel)

/-- The player of a party that was moved comes back with the server's secret. The request is
handled as it should be, and it takes the party over. -/
theorem rejoin_checked_iff_serverSecret :
    ∃ start s : Server plainExternal (plainSetup 2), Started start ∧
      Reaches Server.step (fun _ _ => True) start s ∧ (∀ p, ¬(s.party p).BelongsTo 1) ∧
      TakesOver s 1 (returningPlayer 0 7) ⟨0, by decide⟩ ∧
      MayTakeOver s (returningPlayer 0 7) ⟨0, by decide⟩ ∧ LookupInBounds s 1 ∧
      ∀ p, TakesOver s 1 (returningPlayer 0 7) p → MayTakeOver s (returningPlayer 0 7) p := by
  obtain ⟨start, s, hstart, hrun, hnone, hcount, hused, hstate, hplayers, hsecret⟩ :=
    exists_movedPartyServer
  have hbound : s.localParties.partiesCount ≤ (plainSetup 2).maxConnectionCount := by
    rw [hcount]
    decide
  have hmay : MayTakeOver s (returningPlayer 0 7) ⟨0, by decide⟩ :=
    ⟨hused, hstate, hsecret.symm⟩
  have htype : (returningPlayer 0 7).joinGameType = .partySecret := rfl
  have hchecked := (rejoin_checked_iff ⟨_, hstart⟩ hrun hnone htype).1.mpr
    ⟨hbound, fun p hp => by
      obtain rfl : p = ⟨0, by decide⟩ := Fin.ext hp
      exact .inr hmay⟩
  refine ⟨start, s, ⟨_, hstart⟩, hrun, hnone, ?_, hmay, hchecked⟩
  exact (takesOver_iff (connectionIds_reachable ⟨_, hstart⟩ hrun) hnone rfl _).mpr
    ⟨hbound, rfl, hplayers⟩

/-- A server with two slots on which one client plays, and a connection without a party. -/
theorem exists_onePartyServer :
    ∃ start s : Server plainExternal (plainSetup 2), nimbleServerInit (zeroMemory _) = .ok start ∧
      Reaches Server.step (fun s op => s.Enabled op) start s ∧
      (∀ p, ¬(s.party p).BelongsTo 1) ∧ s.localParties.partiesCount = 1 ∧
      (s.party ⟨0, by decide⟩).isUsed = true ∧ (s.party ⟨0, by decide⟩).state = .normal ∧
      (s.party ⟨0, by decide⟩).participantReferences.length = 1 ∧ s.sessionSecret = 7 :=
  exists_run Server.step (fun s op => s.Enabled op)
    (fun s => (∀ p, ¬(s.party p).BelongsTo 1) ∧ s.localParties.partiesCount = 1 ∧
      (s.party ⟨0, by decide⟩).isUsed = true ∧ (s.party ⟨0, by decide⟩).state = .normal ∧
      (s.party ⟨0, by decide⟩).participantReferences.length = 1 ∧ s.sessionSecret = 7)
    (nimbleServerInit (zeroMemory (plainSetup 2)))
    [.reInitWithGame 0, .receive 0, .join 0 onePlayer (zeroLocals _), .receive 1]
    (by decide +kernel)

/-- Two requests with different secrets, neither of them the server's, take over a party
that its own client is playing in. -/
theorem rejoin_takesOver_playedParty :
    ∃ start s : Server plainExternal (plainSetup 2), Started start ∧
      Reaches Server.step (fun s op => s.Enabled op) start s ∧
      (∀ p, ¬(s.party p).BelongsTo 1) ∧
      TakesOver s 1 (returningPlayer 0 1) ⟨0, by decide⟩ ∧
      ¬MayTakeOver s (returningPlayer 0 1) ⟨0, by decide⟩ ∧
      TakesOver s 1 (returningPlayer 0 2) ⟨0, by decide⟩ := by
  obtain ⟨start, s, hstart, hrun, hnone, hcount, hused, hstate, hplayers, hsecret⟩ :=
    exists_onePartyServer
  have hids := connectionIds_reachable ⟨_, hstart⟩ hrun
  have hover : ∀ secret, TakesOver s 1 (returningPlayer 0 secret) ⟨0, by decide⟩ := by
    intro secret
    refine (takesOver_iff hids hnone rfl _).mpr ⟨?_, rfl, hplayers⟩
    rw [hcount]
    decide
  refine ⟨start, s, ⟨_, hstart⟩, hrun, hnone, hover 1, ?_, hover 2⟩
  rintro ⟨-, hwaiting, -⟩
  rw [hstate] at hwaiting
  cases hwaiting

end NimbleServer
