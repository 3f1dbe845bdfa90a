import NimbleServer.Proofs.Lookup

/-!
# `NimbleServer.Proofs.JoinHandling`: what becomes of a join request

`nimbleServerReqGameJoin` has many ways to end: the connection has a party already, the
request names a party, or a new party is created from what is left in two pools. A request
is handled as it should be (`JoinHandled`) when success means that the connection has a
normal party with the players of the request, and an error means that nothing of the game
changed.

`JoinFits` is the condition on the state and the request under which this is so, and
`join_handled_iff` says that it is exact. What can go wrong otherwise:

* A party of the connection answers whatever its state and its number of players.
* A request that names a party with another number of players is answered with success, and
  the party pointer was never assigned.
* A request that names a slot nobody uses takes over that slot.
* A request to create a party stops the server unless it has one player.
-/

set_option autoImplicit false

namespace NimbleServer

open NimbleServer.Lib

variable {E : External} {S : Setup}

/-! ### Handled requests -/

/-- The party references the given number of participants, all different and used. -/
def PlaysWith (s : Server E S) (p : PartyPtr S) (playerCount : Nat) : Prop :=
  (s.party p).participantReferences.length = playerCount ∧
    (s.party p).participantReferences.Nodup ∧
    ∀ i ∈ (s.party p).participantReferences, (s.participant i).isUsed = true

/-- The response that is written for a party. -/
def joinResponse (s : Server E S) (p : PartyPtr S) : JoinGameResponse where
  partyId := (s.party p).id
  sessionSecret := s.sessionSecret
  participants := (s.party p).participantReferences.map fun i =>
    ((s.participant i).id, (s.participant i).localIndex)

/-- The party is one that the connection plays in. -/
structure JoinedAs (s : Server E S) (t : ConnectionPtr) (playerCount : Nat) (p : PartyPtr S) :
    Prop where
  belongs : (s.party p).BelongsTo t
  normal : (s.party p).state = .normal
  players : PlaysWith s p playerCount

/-- The participants, their free list, the two counts and every party in use are as before. -/
structure GameUnchanged (s s' : Server E S) : Prop where
  participant : ∀ i, s'.participant i = s.participant i
  freeList : s'.game.participants.freeList = s.game.participants.freeList
  participantCount :
    s'.game.participants.participantCount = s.game.participants.participantCount
  partiesCount : s'.localParties.partiesCount = s.localParties.partiesCount
  isUsed : ∀ p, (s'.party p).isUsed = (s.party p).isUsed
  party : ∀ p, (s.party p).isUsed = true → s'.party p = s.party p

/-- A request is handled as it should be: a result that is not negative answers with a party
the connection plays in, and a negative one changes nothing of the game. -/
structure JoinHandled (s : Server E S) (t : ConnectionPtr) (request : JoinGameRequest)
    (outStream : OutStream) (result : Int) (reply : OutStream) (s' : Server E S) : Prop where
  success : 0 ≤ result → ∃ p, (s'.connection t).assignedParty = some p ∧
    reply = E.nimbleSerializeServerOutJoinGameResponse outStream (joinResponse s' p) ∧
    JoinedAs s' t request.playerCount p
  failure : result < 0 → GameUnchanged s s'

/-! ### Requests that can be handled -/

/-- The lookup finds the party: it belongs to the connection, and it is the first one that
does among the first `partiesCount`. -/
def IsFoundParty (s : Server E S) (t : ConnectionPtr) (p : PartyPtr S) : Prop :=
  p.val < s.localParties.partiesCount ∧ (s.party p).BelongsTo t ∧
    ∀ q, q < p → ¬(s.party q).BelongsTo t

/-- The lookup finds no party. -/
def FindsNoParty (s : Server E S) (t : ConnectionPtr) : Prop :=
  s.localParties.partiesCount ≤ S.maxConnectionCount ∧
    ∀ p : PartyPtr S, p.val < s.localParties.partiesCount → ¬(s.party p).BelongsTo t

/-- The pool can answer a request for one participant: it is full, or the id at the front of
the free list is that of an unused participant. -/
def PoolAnswers (self : Participants E S) : Prop :=
  S.maxParticipantCount ≤ self.participantCount ∨
    self.freeList.isEmpty = false ∧
      ∃ i : ParticipantPtr S, self.freeList.front.toNat = i.val ∧ (self.get i).isUsed = false

/-- A request from a connection without a party can be handled. -/
def NewPartyFits (s : Server E S) (request : JoinGameRequest) : Prop :=
  match request.joinGameType with
  | .partySecret => ∃ p : PartyPtr S, p.val = request.partyId.toNat ∧
      (s.party p).isUsed = true ∧ PlaysWith s p request.playerCount
  | .noSecret => (∀ p, (s.party p).isUsed = true) ∨
      request.playerCount = 1 ∧ PoolAnswers s.game.participants

/-- The request can be handled. -/
def JoinFits (s : Server E S) (t : ConnectionPtr) (request : JoinGameRequest) : Prop :=
  (∃ p, IsFoundParty s t p ∧ (s.party p).state = .normal ∧
      PlaysWith s p request.playerCount) ∨
    FindsNoParty s t ∧ NewPartyFits s request

/-! ### The lookup -/

/-- No party before the one that is found matches. Induction on the slots that remain. -/
theorem findPartyForTransportFrom_first (s : Server E S) (transportConnectionId : UInt8) :
    ∀ (remaining index : Nat) (p : PartyPtr S),
      findPartyForTransportFrom s transportConnectionId remaining index = .ok (some p) →
      ∀ q : PartyPtr S, index ≤ q.val → q < p →
        isPartyForTransport s transportConnectionId (s.party q) = false := by
  intro remaining
  induction remaining with
  | zero =>
    intro index p h
    cases h
  | succ remaining ih =>
    intro index p h q hq hqp
    unfold findPartyForTransportFrom at h
    split at h
    · rename_i hlt
      split at h
      · -- The scan ends at `index`, and a slot before `p` is before that.
        cases h
        have : q.val < index := hqp
        omega
      · rename_i hmatch
        by_cases hindex : q.val = index
        · have : q = ⟨index, hlt⟩ := Fin.ext hindex
          rw [this]
          exact Bool.eq_false_iff.mpr hmatch
        · exact ih (index + 1) p h q (by omega) hqp
    · cases h

/-- What the lookup returns, in terms of the connections of the parties. -/
theorem findPartyForTransport_cases {s : Server E S} (hids : ConnectionIds s)
    (t : ConnectionPtr) :
    Ensures (nimbleServerLocalPartiesFindPartyForTransport s
        (s.connection t).transportConnectionId)
      (fun r => (∃ p, r = some p ∧ IsFoundParty s t p) ∨ r = none ∧ FindsNoParty s t)
      (fun _ => ¬FindsNoParty s t ∧ ∀ p, ¬IsFoundParty s t p) := by
  have hlookup := findPartyForTransport_ensures s (s.connection t).transportConnectionId
  have hbelongs := fun p => isPartyForTransport_iff hids t (s.party p)
  cases hfind : nimbleServerLocalPartiesFindPartyForTransport s
      (s.connection t).transportConnectionId with
  | error fault =>
    -- The scan ran over the end of the array, so no slot of it matched.
    obtain ⟨-, hlong, hnone⟩ := hlookup.of_error hfind
    refine ⟨fun h => absurd h.1 (Nat.not_le.mpr hlong), fun p hp => ?_⟩
    exact absurd ((hbelongs p).mpr hp.2.1) (Bool.eq_false_iff.mp (hnone p))
  | ok r =>
    have hr := hlookup.of_ok hfind
    cases r with
    | some p =>
      refine .inl ⟨p, rfl, hr.1, (hbelongs p).mp hr.2, fun q hq hbelongsq => ?_⟩
      exact Bool.eq_false_iff.mp (findPartyForTransportFrom_first s _ _ 0 p hfind q
        (Nat.zero_le _) hq) ((hbelongs q).mpr hbelongsq)
    | none =>
      refine .inr ⟨rfl, hr.1, fun p hp hbelongsp => ?_⟩
      exact Bool.eq_false_iff.mp (hr.2 p hp) ((hbelongs p).mpr hbelongsp)

/-- At most one party is the one that is found. -/
theorem IsFoundParty.unique {s : Server E S} {t : ConnectionPtr} {p q : PartyPtr S}
    (hp : IsFoundParty s t p) (hq : IsFoundParty s t q) : p = q := by
  rcases lt_trichotomy p q with hlt | heq | hlt
  · exact absurd hp.2.1 (hq.2.2 p hlt)
  · exact heq
  · exact absurd hq.2.1 (hp.2.2 q hlt)

/-- A party that is found is one that a lookup without a result would have seen. -/
theorem IsFoundParty.not_findsNoParty {s : Server E S} {t : ConnectionPtr} {p : PartyPtr S}
    (hp : IsFoundParty s t p) : ¬FindsNoParty s t :=
  fun h => h.2 p hp.1 hp.2.1

/-! ### joinLocalParty -/

/-- The connection has a party. -/
theorem joinLocalParty_found {s : Server E S} {t : ConnectionPtr} {p : PartyPtr S}
    (hfind : nimbleServerLocalPartiesFindPartyForTransport s
      (s.connection t).transportConnectionId = .ok (some p)) (request : JoinGameRequest) :
    joinLocalParty s t request = .ok (.ok (some p), s) := by
  unfold joinLocalParty
  rw [hfind]
  rfl

/-- A request for a new party, once the lookup found none. -/
theorem joinLocalParty_noSecret {s : Server E S} {t : ConnectionPtr}
    {request : JoinGameRequest} (hfind : nimbleServerLocalPartiesFindPartyForTransport s
      (s.connection t).transportConnectionId = .ok none)
    (htype : request.joinGameType = .noSecret) :
    joinLocalParty s t request = (nimbleServerLocalPartiesCreate s t request.players
      (E.expectedWriteId s.game.authoritativeSteps)).map fun r => (r.1.map some, r.2) := by
  unfold joinLocalParty
  rw [hfind, htype]
  show (nimbleServerLocalPartiesCreate _ _ _ _ >>= _) = _
  cases nimbleServerLocalPartiesCreate s t request.players
      (E.expectedWriteId s.game.authoritativeSteps) with
  | error fault => rfl
  | ok r =>
    obtain ⟨result, s'⟩ := r
    cases result with
    | error code => rfl
    | ok p => rfl

/-- A participant can be asked for without a stop exactly when there is one player and the
pool can answer. -/
theorem nimbleServerParticipantsJoin_returns_iff (self : Participants E S)
    (localPlayers : List Nat) (party : PartyPtr S) (expectedStepId : StepId) :
    (∃ r, nimbleServerParticipantsJoin self localPlayers party expectedStepId = .ok r) ↔
      localPlayers.length = 1 ∧ PoolAnswers self := by
  unfold nimbleServerParticipantsJoin nimbleServerCircularBufferRead PoolAnswers
  split
  · rename_i localIndex
    simp only [List.length_singleton, true_and]
    by_cases hfull : self.participantCount + 1 > S.maxParticipantCount
    · rw [if_pos hfull]
      exact iff_of_true ⟨_, rfl⟩ (.inl (by omega))
    rw [if_neg hfull]
    have hroom : ¬S.maxParticipantCount ≤ self.participantCount := by omega
    cases hempty : self.freeList.isEmpty with
    -- An id is read from an empty list.
    | true => exact iff_of_false (by rintro ⟨r, ⟨⟩⟩) (by rintro (h | ⟨⟨⟩, -⟩); exact hroom h)
    | false =>
      by_cases hlt : self.freeList.front.toNat < S.maxParticipantCount
      · cases hused : (self.get ⟨self.freeList.front.toNat, hlt⟩).isUsed with
        | true =>
          refine iff_of_false ?_ ?_
          · rintro ⟨r, hr⟩
            simp [bind, Except.bind, pure, Except.pure, hlt, hused, throw, throwThe,
              MonadExceptOf.throw] at hr
          · rintro (h | ⟨-, i, hi, hfree⟩)
            · exact hroom h
            · have : i = ⟨self.freeList.front.toNat, hlt⟩ := Fin.ext hi.symm
              rw [this, hused] at hfree
              cases hfree
        | false =>
          refine iff_of_true ?_ (.inr ⟨rfl, _, rfl, hused⟩)
          simp [bind, Except.bind, pure, Except.pure, hlt, hused]
      · -- The id at the front is out of range.
        refine iff_of_false ?_ ?_
        · rintro ⟨r, hr⟩
          simp [bind, Except.bind, pure, Except.pure, hlt, throw, throwThe,
            MonadExceptOf.throw] at hr
        · rintro (h | ⟨-, i, hi, -⟩)
          · exact hroom h
          · exact hlt (hi ▸ i.isLt)
  · -- The source asserts that there is exactly one player.
    rename_i hplayers
    refine iff_of_false (by rintro ⟨r, ⟨⟩⟩) ?_
    rintro ⟨hlength, -⟩
    obtain ⟨localIndex, rfl⟩ := List.length_eq_one_iff.mp hlength
    exact hplayers localIndex rfl

/-! ### Handled requests in terms of `joinLocalParty` -/

/-- It depends on the references and the participants only. -/
theorem PlaysWith.congr {s s' : Server E S} {p : PartyPtr S} {playerCount : Nat}
    (h : PlaysWith s p playerCount)
    (hrefs : (s'.party p).participantReferences = (s.party p).participantReferences)
    (hparticipant : ∀ i, s'.participant i = s.participant i) : PlaysWith s' p playerCount := by
  unfold PlaysWith
  rw [hrefs]
  refine ⟨h.1, h.2.1, fun i hi => ?_⟩
  rw [hparticipant i]
  exact h.2.2 i hi

/-- Assigning a party to the connection changes nothing about how it plays. -/
theorem joinedAs_assignParty_iff (s : Server E S) (t : ConnectionPtr) (playerCount : Nat)
    (p : PartyPtr S) :
    JoinedAs (assignParty s t p) t playerCount p ↔ JoinedAs s t playerCount p := by
  have hparty := party_assignParty s t p p
  rw [if_pos rfl] at hparty
  constructor
  · rintro ⟨hbelongs, hnormal, hplayers⟩
    rw [hparty] at hbelongs hnormal
    exact ⟨hbelongs, hnormal, hplayers.congr (by rw [hparty]) fun _ => rfl⟩
  · rintro ⟨hbelongs, hnormal, hplayers⟩
    refine ⟨?_, ?_, hplayers.congr (by rw [hparty]) fun _ => rfl⟩
    · rw [hparty]
      exact hbelongs
    · rw [hparty]
      exact hnormal

/-- `joinLocalParty` returned a party the connection plays in, or an error that changed
nothing of the game. -/
def JoinLocalHandled (s : Server E S) (t : ConnectionPtr) (playerCount : Nat) :
    Result (Except Int (Option (PartyPtr S)) × Server E S) → Prop
  | .ok (.ok (some p), s') => JoinedAs s' t playerCount p
  | .ok (.ok none, _) => False
  | .ok (.error code, s') => code < 0 ∧ GameUnchanged s s'
  | .error _ => False

/-- The error codes of `joinLocalParty` are negative. -/
theorem joinLocalParty_code_neg (s : Server E S) (t : ConnectionPtr) (request : JoinGameRequest) :
    Ensures (joinLocalParty s t request) (fun r => ∀ code, r.1 = .error code → code < 0)
      (fun _ => True) := by
  have hcreate : ∀ (players : List Nat) (stepId : StepId),
      Ensures (nimbleServerLocalPartiesCreate s t players stepId)
        (fun r => ∀ code, r.1 = .error code → code < 0) (fun _ => True) := by
    intro players stepId
    unfold nimbleServerLocalPartiesCreate
    split
    · rintro code ⟨⟩
      decide
    · rename_i p s' _
      refine ((nimbleServerParticipantsJoin_ensures s'.game.participants players p stepId).mono
        (fun _ h => h) (fun _ _ => trivial)).bind ?_
      rintro ⟨result, participants⟩ hjoin
      cases hjoin with
      | full hfull =>
        rintro code ⟨⟩
        decide
      | joined i localIndex hplayers hroom hempty hfront hfree => rintro code ⟨⟩
  cases hfind : nimbleServerLocalPartiesFindPartyForTransport s
      (s.connection t).transportConnectionId with
  | error fault =>
    unfold joinLocalParty
    rw [hfind]
    trivial
  | ok r =>
    cases r with
    | some p =>
      rw [joinLocalParty_found hfind]
      rintro code ⟨⟩
    | none =>
      cases htype : request.joinGameType with
      | partySecret =>
        rw [joinLocalParty_partySecret hfind htype]
        split
        · split
          · rintro code ⟨⟩
          · rintro code ⟨⟩
        · trivial
      | noSecret =>
        rw [joinLocalParty_noSecret hfind htype]
        refine Ensures.map ((hcreate _ _).mono ?_ fun _ _ => trivial)
        rintro ⟨result, s'⟩ hneg code hcode
        cases result with
        | error code' =>
          cases hcode
          exact hneg code rfl
        | ok p => cases hcode

/-- A decoded request is handled, whatever the local variables held, exactly when
`joinLocalParty` does its part. -/
theorem joinHandled_iff_local (s : Server E S) (t : ConnectionPtr) {inStream : InStream}
    (outStream : OutStream) {request : JoinGameRequest} {consumed : Nat}
    (hdecoded : E.nimbleSerializeServerInJoinGameRequest inStream = .ok (request, consumed)) :
    (∀ uninitialized, ∃ result rest reply s',
        nimbleServerReqGameJoin s t inStream outStream uninitialized
          = .ok (result, rest, reply, s') ∧
        JoinHandled s t request outStream result reply s') ↔
      JoinLocalHandled s t request.playerCount (joinLocalParty s t request) := by
  have hneg := joinLocalParty_code_neg s t request
  -- A pointer that points at nothing is the content that tells success from an assignment.
  let nothing : Uninitialized S := ⟨0, 0, 0, fun _ => 0, 0, none, none⟩
  cases hlocal : joinLocalParty s t request with
  | error fault =>
    refine iff_of_false (fun h => ?_) fun h => h
    obtain ⟨result, rest, reply, s', hreq, -⟩ := h nothing
    simp only [nimbleServerReqGameJoin, hdecoded, joinGame,
      nimbleServerReadAndJoinParticipants, hlocal] at hreq
    cases hreq
  | ok r =>
    obtain ⟨result, s'⟩ := r
    cases result with
    | error code =>
      have hcode : code < 0 := hneg.of_ok hlocal code rfl
      have hreq : ∀ uninitialized, nimbleServerReqGameJoin s t inStream outStream uninitialized
          = .ok (code, inStream.drop consumed,
            E.nimbleSerializeServerOutJoinGameOutOfParticipantSlotsResponse outStream
              request.nonce, s') := by
        intro uninitialized
        simp only [nimbleServerReqGameJoin, hdecoded, joinGame,
          nimbleServerReadAndJoinParticipants, hlocal]
        rfl
      constructor
      · intro h
        obtain ⟨result, rest, reply, s'', hreq', hhandled⟩ := h nothing
        rw [hreq nothing] at hreq'
        cases hreq'
        exact ⟨hcode, hhandled.failure hcode⟩
      · rintro ⟨-, hsame⟩ uninitialized
        exact ⟨_, _, _, _, hreq uninitialized, fun h => absurd hcode (Int.not_lt.mpr h),
          fun _ => hsame⟩
    | ok party =>
      -- The pointer was not assigned, so the result depends on what it held.
      cases party with
      | none =>
        refine iff_of_false (fun h => ?_) fun h => h
        obtain ⟨result, rest, reply, s'', hreq, -⟩ := h nothing
        simp only [nimbleServerReqGameJoin, hdecoded, joinGame,
          nimbleServerReadAndJoinParticipants, hlocal] at hreq
        cases hreq
      | some p =>
        have hreq : ∀ uninitialized, nimbleServerReqGameJoin s t inStream outStream uninitialized
            = .ok (0, inStream.drop consumed,
              E.nimbleSerializeServerOutJoinGameResponse outStream
                (joinResponse (assignParty s' t p) p), assignParty s' t p) := by
          intro uninitialized
          simp only [nimbleServerReqGameJoin, hdecoded, joinGame,
            nimbleServerReadAndJoinParticipants, hlocal]
          rfl
        have hassigned : ((assignParty s' t p).connection t).assignedParty = some p := by
          unfold assignParty
          rw [Server.connection_setConnection, if_pos rfl]
        constructor
        · intro h
          obtain ⟨result, rest, reply, s'', hreq', hhandled⟩ := h nothing
          rw [hreq nothing] at hreq'
          cases hreq'
          -- The party of the answer is the one that was just assigned.
          obtain ⟨q, hq, -, hjoined⟩ := hhandled.success (Int.le_refl 0)
          cases hassigned.symm.trans hq
          exact (joinedAs_assignParty_iff s' t _ p).mp hjoined
        · intro hjoined uninitialized
          refine ⟨_, _, _, _, hreq uninitialized, fun _ => ⟨p, hassigned, rfl, ?_⟩, fun h => ?_⟩
          · exact (joinedAs_assignParty_iff s' t _ p).mpr hjoined
          · exact absurd h (by decide)

/-! ### The three kinds of request -/

/-- Nothing changed at all. -/
theorem GameUnchanged.refl (s : Server E S) : GameUnchanged s s :=
  ⟨fun _ => rfl, rfl, rfl, rfl, fun _ => rfl, fun _ _ => rfl⟩

/-- Giving an unused slot its id changes nothing of the game. -/
theorem GameUnchanged.nameParty {s : Server E S} {p : PartyPtr S}
    (hp : (s.party p).isUsed = false) : GameUnchanged s (NimbleServer.nameParty s p) where
  participant := fun _ => rfl
  freeList := rfl
  participantCount := rfl
  partiesCount := rfl
  isUsed := by
    intro q
    rw [party_nameParty]
    split
    · rename_i hpq
      rw [← hpq]
    · rfl
  party := by
    intro q hq
    rw [party_nameParty, if_neg]
    rintro rfl
    cases hp.symm.trans hq

/-- A request that names a party. -/
theorem joinLocalHandled_partySecret_iff {s : Server E S} {t : ConnectionPtr}
    {request : JoinGameRequest} (hfind : nimbleServerLocalPartiesFindPartyForTransport s
      (s.connection t).transportConnectionId = .ok none)
    (htype : request.joinGameType = .partySecret) :
    JoinLocalHandled s t request.playerCount (joinLocalParty s t request) ↔
      ∃ p : PartyPtr S, p.val = request.partyId.toNat ∧ (s.party p).isUsed = true ∧
        PlaysWith s p request.playerCount := by
  rw [joinLocalParty_partySecret hfind htype]
  by_cases hlt : request.partyId.toNat < S.maxConnectionCount
  · rw [dif_pos hlt]
    have hnamed : ∀ p : PartyPtr S, p.val = request.partyId.toNat →
        p = ⟨request.partyId.toNat, hlt⟩ := fun p hp => Fin.ext hp
    by_cases hcount : (s.party ⟨request.partyId.toNat, hlt⟩).participantReferences.length
        = request.playerCount
    · rw [if_pos hcount]
      have hparty := Server.party_setParty s ⟨request.partyId.toNat, hlt⟩
        ⟨request.partyId.toNat, hlt⟩
        (nimbleServerLocalPartyRejoin (s.party ⟨request.partyId.toNat, hlt⟩) t)
      rw [if_pos rfl] at hparty
      constructor
      · rintro ⟨hbelongs, -, hplayers⟩
        rw [hparty] at hbelongs
        exact ⟨_, rfl, hbelongs.1, hplayers.congr (by rw [hparty]; rfl) fun _ => rfl⟩
      · rintro ⟨p, hp, hused, hplayers⟩
        rw [hnamed p hp] at hused hplayers
        refine ⟨?_, ?_, hplayers.congr (by rw [hparty]; rfl) fun _ => rfl⟩
        · rw [hparty]
          exact ⟨hused, rfl⟩
        · rw [hparty]
          rfl
    · -- With another number of players no party is assigned.
      rw [if_neg hcount]
      refine iff_of_false (fun h => h) ?_
      rintro ⟨p, hp, -, hplayers⟩
      exact hcount (hnamed p hp ▸ hplayers.1)
  · rw [dif_neg hlt]
    refine iff_of_false (fun h => h) ?_
    rintro ⟨p, hp, -, -⟩
    exact hlt (hp ▸ p.isLt)

/-- A request for a new party. -/
theorem joinLocalHandled_noSecret_iff {s : Server E S} {t : ConnectionPtr}
    {request : JoinGameRequest} (hfind : nimbleServerLocalPartiesFindPartyForTransport s
      (s.connection t).transportConnectionId = .ok none)
    (htype : request.joinGameType = .noSecret) :
    JoinLocalHandled s t request.playerCount (joinLocalParty s t request) ↔
      (∀ p, (s.party p).isUsed = true) ∨
        request.playerCount = 1 ∧ PoolAnswers s.game.participants := by
  rw [joinLocalParty_noSecret hfind htype]
  simp only [nimbleServerLocalPartiesCreate, findFreePartyPlaceButDoNotReserveItYet]
  cases hplace : firstFreeParty s with
  | none =>
    refine iff_of_true ⟨?_, GameUnchanged.refl s⟩ (.inl (firstFreeParty_none hplace))
    decide
  | some p =>
    have hfree := firstFreeParty_isUsed hplace
    have hnotall : ¬∀ p, (s.party p).isUsed = true := fun h => by
      cases hfree.symm.trans (h p)
    have hreturns := nimbleServerParticipantsJoin_returns_iff s.game.participants
      request.players p (E.expectedWriteId s.game.authoritativeSteps)
    dsimp only
    have hgame : (s.setParty p { s.party p with id := UInt8.ofNat p.val }).game = s.game := rfl
    rw [hgame]
    cases hjoin : nimbleServerParticipantsJoin s.game.participants request.players p
        (E.expectedWriteId s.game.authoritativeSteps) with
    | error fault =>
      refine iff_of_false (fun h => h) ?_
      rintro (h | h)
      · exact hnotall h
      · obtain ⟨r, hr⟩ := hreturns.mpr h
        cases hjoin.symm.trans hr
    | ok r =>
      refine iff_of_true ?_ (.inr (hreturns.mp ⟨r, hjoin⟩))
      have houtcome := (nimbleServerParticipantsJoin_ensures s.game.participants request.players p
        (E.expectedWriteId s.game.authoritativeSteps)).of_ok hjoin
      cases houtcome with
      -- A full pool is an error, and the slot has been named already.
      | full hfull => exact ⟨by decide, GameUnchanged.nameParty hfree⟩
      | joined i localIndex hplayers hroom hempty hfront hunused =>
        have hcount : request.playerCount = 1 := congrArg List.length hplayers
        rw [hcount]
        show JoinedAs (addParty ((nameParty s p).setParticipants _) p (some t) [i]) t 1 p
        refine ⟨?_, ?_, ?_⟩
        · rw [party_addParty, if_pos rfl]
          exact ⟨rfl, rfl⟩
        · rw [party_addParty, if_pos rfl]
          rfl
        · unfold PlaysWith
          rw [party_addParty, if_pos rfl]
          refine ⟨rfl, List.nodup_singleton i, fun j hj => ?_⟩
          obtain rfl := List.mem_singleton.mp hj
          show ((s.game.participants.set j _).get j).isUsed = true
          rw [Participants.get_set_self]

/-! ### The result -/

/-- On a server that was initialised, a decoded join request is handled as it should be,
whatever the uninitialised variables held, exactly when it fits the state: the connection's
party is normal and plays with as many players, or the connection has no party and the
lookup stays within the parties array, and either the request names a party in use with as
many players, or it asks for a new party and all are in use, or it has one player and the
pool can answer. -/
theorem join_handled_iff {start s : Server E S} (hstart : Started start)
    (hrun : Reaches Server.step (fun _ _ => True) start s) (t : ConnectionPtr)
    {inStream : InStream} (outStream : OutStream) {request : JoinGameRequest} {consumed : Nat}
    (hdecoded : E.nimbleSerializeServerInJoinGameRequest inStream = .ok (request, consumed)) :
    (∀ uninitialized, ∃ result rest reply s',
        nimbleServerReqGameJoin s t inStream outStream uninitialized
          = .ok (result, rest, reply, s') ∧
        JoinHandled s t request outStream result reply s') ↔ JoinFits s t request := by
  rw [joinHandled_iff_local s t outStream hdecoded]
  have hlookup := findPartyForTransport_cases (connectionIds_reachable hstart hrun) t
  cases hfind : nimbleServerLocalPartiesFindPartyForTransport s
      (s.connection t).transportConnectionId with
  | error fault =>
    obtain ⟨hsome, hnone⟩ := hlookup.of_error hfind
    -- A lookup that stops the server stops the join.
    have hstop : joinLocalParty s t request = .error fault := by
      unfold joinLocalParty
      rw [hfind]
      rfl
    rw [hstop]
    refine iff_of_false (fun h => h) ?_
    rintro (⟨p, hp, -⟩ | ⟨h, -⟩)
    · exact hnone p hp
    · exact hsome h
  | ok r =>
    rcases hlookup.of_ok hfind with ⟨p, rfl, hp⟩ | ⟨rfl, hnone⟩
    · rw [joinLocalParty_found hfind]
      constructor
      · rintro ⟨-, hnormal, hplayers⟩
        exact .inl ⟨p, hp, hnormal, hplayers⟩
      · rintro (⟨q, hq, hnormal, hplayers⟩ | ⟨h, -⟩)
        · cases hp.unique hq
          exact ⟨hp.2.1, hnormal, hplayers⟩
        · exact absurd h hp.not_findsNoParty
    · have hfits : JoinFits s t request ↔ NewPartyFits s request := by
        constructor
        · rintro (⟨p, hp, -⟩ | ⟨-, h⟩)
          · exact absurd hnone hp.not_findsNoParty
          · exact h
        · exact fun h => .inr ⟨hnone, h⟩
      rw [hfits]
      unfold NewPartyFits
      cases htype : request.joinGameType with
      | partySecret => exact joinLocalHandled_partySecret_iff hfind htype
      | noSecret => exact joinLocalHandled_noSecret_iff hfind htype

/-- A client plays in the first of two slots, and another client asks for a party. -/
theorem join_handled_iff_secondClient :
    ∃ start s : Server plainExternal (plainSetup 2), Started start ∧
      Reaches Server.step (fun _ _ => True) start s ∧ (s.party ⟨0, by decide⟩).isUsed = true ∧
      ∀ uninitialized, ∃ result rest reply s',
        nimbleServerReqGameJoin s 1 (joinOctets 0 0 1) (plainExternal.fldOutStreamInit 100)
          uninitialized = .ok (result, rest, reply, s') ∧
        JoinHandled s 1 onePlayer (plainExternal.fldOutStreamInit 100) result reply s' := by
  obtain ⟨start, s, hstart, hrun, hused, hcount, hnone, hempty, hfront, hfree⟩ :=
    exists_run Server.step (fun _ _ => True)
      (fun s : Server plainExternal (plainSetup 2) => (s.party ⟨0, by decide⟩).isUsed = true ∧
        s.localParties.partiesCount ≤ 2 ∧ (∀ p, ¬(s.party p).BelongsTo 1) ∧
        s.game.participants.freeList.isEmpty = false ∧
        s.game.participants.freeList.front.toNat = 1 ∧
        (s.participant ⟨1, by decide⟩).isUsed = false)
      (nimbleServerInit (zeroMemory (plainSetup 2)))
      [.reInitWithGame 0, .receive 0, .join 0 onePlayer (zeroLocals _), .receive 1]
      (by decide +kernel)
  refine ⟨start, s, ⟨_, hstart⟩, hrun, hused, ?_⟩
  have hdecoded : plainExternal.nimbleSerializeServerInJoinGameRequest (joinOctets 0 0 1)
      = .ok (onePlayer, 11) := rfl
  refine (join_handled_iff ⟨_, hstart⟩ hrun 1 (plainExternal.fldOutStreamInit 100) hdecoded).mpr
    (.inr ⟨⟨hcount, fun p _ => hnone p⟩, ?_⟩)
  exact .inr ⟨rfl, .inr ⟨hempty, ⟨1, by decide⟩, hfront, hfree⟩⟩

/-- A client plays in the first of two slots. On another connection a request without players
stops the server. A request that names the client's party with two players is answered with
success, and with whatever party the pointer held: here one that is not in use. -/
theorem join_noPlayers_stops :
    ∃ start s : Server plainExternal (plainSetup 2), Started start ∧
      Reaches Server.step (fun s op => s.Enabled op) start s ∧
      nimbleServerReqGameJoin s 1 (joinOctets 0 0 0) (plainExternal.fldOutStreamInit 100)
        (zeroLocals _) = .error .localParticipantCount ∧
      ∃ rest reply s', nimbleServerReqGameJoin s 1 (joinOctets 1 0 2)
          (plainExternal.fldOutStreamInit 100) { zeroLocals _ with party := some ⟨1, by decide⟩ }
          = .ok (0, rest, reply, s') ∧
        (s'.connection 1).assignedParty = some ⟨1, by decide⟩ ∧
        (s'.party ⟨1, by decide⟩).isUsed = false := by
  obtain ⟨start, s, hstart, hrun, hstop, hanswer⟩ :=
    exists_run Server.step (fun s op => s.Enabled op)
      (fun s : Server plainExternal (plainSetup 2) =>
        (nimbleServerReqGameJoin s 1 (joinOctets 0 0 0) (plainExternal.fldOutStreamInit 100)
          (zeroLocals _)).map (fun _ => ()) = .error .localParticipantCount ∧
        (nimbleServerReqGameJoin s 1 (joinOctets 1 0 2) (plainExternal.fldOutStreamInit 100)
          { zeroLocals _ with party := some ⟨1, by decide⟩ }).map
            (fun r => (r.1, (r.2.2.2.connection 1).assignedParty,
              (r.2.2.2.party ⟨1, by decide⟩).isUsed))
          = .ok (0, some ⟨1, by decide⟩, false))
      (nimbleServerInit (zeroMemory (plainSetup 2)))
      [.reInitWithGame 0, .receive 0, .join 0 onePlayer (zeroLocals _), .receive 1]
      (by decide +kernel)
  obtain ⟨⟨result, rest, reply, s'⟩, hreq, hvalues⟩ := map_eq_ok.mp hanswer
  simp only [Prod.mk.injEq] at hvalues
  obtain ⟨rfl, hassigned, hunused⟩ := hvalues
  exact ⟨start, s, ⟨_, hstart⟩, hrun, map_eq_error.mp hstop, rest, reply, s', hreq, hassigned,
    hunused⟩

end NimbleServer
