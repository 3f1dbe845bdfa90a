import NimbleServer.Proofs.PartyCount

/-!
# `NimbleServer.Proofs.PartyTicks`: what a tick does to each party

`Outcomes` says how the round of one party can end. Here the round is said exactly, as a
function of the party: `tickedParty` is the party after its round, and `LocalParty.expires`
says whether a waiting party gives up in it. A round does not touch other parties, so after a
tick every party is the `tickedParty` of what it was before (`tickParties_party`).

A party that gives up is dissolved (`Dissolves`). If it has a connection, this puts one index
on the free list of connections. `tickParties_returns_iff` says that the list is the only
thing that can stop a tick: it has to have room for the connections of all parties that give
up.
-/

set_option autoImplicit false

namespace NimbleServer

open NimbleServer.Lib

variable {E : External} {S : Setup}

/-! ### One party -/

/-- The party after `tickNormal`. -/
def tickedNormal (x : LocalParty S) : LocalParty S :=
  let result := nimbleServerConnectionQualityDelayedTick x.impedingDisconnectCounter x.quality
  if result.1 then { x with impedingDisconnectCounter := result.2 }
  else { x with
    impedingDisconnectCounter := result.2
    state := .waitingForReJoin
    waitingForReconnectTimer := 0 }

/-- A waiting party in use gives up at this tick. -/
def LocalParty.expires (x : LocalParty S) : Bool :=
  x.isUsed && x.state == .waitingForReJoin && !(tickWaitingForReconnect x).1

/-- The party after its round. -/
def tickedParty (x : LocalParty S) : LocalParty S :=
  if x.isUsed then
    match x.state with
    | .normal => tickedNormal x
    | .waitingForReJoin =>
      if x.expires then dissolvedParty x else (tickWaitingForReconnect x).2
    | .dissolved => x
  else x

/-- A waiting party that does not give up advances its timer. -/
theorem tickedParty_waiting {x : LocalParty S} (hused : x.isUsed = true)
    (hstate : x.state = .waitingForReJoin) (hexpires : x.expires = false) :
    tickedParty x = (tickWaitingForReconnect x).2 := by
  unfold tickedParty
  rw [if_pos hused, hstate, hexpires]
  rfl

/-- A party that gives up is reset. -/
theorem tickedParty_expires {x : LocalParty S} (hexpires : x.expires = true) :
    tickedParty x = dissolvedParty x := by
  have hparts := hexpires
  simp only [LocalParty.expires, Bool.and_eq_true, beq_iff_eq] at hparts
  unfold tickedParty
  rw [if_pos hparts.1.1, hparts.1.2]
  dsimp only
  rw [if_pos hexpires]

/-- `tickNormal` changes one party. -/
theorem party_tickNormal {s : Server E S} {p : PartyPtr S}
    (hstate : (s.party p).state = .normal) (q : PartyPtr S) :
    (tickNormal s p).party q = if p = q then tickedNormal (s.party p) else s.party q := by
  unfold tickNormal tickedNormal
  dsimp only
  generalize nimbleServerConnectionQualityDelayedTick (s.party p).impedingDisconnectCounter
    (s.party p).quality = result
  obtain ⟨shouldKeep, counter⟩ := result
  -- The source asks for the state again after it stored the counter.
  have hwaiting : (((s.setParty p { s.party p with
      impedingDisconnectCounter := counter }).party p).state != .waitingForReJoin) = true := by
    rw [Server.party_setParty, if_pos rfl]
    show ((s.party p).state != .waitingForReJoin) = true
    rw [hstate]
    rfl
  dsimp only
  rw [hwaiting]
  cases shouldKeep with
  | true => exact Server.party_setParty s p q _
  | false => exact party_lost s p q counter

/-! ### The round of a party -/

/-- The party is dissolved, its participants are leaving and its connection is free again.
Nothing else changes. -/
structure Dissolves (s : Server E S) (p : PartyPtr S) (s' : Server E S) : Prop where
  party : ∀ q, s'.party q = if p = q then dissolvedParty (s.party p) else s.party q
  participant : ∀ i, s'.participant i
    = if i ∈ (s.party p).participantReferences then { s.participant i with state := .leaving }
      else s.participant i
  connection : ∀ c, s'.connection c
    = if (s.party p).transportConnection = some c then
        transportConnectionDisconnect (s.connection c)
      else s.connection c
  partiesCount : s'.localParties.partiesCount = s.localParties.partiesCount - 1
  freeCount : s'.freeTransportConnectionList.count = s.freeTransportConnectionList.count
    + if (s.party p).transportConnection.isSome then 1 else 0

/-- The round of a party. -/
structure Ticked (s : Server E S) (p : PartyPtr S) (s' : Server E S) : Prop where
  party : ∀ q, s'.party q = if p = q then tickedParty (s.party p) else s.party q
  expired : (s.party p).expires = true → Dissolves s p s'
  -- The round of a party that does not give up.
  others : (s.party p).expires = false →
    ∀ i, ((s.party p).isUsed = true → i ∉ (s.party p).participantReferences) →
      s'.participant i = s.participant i
  connections : (s.party p).expires = false → s'.transportConnections = s.transportConnections
  freeList : (s.party p).expires = false →
    s'.freeTransportConnectionList = s.freeTransportConnectionList
  partiesCount : (s.party p).expires = false →
    s'.localParties.partiesCount = s.localParties.partiesCount

/-- Why the round of a party can stop. -/
structure TickStops (s : Server E S) (p : PartyPtr S) : Prop where
  expires : (s.party p).expires = true
  reason : s.localParties.partiesCount = 0 ∨
    (s.party p).transportConnection.isSome = true ∧ s.freeTransportConnectionList.isFull = true

/-- A party without a connection is dissolved, -/
theorem dissolves_none {s : Server E S} {p : PartyPtr S}
    (hconnection : (s.party p).transportConnection = none) :
    Dissolves s p (dissolveParty (advanceTimer s p) p) where
  party := party_dissolved s p
  participant := participant_dissolved s p
  connection := by
    intro c
    rw [hconnection, if_neg (by rintro ⟨⟩)]
    unfold Server.connection
    rw [dissolveParty_transportConnections]
    rfl
  partiesCount := dissolveParty_partiesCount _ _
  freeCount := by
    rw [hconnection, dissolveParty_freeTransportConnectionList]
    rfl

/-- and so is one with a connection, which goes to the free list. -/
theorem dissolves_some {s : Server E S} {p : PartyPtr S} {t : ConnectionPtr}
    (hconnection : (s.party p).transportConnection = some t)
    (hfull : s.freeTransportConnectionList.isFull = false) :
    Dissolves s p (releaseConnection (dissolveParty (advanceTimer s p) p) t) where
  party := party_dissolved s p
  participant := participant_dissolved s p
  connection := by
    intro c
    have hbefore : ∀ c, (dissolveParty (advanceTimer s p) p).connection c = s.connection c := by
      intro c
      unfold Server.connection
      rw [dissolveParty_transportConnections]
      rfl
    unfold releaseConnection
    rw [Server.connection_setConnection, hconnection, hbefore]
    -- The connection is released after the party is dissolved, which does not touch connections.
    by_cases htc : t = c
    · subst htc
      rw [if_pos rfl, if_pos rfl]
    · rw [if_neg htc, if_neg fun h => htc (Option.some.inj h)]
      exact hbefore c
  partiesCount := dissolveParty_partiesCount _ _
  freeCount := by
    have hlist : (dissolveParty (advanceTimer s p) p).freeTransportConnectionList
        = s.freeTransportConnectionList := dissolveParty_freeTransportConnectionList _ _
    rw [hconnection]
    show ((dissolveParty (advanceTimer s p) p).freeTransportConnectionList.push _).count = _
    rw [hlist, Ring.count_push _ _ hfull]
    rfl

/-- The parts of the round of a party that does not give up. -/
theorem Ticked.of_kept {s s' : Server E S} {p : PartyPtr S}
    (hexpires : (s.party p).expires = false)
    (hparty : ∀ q, s'.party q = if p = q then tickedParty (s.party p) else s.party q)
    (hothers : ∀ i, ((s.party p).isUsed = true → i ∉ (s.party p).participantReferences) →
      s'.participant i = s.participant i)
    (hconnections : s'.transportConnections = s.transportConnections)
    (hfree : s'.freeTransportConnectionList = s.freeTransportConnectionList)
    (hcount : s'.localParties.partiesCount = s.localParties.partiesCount) : Ticked s p s' :=
  ⟨hparty, fun h => (Bool.false_ne_true (hexpires.symm.trans h)).elim, fun _ => hothers,
    fun _ => hconnections, fun _ => hfree, fun _ => hcount⟩

/-- The round of a party that gives up. -/
theorem Ticked.of_dissolves {s s' : Server E S} {p : PartyPtr S}
    (hexpires : (s.party p).expires = true) (h : Dissolves s p s') : Ticked s p s' := by
  have hnot : ¬(s.party p).expires = false := by
    rw [hexpires]
    rintro ⟨⟩
  exact ⟨(tickedParty_expires hexpires).symm ▸ h.party, fun _ => h, fun h => absurd h hnot,
    fun h => absurd h hnot, fun h => absurd h hnot, fun h => absurd h hnot⟩

/-- The round of a party in state Normal. -/
theorem ticked_normal {s : Server E S} {p : PartyPtr S} (hused : (s.party p).isUsed = true)
    (hstate : (s.party p).state = .normal) : Ticked s p (tickNormal s p) := by
  have hticked : tickedParty (s.party p) = tickedNormal (s.party p) := by
    unfold tickedParty
    rw [if_pos hused, hstate]
  have hexpires : (s.party p).expires = false := by
    simp [LocalParty.expires, hstate]
  have hparty := party_tickNormal hstate
  have houtcome := tickNormal_outcome hused hstate
  rw [← hticked] at hparty
  -- `party_tickNormal` has the exact party, the outcome has all the rest.
  generalize tickNormal s p = s' at hparty houtcome ⊢
  cases houtcome with
  | kept counter _ _ _ => exact .of_kept hexpires hparty (fun _ _ => rfl) rfl rfl rfl
  | lost counter _ _ _ =>
    refine .of_kept hexpires hparty (fun i hi => ?_) ?_ ?_ ?_
    · rw [participant_lost, if_neg (hi hused)]
    · exact setReferencedStates_transportConnections _ _ _
    · exact setReferencedStates_freeTransportConnectionList _ _ _
    · unfold setToWaitingForReJoin
      rw [setReferencedStates_localParties]
      rfl
  | unused h => cases hused.symm.trans h
  | waited _ h | stale _ h | dissolved _ h _ _ | disconnected _ _ h _ _ _ =>
    cases hstate.symm.trans h

/-- The round of any party, with the reasons for which it can stop. -/
theorem tickParty_ticked (s : Server E S) (p : PartyPtr S) :
    Ensures (tickParty s p) (Ticked s p) (fun _ => TickStops s p) := by
  unfold tickParty
  split
  · rename_i hused
    unfold nimbleServerLocalPartyTick
    cases hstate : (s.party p).state with
    | normal => exact ticked_normal hused hstate
    | dissolved =>
      have hticked : tickedParty (s.party p) = s.party p := by
        unfold tickedParty
        rw [if_pos hused, hstate]
      refine .of_kept (by simp [LocalParty.expires, hstate]) (fun q => ?_) (fun _ _ => rfl) rfl
        rfl rfl
      rw [hticked]
      exact (ite_eq_right_iff.mpr fun hpq => congrArg s.party hpq).symm
    | waitingForReJoin =>
      dsimp only
      cases hkeep : (tickWaitingForReconnect (s.party p)).1 with
      | true =>
        have hexpires : (s.party p).expires = false := by simp [LocalParty.expires, hkeep]
        have hticked := tickedParty_waiting hused hstate hexpires
        exact .of_kept hexpires (hticked.symm ▸ party_advanceTimer s p) (fun _ _ => rfl) rfl rfl
          rfl
      | false =>
        have hexpires : (s.party p).expires = true := by
          simp [LocalParty.expires, hkeep, hused, hstate]
        -- The timer is advanced also in the round that dissolves the party.
        show Ensures (dissolveRound (advanceTimer s p) p) _ _
        refine (dissolveRound_ensures hused).mono ?_ ?_
        · rintro s' ⟨-, ⟨ht, rfl⟩ | ⟨t, ht, hfull, rfl⟩⟩
          · exact .of_dissolves hexpires (dissolves_none ht)
          · exact .of_dissolves hexpires (dissolves_some ht hfull)
        · rintro fault (⟨-, hcount⟩ | ⟨t, ht, hfull, -⟩)
          · exact ⟨hexpires, .inl hcount⟩
          · exact ⟨hexpires, .inr ⟨ht.symm ▸ rfl, hfull⟩⟩
  · rename_i hused
    have hticked : tickedParty (s.party p) = s.party p := if_neg hused
    refine .of_kept (by simp [LocalParty.expires, hused]) (fun q => ?_) (fun _ _ => rfl) rfl
      rfl rfl
    rw [hticked]
    exact (ite_eq_right_iff.mpr fun hpq => congrArg s.party hpq).symm

/-- A round changes only the participants of its party. -/
theorem Ticked.participant {s s' : Server E S} {p : PartyPtr S} (h : Ticked s p s')
    {i : ParticipantPtr S}
    (hi : (s.party p).isUsed = true → i ∉ (s.party p).participantReferences) :
    s'.participant i = s.participant i := by
  cases hexpires : (s.party p).expires with
  | false => exact h.others hexpires i hi
  | true =>
    have hparts := hexpires
    simp only [LocalParty.expires, Bool.and_eq_true] at hparts
    rw [(h.expired hexpires).participant, if_neg (hi hparts.1.1)]

/-- A round disconnects a connection or leaves it. -/
theorem Ticked.connection {s s' : Server E S} {p : PartyPtr S} (h : Ticked s p s')
    (c : ConnectionPtr) :
    s'.connection c = s.connection c ∨
      s'.connection c = transportConnectionDisconnect (s.connection c) := by
  cases hexpires : (s.party p).expires with
  | false =>
    unfold Server.connection
    rw [h.connections hexpires]
    exact .inl rfl
  | true =>
    rw [(h.expired hexpires).connection]
    split
    · exact .inr rfl
    · exact .inl rfl

/-! ### All parties -/

/-- A party that gives up and has a connection puts it on the free list. -/
def LocalParty.freesConnection (x : LocalParty S) : Bool :=
  x.expires && x.transportConnection.isSome

/-- How many connections the listed parties put on the free list. -/
def freedCount (s : Server E S) (parties : List (PartyPtr S)) : Nat :=
  parties.countP fun p => (s.party p).freesConnection

/-- The state after the rounds of the parties in `done`, from `s` on. -/
structure TickedUpTo (s : Server E S) (done : List (PartyPtr S)) (s' : Server E S) : Prop where
  party : ∀ q, s'.party q = if q ∈ done then tickedParty (s.party q) else s.party q
  participant : ∀ i, (∀ q ∈ done, (s.party q).isUsed = true →
    i ∉ (s.party q).participantReferences) → s'.participant i = s.participant i
  connection : ∀ c, s'.connection c = s.connection c ∨
    s'.connection c = transportConnectionDisconnect (s.connection c)
  freeCount : s'.freeTransportConnectionList.count
    = s.freeTransportConnectionList.count + freedCount s done

/-- Before the first round. -/
theorem TickedUpTo.nil (s : Server E S) : TickedUpTo s [] s :=
  ⟨fun _ => (if_neg List.not_mem_nil).symm, fun _ _ => rfl, fun _ => .inl rfl, rfl⟩

/-- A round puts at most one index on the free list. -/
theorem Ticked.freeCount {s s' : Server E S} {p : PartyPtr S} (h : Ticked s p s') :
    s'.freeTransportConnectionList.count = s.freeTransportConnectionList.count
      + if (s.party p).freesConnection then 1 else 0 := by
  unfold LocalParty.freesConnection
  cases hexpires : (s.party p).expires with
  | false =>
    rw [h.freeList hexpires]
    rfl
  | true =>
    rw [(h.expired hexpires).freeCount, Bool.true_and]

/-- The round of the next party, which finds it as it was. -/
theorem TickedUpTo.next {s s1 s2 : Server E S} {done : List (PartyPtr S)} {p : PartyPtr S}
    (h : TickedUpTo s done s1) (hp : p ∉ done) (hround : Ticked s1 p s2) :
    TickedUpTo s (done ++ [p]) s2 := by
  have hbefore : s1.party p = s.party p := by rw [h.party, if_neg hp]
  have hmem : p ∈ done ++ [p] := List.mem_append_right _ (List.mem_singleton_self p)
  refine ⟨fun q => ?_, fun i hi => ?_, fun c => ?_, ?_⟩
  · rw [hround.party, hbefore, h.party]
    by_cases hpq : p = q
    · subst hpq
      rw [if_pos rfl, if_pos hmem]
    · have hiff : q ∈ done ++ [p] ↔ q ∈ done := by
        rw [List.mem_append, List.mem_singleton]
        exact or_iff_left fun hqp => hpq hqp.symm
      rw [if_neg hpq]
      simp only [hiff]
  · rw [hround.participant (hbefore.symm ▸ hi p hmem),
      h.participant i fun q hq => hi q (List.mem_append_left _ hq)]
  · -- A connection that is disconnected twice is as if it were disconnected once.
    rcases h.connection c with hc | hc
    · rw [← hc]
      exact hround.connection c
    · rcases hround.connection c with hc' | hc'
      · exact .inr (hc'.trans hc)
      · exact .inr (hc'.trans (hc.symm ▸ rfl))
  · rw [hround.freeCount, hbefore, h.freeCount]
    simp only [freedCount, List.countP_append, List.countP_singleton]
    omega

/-- Each party has its round once. -/
theorem notMem_done {parties done rest : List (PartyPtr S)} {p : PartyPtr S}
    (hnodup : parties.Nodup) (h : parties = done ++ p :: rest) : p ∉ done := by
  rw [h] at hnodup
  intro hp
  exact (List.nodup_append.mp hnodup).2.2 p hp p List.mem_cons_self rfl

/-- The rounds of any parties, each once. -/
theorem rounds_tickedUpTo (s : Server E S) {parties : List (PartyPtr S)}
    (hnodup : parties.Nodup) :
    Ensures (parties.foldlM tickParty s) (TickedUpTo s parties) (fun _ => True) := by
  refine ensures_foldlM_done (TickedUpTo s) _ (.nil s) ?_
  intro done p rest s1 hsplit h
  exact (tickParty_ticked s1 p).mono
    (fun _ hround => h.next (notMem_done hnodup hsplit) hround) fun _ _ => trivial

/-- A tick is a round of each party. -/
theorem tickParties_tickedUpTo (s : Server E S) :
    Ensures (tickParties s) (TickedUpTo s (List.finRange S.maxConnectionCount))
      (fun _ => True) :=
  rounds_tickedUpTo s (List.nodup_finRange _)

/-- After a tick every party has had its round. -/
theorem tickParties_party (s : Server E S) :
    Ensures (tickParties s) (fun s' => ∀ p, s'.party p = tickedParty (s.party p))
      (fun _ => True) := by
  refine (tickParties_tickedUpTo s).mono (fun s' h p => ?_) fun _ h => h
  rw [h.party, if_pos (List.mem_finRange p)]

/-! ### When a tick returns -/

/-- A party that gives up when the list is full. -/
theorem TickStops.not_fits {s s1 : Server E S} {done : List (PartyPtr S)} {p : PartyPtr S}
    (hstops : TickStops s1 p) (h : TickedUpTo s done s1) (hp : p ∉ done)
    (hcovered : PartiesRelated (fun used count => used ≤ count) s1) (rest : List (PartyPtr S)) :
    NIMBLE_SERVER_CIRCULAR_BUFFER_SIZE
      < s.freeTransportConnectionList.count + freedCount s (done ++ p :: rest) := by
  have hparts := hstops.expires
  simp only [LocalParty.expires, Bool.and_eq_true] at hparts
  rcases hstops.reason with hzero | ⟨hconnection, hfull⟩
  · -- The party itself is counted.
    have hpos : 0 < s1.localParties.usedCount := LocalParties.usedCount_pos hparts.1.1
    have hle : s1.localParties.usedCount ≤ s1.localParties.partiesCount := hcovered
    omega
  · have hbefore : s1.party p = s.party p := by rw [h.party, if_neg hp]
    have hfrees : (s.party p).freesConnection = true := by
      rw [← hbefore, LocalParty.freesConnection, hstops.expires, hconnection]
      rfl
    have hcount := h.freeCount
    rw [(Ring.isFull_iff _).mp hfull] at hcount
    have hsplit : freedCount s (done ++ p :: rest)
        = freedCount s done + (freedCount s rest + 1) := by
      simp [freedCount, hfrees]
    omega

/-- A tick returns exactly when the free list has room for the connections of all parties that
give up in it. -/
theorem tickParties_returns_iff {s : Server E S}
    (hcovered : s.localParties.usedCount ≤ s.localParties.partiesCount) :
    (∃ s', tickParties s = .ok s') ↔
      s.freeTransportConnectionList.count + freedCount s (List.finRange S.maxConnectionCount)
        ≤ NIMBLE_SERVER_CIRCULAR_BUFFER_SIZE := by
  constructor
  · rintro ⟨s', hs'⟩
    rw [← ((tickParties_tickedUpTo s).of_ok hs').freeCount]
    exact Ring.count_le _
  · intro hroom
    have hreturns : Ensures (tickParties s) (fun _ => True) (fun _ => False) := by
      refine (ensures_foldlM_done (fun done s1 => TickedUpTo s done s1 ∧
        PartiesRelated (fun used count => used ≤ count) s1) _ ⟨.nil s, hcovered⟩ ?_).mono
        (fun _ _ => trivial) fun _ h => h
      -- The invariant is what the rounds did so far, and that all parties in use are counted.
      rintro done p rest s1 hsplit ⟨h, hs1⟩
      have hp := notMem_done (List.nodup_finRange _) hsplit
      refine ((tickParty_ticked s1 p).and (tickParty_ensures s1 p)).mono ?_ ?_
      · rintro s2 ⟨hround, houtcome⟩
        exact ⟨h.next hp hround, hs1.tick countsParties_le houtcome⟩
      · rintro fault ⟨hstops, -⟩
        have hover := hstops.not_fits h hp hs1 rest
        rw [← hsplit] at hover
        omega
    obtain ⟨s', hs', -⟩ := hreturns.exists_ok
    exact ⟨s', hs'⟩

end NimbleServer
