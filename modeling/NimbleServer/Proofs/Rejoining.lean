import NimbleServer.Proofs.BackReferences
import NimbleServer.Proofs.History

/-!
# `NimbleServer.Proofs.Rejoining`: coming back to a party

The answer to a join carries the id of the party and lists its participants. A client that
lost its connection sends that id on another one, and the party is taken over.

* `PartiesNamed`: in a running game the id of a party in use is its slot, which is what the
  source looks the id up as.
* `answered_party_can_be_rejoined`: as long as the party stays in use, whatever the other
  clients do, the id of an answer finds that party again, and the second answer lists the
  same participants as the first.
* `lost_participants_stay_waiting`: the participants of a party that was lost are reported
  as waiting in every later step until they leave, also after such a join. Nothing in the
  source takes a participant back from waiting.
-/

set_option autoImplicit false

namespace NimbleServer

open NimbleServer.Lib

variable {E : External} {S : Setup}

/-! ### The ids of the parties -/

/-- Every party in use has its slot as its id. -/
def PartiesNamed (s : Server E S) : Prop :=
  ∀ p, (s.party p).isUsed = true → (s.party p).id = UInt8.ofNat p.val

namespace PartiesNamed

variable {s s' : Server E S}

/-- Flags and ids are as before. -/
theorem congr (h : PartiesNamed s)
    (hs' : ∀ p, (s'.party p).isUsed = (s.party p).isUsed ∧ (s'.party p).id = (s.party p).id) :
    PartiesNamed s' := by
  intro p hp
  rw [(hs' p).2]
  exact h p ((hs' p).1.symm.trans hp)

/-- One party is replaced. -/
theorem replace (h : PartiesNamed s) (p : PartyPtr S) {x : LocalParty S}
    (hs' : ∀ q, s'.party q = if p = q then x else s.party q)
    (hx : x.isUsed = true → x.id = UInt8.ofNat p.val) : PartiesNamed s' := by
  intro q hq
  rw [hs' q] at hq ⊢
  split at hq
  · rename_i hpq
    rw [if_pos hpq, hx hq, hpq]
  · rename_i hpq
    rw [if_neg hpq]
    exact h q hq

/-- Storing and composing rename nobody. -/
theorem of_sameParties (h : PartiesNamed s) (hs' : SameParties s s') : PartiesNamed s' :=
  h.congr fun p => ⟨hs'.isUsed p, hs'.id p⟩

end PartiesNamed

/-- All operations of a running game keep it: a party gets its id before it comes into use. -/
theorem partiesNamed_playRule (allowed : Server E S → Op S → Prop) :
    PlayRule allowed (PartiesNamed (E := E) (S := S)) (fun _ => True) where
  same := by
    intro s s' h _ hparties
    refine h.congr fun p => ?_
    have hparty : s'.party p = s.party p := congrArg (LocalParties.get · p) hparties
    rw [hparty]
    exact ⟨rfl, rfl⟩
  join := by
    intro s t request uninitialized r h _ hr
    cases hr with
    | noPlace code hplace => exact h
    | sessionFull code p hplace => exact h.replace p (party_nameParty s p) fun _ => rfl
    | found p hcount hmatch => exact h.replace p (party_assignParty s t p) (h p)
    | unassigned p q htype hfind hnamed hcount hpointer =>
      exact h.replace p (party_assignParty s t p) (h p)
    | rejoined p htype hfind hnamed hcount => exact h.replace p (party_rejoined s t p) (h p)
    | created p i participants htype hfind hplace hjoin =>
      exact h.replace p (fun q => party_created s t p q participants i) fun _ => rfl
  joinFault := fun _ _ _ _ => trivial
  tick := by
    intro s p s' h hs'
    cases hs' with
    | unused hused => exact h
    | kept counter hused hstate hcounter =>
      exact h.replace p (fun q => Server.party_setParty s p q _) (h p)
    | lost counter hused hstate hfailing =>
      exact h.replace p (fun q => party_lost s p q counter) (h p)
    | waited hused hstate => exact h.replace p (party_advanceTimer s p) (h p)
    | stale hused hstate => exact h
    | dissolved hused hstate hcount hconnection =>
      exact h.replace p (party_dissolved s p) (by rintro ⟨⟩)
    | disconnected t hused hstate hcount hconnection hfull =>
      exact h.replace p (party_dissolved s p) (by rintro ⟨⟩)
  tickFault := fun _ _ _ _ _ => trivial
  connectionFault := fun _ _ => trivial
  store := fun s t inStream uninitialized h _ =>
    h.of_sameParties (SameParties.of_readIncomingSteps s t inStream uninitialized)
  compose := fun s h _ => (SameParties.of_composeRound s).mono
    (fun _ hs' => h.of_sameParties hs') fun _ _ => trivial

/-- A new game has no party in use. -/
theorem StartsGame.partiesNamed {s : Server E S} (h : StartsGame s) : PartiesNamed s := by
  intro p hp
  cases (h.parties_reset p).1.symm.trans hp

/-- It holds in every state of a running game. -/
theorem partiesNamed_reachable {start s : Server E S} (hstart : StartsGame start)
    {allowed : Server E S → Op S → Prop} (hplay : ∀ s op, allowed s op → op.IsPlay)
    (hrun : Reaches Server.step allowed start s) : PartiesNamed s :=
  (partiesNamed_playRule allowed).reachable hplay hstart.partiesNamed hrun

/-! ### A party that stays in use -/

/-- What the answer to a join lists: the id and the local index of each participant. -/
def answeredParticipants (s : Server E S) (p : PartyPtr S) : List (UInt8 × Nat) :=
  (s.party p).participantReferences.map fun i =>
    ((s.participant i).id, (s.participant i).localIndex)

/-- As long as the party is in use, it has the id and the participants that it had in
`joined`. -/
structure KeepsParty (p : PartyPtr S) (joined s : Server E S) : Prop where
  back : BackReferences s
  id : (s.party p).isUsed = true → (s.party p).id = (joined.party p).id
  references : (s.party p).isUsed = true →
    (s.party p).participantReferences = (joined.party p).participantReferences
  localIndex : (s.party p).isUsed = true → ∀ i ∈ (joined.party p).participantReferences,
    (s.participant i).localIndex = (joined.participant i).localIndex

namespace KeepsParty

variable {p : PartyPtr S} {joined s s' : Server E S}

/-- The party can go out of use, and is otherwise as it was. -/
theorem congr (h : KeepsParty p joined s) (hback : BackReferences s')
    (hparty : (s'.party p).isUsed = true → (s.party p).isUsed = true ∧
      (s'.party p).id = (s.party p).id ∧
      (s'.party p).participantReferences = (s.party p).participantReferences)
    (hlocal : ∀ i ∈ (s.party p).participantReferences,
      (s'.participant i).localIndex = (s.participant i).localIndex) :
    KeepsParty p joined s' where
  back := hback
  id := by
    intro hp
    obtain ⟨hused, hid, -⟩ := hparty hp
    exact hid.trans (h.id hused)
  references := by
    intro hp
    obtain ⟨hused, -, hrefs⟩ := hparty hp
    exact hrefs.trans (h.references hused)
  localIndex := by
    intro hp i hi
    obtain ⟨hused, -, -⟩ := hparty hp
    exact (hlocal i (h.references hused ▸ hi)).trans (h.localIndex hused i hi)

/-- A party is replaced by one with the same id and references, if it is still in use. -/
theorem replace (h : KeepsParty p joined s) (hback : BackReferences s') (q : PartyPtr S)
    {x : LocalParty S} (hs' : ∀ r, s'.party r = if q = r then x else s.party r)
    (hx : x.isUsed = true → (s.party q).isUsed = true ∧ x.id = (s.party q).id ∧
      x.participantReferences = (s.party q).participantReferences)
    (hlocal : ∀ i, (s'.participant i).localIndex = (s.participant i).localIndex) :
    KeepsParty p joined s' := by
  refine h.congr hback (fun hp => ?_) fun i _ => hlocal i
  rw [hs' p] at hp ⊢
  split at hp
  · rename_i hqp
    rw [if_pos hqp, ← hqp]
    exact hx hp
  · rename_i hqp
    rw [if_neg hqp]
    exact ⟨hp, rfl, rfl⟩

/-- One participant gets other steps or another state. -/
theorem setParticipant (h : KeepsParty p joined s) (i : ParticipantPtr S)
    {x : Participant E S} (hback : BackReferences (s.setParticipant i x))
    (hx : x.localIndex = (s.participant i).localIndex) :
    KeepsParty p joined (s.setParticipant i x) := by
  refine h.congr hback (fun hp => ⟨hp, rfl, rfl⟩) fun j _ => ?_
  rw [Server.participant_setParticipant]
  split
  · rename_i hij
    rw [hx, hij]
  · rfl

/-- A participant that left is not one of the party. -/
theorem destroy (h : KeepsParty p joined s) {i : ParticipantPtr S}
    (hused : (s.participant i).isUsed = true) (hleaving : (s.participant i).state = .leaving) :
    Ensures (nimbleServerParticipantsDestroy s.game.participants (s.participant i).id)
      (fun participants => KeepsParty p joined (s.setParticipants participants))
      (fun _ => True) := by
  have hpool := h.back.references.pool
  refine ((h.back.destroy hused hleaving).and
    (hpool.counted.destroy hused (hpool.toNat_id hused))).mono ?_ fun _ _ => trivial
  rintro _ ⟨hback, rfl, -⟩
  refine h.congr hback (fun hp => ⟨hp, rfl, rfl⟩) fun j hj => ?_
  -- The party references nobody who is leaving.
  have hij : i ≠ j := by
    rintro rfl
    have hp := h.back.isUsed hj
    exact ((h.back.references.parties p hp).member i hj).2.2.1 hleaving
  show ((destroyedPool s.game.participants i).get j).localIndex = _
  rw [get_destroyedPool, if_neg hij]
  rfl

/-- Storing steps does not touch the party's participants but for their buffers. -/
theorem storeKeeps (p : PartyPtr S) (joined : Server E S) :
    StoreKeeps (KeepsParty (E := E) p joined) where
  steps := fun s i steps h =>
    h.setParticipant i (backReferences_storeKeeps.steps s i steps h.back) rfl
  counters := fun s q quality highest count h =>
    h.replace (backReferences_storeKeeps.counters s q quality highest count h.back) q
      (fun r => Server.party_setParty s q r _) (fun hq => ⟨hq, rfl, rfl⟩) fun _ => rfl
  log := fun s event h =>
    h.congr (backReferences_storeKeeps.log s event h.back) (fun hp => ⟨hp, rfl, rfl⟩)
      fun _ _ => rfl
  authoritativeSteps := fun s steps h =>
    h.congr (backReferences_storeKeeps.authoritativeSteps s steps h.back)
      (fun hp => ⟨hp, rfl, rfl⟩) fun _ _ => rfl

/-- Nor does composing, as long as the party is in use. -/
theorem composeRule (p : PartyPtr S) (joined : Server E S) :
    ComposeRule (KeepsParty (E := E) p joined) (fun _ => True) :=
  (storeKeeps p joined).composeRule
    (fun s i h hused hstate => h.setParticipant i
      (backReferences_composeRule.joined s i h.back hused hstate) rfl)
    (fun _ _ h hused hleaving => h.destroy hused hleaving)
    (fun _ _ _ _ _ => trivial) trivial

/-- A join that is handled while the party is in use does not create a party in its slot, and
the participant it creates is not one of the party. -/
theorem create (h : KeepsParty p joined s) (hused : (s.party p).isUsed = true)
    {t : ConnectionPtr} {q : PartyPtr S} {players : List Nat} {stepId : StepId}
    {i : ParticipantPtr S} {participants : Participants E S}
    (hfree : (s.party q).isUsed = false)
    (hjoin : ParticipantsJoinOutcome s.game.participants players q stepId
      (.ok i, participants)) :
    KeepsParty p joined (assignParty
      (addParty ((nameParty s q).setParticipants participants) q (some t) [i]) t q) := by
  have hback := h.back.create (t := t) hfree hjoin
  obtain ⟨hunused, x, -, -, -, -, hget, -⟩ := hjoin.taken
  -- The slot of the new party was free, and this party is in use.
  have hqp : q ≠ p := by
    rintro rfl
    cases hfree.symm.trans hused
  refine h.congr hback (fun _ => ?_) fun j hj => ?_
  · rw [party_created, if_neg hqp]
    exact ⟨hused, rfl, rfl⟩
  · have hij : i ≠ j := by
      rintro rfl
      cases hunused.symm.trans ((h.back.references.parties p hused).member i hj).1
    show (participants.get j).localIndex = _
    rw [hget j, if_neg hij]
    rfl

/-- All operations of a running game keep it, as long as the party is in use when they start. -/
theorem playRule (p : PartyPtr S) (joined : Server E S) :
    PlayRule (fun s op => op.IsPlay ∧ (s.party p).isUsed = true) (KeepsParty (E := E) p joined)
      (fun _ => True) := by
  have hback := backReferences_requestRule (E := E) (S := S)
  have hrequest : RequestRule (fun s op => op.IsPlay ∧ (s.party p).isUsed = true)
      (KeepsParty (E := E) p joined) (fun _ => True) :=
    { same := by
        intro s s' h hgame hparties
        have hparty : s'.party p = s.party p := congrArg (LocalParties.get · p) hparties
        refine h.congr (hback.same s s' h.back hgame hparties) (fun hp => ?_) fun i _ => ?_
        · rw [hparty] at hp ⊢
          exact ⟨hp, rfl, rfl⟩
        · exact congrArg (fun game => (game.participants.get i).localIndex) hgame
      join := by
        intro s t request uninitialized r h hallowed hr
        have hback' := hback.join s t request uninitialized r h.back trivial hr
        cases hr with
        | noPlace code hplace => exact h
        | sessionFull code q hplace =>
          -- The slot that is named is not in use.
          refine h.replace hback' q (party_nameParty s q) (fun hq => ?_) fun _ => rfl
          cases (firstFreeParty_isUsed hplace).symm.trans hq
        | found q hcount hmatch =>
          exact h.replace hback' q (party_assignParty s t q) (fun hq => ⟨hq, rfl, rfl⟩)
            fun _ => rfl
        | unassigned q r htype hfind hnamed hcount hpointer =>
          exact h.replace hback' q (party_assignParty s t q) (fun hq => ⟨hq, rfl, rfl⟩)
            fun _ => rfl
        | rejoined q htype hfind hnamed hcount =>
          exact h.replace hback' q (party_rejoined s t q) (fun hq => ⟨hq, rfl, rfl⟩)
            fun _ => rfl
        | created q i participants htype hfind hplace hjoin =>
          exact h.create hallowed.2 (firstFreeParty_isUsed hplace) hjoin
      joinFault := fun _ _ _ _ => trivial
      tick := by
        intro s q s' h hs'
        have hback' := hback.tick s q s' h.back hs'
        cases hs' with
        | unused hused => exact h
        | kept counter hused hstate hcounter =>
          exact h.replace hback' q (fun r => Server.party_setParty s q r _)
            (fun hq => ⟨hq, rfl, rfl⟩) fun _ => rfl
        | lost counter hused hstate hfailing =>
          refine h.replace hback' q (fun r => party_lost s q r counter)
            (fun hq => ⟨hq, rfl, rfl⟩) fun i => ?_
          rw [participant_lost s q counter i]
          split
          · rfl
          · rfl
        | waited hused hstate =>
          exact h.replace hback' q (party_advanceTimer s q) (fun hq => ⟨hq, rfl, rfl⟩)
            fun _ => rfl
        | stale hused hstate => exact h
        | dissolved hused hstate hcount hconnection =>
          refine h.replace hback' q (party_dissolved s q) (by rintro ⟨⟩) fun i => ?_
          rw [participant_dissolved s q i]
          split
          · rfl
          · rfl
        | disconnected t hused hstate hcount hconnection hfull =>
          refine h.replace hback' q (party_dissolved s q) (by rintro ⟨⟩) fun i => ?_
          have hparticipant := participant_dissolved s q i
          show ((dissolveParty (advanceTimer s q) q).participant i).localIndex = _
          rw [hparticipant]
          split
          · rfl
          · rfl
      tickFault := fun _ _ _ _ _ => trivial
      connectionFault := fun _ _ => trivial }
  exact hrequest.playRule (storeKeeps p joined) (composeRule p joined)

/-- The participants that are listed for the party are the same as before. -/
theorem answeredParticipants_eq (h : KeepsParty p joined s) (hback : BackReferences joined)
    (hused : (s.party p).isUsed = true) (hjoined : (joined.party p).isUsed = true) :
    answeredParticipants s p = answeredParticipants joined p := by
  unfold answeredParticipants
  rw [h.references hused]
  refine List.map_congr_left fun i hi => ?_
  -- Both times the participants are used, so their ids are their slots.
  have hi' := ((h.back.references.parties p hused).member i (h.references hused ▸ hi)).1
  have hi'' := ((hback.references.parties p hjoined).member i hi).1
  have hid : (s.participant i).id = slotOctet i := h.back.references.pool.id i hi'
  have hid' : (joined.participant i).id = slotOctet i := hback.references.pool.id i hi''
  rw [h.localIndex hused i hi, hid, hid']

end KeepsParty

/-! ### Coming back -/

/-- The request names a party by its slot and the right number of players. -/
theorem joinGame_rejoins {s : Server E S} {t : ConnectionPtr} {request : JoinGameRequest}
    {p : PartyPtr S}
    (hfind : nimbleServerLocalPartiesFindPartyForTransport s
      (s.connection t).transportConnectionId = .ok none)
    (htype : request.joinGameType = .partySecret) (hid : request.partyId.toNat = p.val)
    (hcount : request.playerCount = (s.party p).participantReferences.length)
    (uninitialized : Uninitialized S) :
    joinGame s t request uninitialized
      = .ok (.ok p, assignParty (s.setParty p (nimbleServerLocalPartyRejoin (s.party p) t)) t
        p) := by
  have hslot : nimbleServerLocalPartiesFindParty S request.partyId = .ok p := by
    unfold nimbleServerLocalPartiesFindParty
    rw [dif_pos (hid ▸ p.isLt)]
    exact congrArg Except.ok (Fin.ext hid)
  unfold joinGame nimbleServerReadAndJoinParticipants joinLocalParty
  rw [hfind, htype]
  -- Neither the state of the party nor the secret is looked at.
  simp only [hslot, bind, Except.bind, pure, Except.pure]
  rw [if_neg (not_not.mpr hcount.symm)]
  rfl

/-- The participant is used, is waiting or leaving, and was reported as waiting in each step
that was composed since `lost`. -/
structure StaysWaiting (i : ParticipantPtr S) (lost s : Server E S) : Prop where
  pool : PoolInvariant s.game.participants
  isUsed : (s.participant i).isUsed = true
  state : (s.participant i).state = .waitingForRejoin ∨ (s.participant i).state = .leaving
  reported : ∃ later, composedSteps s.game.participants.log
      = composedSteps lost.game.participants.log ++ later ∧
    ∀ step ∈ later, ∃ entries, decodeStep E step.2 = some entries ∧
      ⟨slotOctet i, .waitingForReJoin⟩ ∈ entries

namespace StaysWaiting

variable {i : ParticipantPtr S} {lost s s' : Server E S}

/-- Nothing is composed, and the participant is left alone or set to leaving. -/
theorem congr (h : StaysWaiting i lost s) (hpool : PoolInvariant s'.game.participants)
    (hused : (s'.participant i).isUsed = (s.participant i).isUsed)
    (hstate : (s'.participant i).state = (s.participant i).state ∨
      (s'.participant i).state = .waitingForRejoin ∨ (s'.participant i).state = .leaving)
    (hlog : composedSteps s'.game.participants.log = composedSteps s.game.participants.log) :
    StaysWaiting i lost s' where
  pool := hpool
  isUsed := hused.trans h.isUsed
  state := by
    rcases hstate with hsame | hset
    · rw [hsame]
      exact h.state
    · exact hset
  reported := hlog ▸ h.reported

/-- The states of some participants are set to one of the two. -/
theorem setStates (h : StaysWaiting i lost s) (hpool : PoolInvariant s'.game.participants)
    {references : List (ParticipantPtr S)} {state : ParticipantState}
    (hparticipant : s'.participant i
      = if i ∈ references then { s.participant i with state } else s.participant i)
    (hstate : state = .waitingForRejoin ∨ state = .leaving)
    (hlog : s'.game.participants.log = s.game.participants.log) : StaysWaiting i lost s' := by
  refine h.congr hpool ?_ ?_ (by rw [hlog])
  · rw [hparticipant]
    split
    · rfl
    · rfl
  · rw [hparticipant]
    split
    · exact .inr hstate
    · exact .inl rfl

/-- Composing takes a step from a waiting participant and does nothing else. -/
theorem composedParticipant_of_waiting {x : Participant E S}
    (h : x.state = .waitingForRejoin) {lookingFor : StepId} :
    composedParticipant x lookingFor
      = { x with steps := (E.nbsStepsReadExactStepId x.steps lookingFor).2 } := by
  cases x
  cases h
  rfl

/-- A round that is composed while the participant is waiting says so, and it goes on
waiting. -/
theorem round [LawfulStepTypes E] (h : StaysWaiting i lost s)
    (hwaiting : (s.participant i).state = .waitingForRejoin) (hround : RoundWritten s s') :
    StaysWaiting i lost s' := by
  have hparticipant : s'.participant i = { s.participant i with
      steps := (E.nbsStepsReadExactStepId (s.participant i).steps (nextStepId s)).2 } := by
    rw [hround.participant i, if_pos h.isUsed]
    exact composedParticipant_of_waiting hwaiting
  obtain ⟨later, hlater, hall⟩ := h.reported
  refine ⟨hround.pool, ?_, ?_,
    later ++ [(nextStepId s, encodeStep E (stepEntries s))], ?_, ?_⟩
  · rw [hparticipant]
    exact h.isUsed
  · rw [hparticipant]
    exact .inl hwaiting
  · rw [hround.log, composedSteps_composed, hlater, List.append_assoc]
  · intro step hstep
    rcases List.mem_append.mp hstep with hstep | hstep
    · exact hall step hstep
    · rw [List.mem_singleton.mp hstep]
      -- The entry of a waiting participant has no content.
      refine ⟨_, decodeStep_stepEntries h.pool, mem_stepEntries.mpr ⟨i, h.isUsed, ?_⟩⟩
      have hid : (s.participant i).id = slotOctet i := h.pool.id i h.isUsed
      unfold composedEntry composedType
      rw [hid, hwaiting]
      rfl

/-- No operation of a running game takes a participant back from waiting. -/
theorem playRule [LawfulSteps E] [LawfulStepTypes E] [LawfulOutStreams E] (i : ParticipantPtr S)
    (lost : Server E S) :
    PlayRule (fun s op => op.IsPlay ∧ FitsWhenComposed s op ∧
      (s.participant i).state ≠ .leaving) (StaysWaiting i lost) (fun _ => True) where
  same := by
    intro s s' h hgame _
    have hparticipant : s'.participant i = s.participant i :=
      congrArg (fun game => game.participants.get i) hgame
    exact h.congr (hgame ▸ h.pool) (by rw [hparticipant]) (.inl (by rw [hparticipant]))
      (by rw [hgame])
  join := by
    intro s t request uninitialized r h _ hr
    have hpool := (pool_playKeeps fun _ _ => True).join s t request uninitialized r h.pool
      trivial hr
    cases hr with
    | created p j participants htype hfind hplace hjoin =>
      obtain ⟨hfree, x, -, -, -, -, hget, hlog⟩ := hjoin.taken
      -- A new participant takes another place.
      have hji : j ≠ i := by
        rintro rfl
        cases hfree.symm.trans h.isUsed
      have hparticipant : (assignParty (addParty ((nameParty s p).setParticipants participants)
          p (some t) [j]) t p).participant i = s.participant i :=
        (hget i).trans (if_neg hji)
      refine h.congr hpool (by rw [hparticipant]) (.inl (by rw [hparticipant])) ?_
      show composedSteps participants.log = _
      rw [hlog, composedSteps_joined]
    | _ => exact h.congr hpool rfl (.inl rfl) rfl
  joinFault := fun _ _ _ _ => trivial
  tick := by
    intro s p s' h hs'
    have hpool := (pool_playKeeps fun _ _ => True).tick s p s' h.pool hs'
    have hlog := hs'.log
    cases hs' with
    -- These are the ticks that set states, to waiting or to leaving.
    | lost counter hused hstate hfailing =>
      exact h.setStates hpool (participant_lost s p counter i) (.inl rfl) hlog
    | dissolved hused hstate hcount hconnection =>
      exact h.setStates hpool (participant_dissolved s p i) (.inr rfl) hlog
    | disconnected t hused hstate hcount hconnection hfull =>
      exact h.setStates hpool (participant_dissolved s p i) (.inr rfl) hlog
    | _ => exact h.congr hpool rfl (.inl rfl) rfl
  tickFault := fun _ _ _ _ _ => trivial
  connectionFault := fun _ _ => trivial
  store := by
    intro s t inStream uninitialized h _
    have hstored := StoredFor.of_readIncomingSteps s t inStream uninitialized
    obtain ⟨steps, hparticipant⟩ := hstored.participant i
    exact h.congr ((pool_playKeeps fun _ _ => True).readIncomingSteps h.pool t inStream
      uninitialized) (by rw [hparticipant]) (.inl (by rw [hparticipant])) hstored.composedSteps
  compose := by
    intro s h hallowed
    -- A round is composed only as long as the participant is not leaving.
    have hwaiting := h.state.resolve_right hallowed.2.2
    exact (composeRound_fits h.pool hallowed.2.1).mono
      (fun r hr => h.round hwaiting hr.2) fun _ _ => trivial

end StaysWaiting

/-- A participant that was set to waiting is waiting until it is set to leaving, and every
step that is composed in between says that it is waiting: whoever joins its party again and
whatever steps are sent for it. -/
theorem lost_participants_stay_waiting [LawfulSteps E] [LawfulStepTypes E] [LawfulOutStreams E]
    {start lost s : Server E S} (hstart : StartsGame start)
    (hrun : Reaches Server.step (fun _ op => op.IsPlay) start lost) {i : ParticipantPtr S}
    (hused : (lost.participant i).isUsed = true)
    (hwaiting : (lost.participant i).state = .waitingForRejoin)
    (hlater : Reaches Server.step (fun s op => op.IsPlay ∧ FitsWhenComposed s op ∧
      (s.participant i).state ≠ .leaving) lost s) :
    (s.participant i).isUsed = true ∧
      ((s.participant i).state = .waitingForRejoin ∨ (s.participant i).state = .leaving) ∧
      ∃ later, composedSteps s.game.participants.log
          = composedSteps lost.game.participants.log ++ later ∧
        ∀ step ∈ later, ∃ entries, decodeStep E step.2 = some entries ∧
          ⟨slotOctet i, .waitingForReJoin⟩ ∈ entries := by
  have hlost : StaysWaiting i lost lost :=
    ⟨pool_reachable hstart (fun _ _ h => h) hrun, hused, .inl hwaiting, [],
      (List.append_nil _).symm, List.forall_mem_nil _⟩
  have h := (StaysWaiting.playRule i lost).reachable (fun _ _ h => h.1) hlost hlater
  exact ⟨h.isUsed, h.state, h.reported⟩

/-- The first of two clients is lost. It comes back on another connection and sends a step,
and the next step that is composed says that it is waiting. -/
theorem lost_participants_stay_waiting_firstClient :
    ∃ (lost s : Server plainExternal (plainSetup 2)) (i : ParticipantPtr (plainSetup 2)),
      (lost.participant i).state = .waitingForRejoin ∧
      (composedSteps s.game.participants.log).length
        = (composedSteps lost.game.participants.log).length + 1 ∧
      (s.participant i).state = .waitingForRejoin := by
  obtain ⟨start, lost, hstart, hrun, hlost⟩ :=
    exists_run Server.step (fun _ op => op.IsPlay)
      (fun s : Server plainExternal (plainSetup 2) =>
        (s.participant ⟨0, by decide⟩).isUsed = true ∧
        (s.participant ⟨0, by decide⟩).state = .waitingForRejoin ∧
        (runChecked Server.step (fun s op => decide (op.IsPlay ∧ PlainFits s op ∧
            (s.participant ⟨0, by decide⟩).state ≠ .leaving)) s
          [.receive 2, .join 2 (returningPlayer 0 0) (zeroLocals _),
            .incomingSteps 2 (gameStep 22 [[7]]) (zeroLocals _),
            .incomingSteps 1 (gameStep 22 (List.replicate 5 [8])) (zeroLocals _),
            .composeRound]).any (fun s' : Server plainExternal (plainSetup 2) =>
              decide ((composedSteps s'.game.participants.log).length
                = (composedSteps s.game.participants.log).length + 1 ∧
                (s'.participant ⟨0, by decide⟩).state ≠ .leaving)) = true)
      (plainGame 2) (firstClientLost 181) (by decide +kernel)
  obtain ⟨hused, hwaiting, hlater⟩ := hlost
  rw [Option.any_eq_true] at hlater
  obtain ⟨s, hs, hcheck⟩ := hlater
  obtain ⟨hlength, hstate⟩ := of_decide_eq_true hcheck
  have hplain : Reaches Server.step (fun (s : Server plainExternal (plainSetup 2)) op =>
      op.IsPlay ∧ PlainFits s op ∧ (s.participant ⟨0, by decide⟩).state ≠ .leaving) lost s :=
    reaches_of_runChecked _ _ _ hs
  have hreaches : Reaches Server.step (fun (s : Server plainExternal (plainSetup 2)) op =>
      op.IsPlay ∧ FitsWhenComposed s op ∧ (s.participant ⟨0, by decide⟩).state ≠ .leaving) lost s :=
    hplain.mono fun _ _ h => ⟨h.1, h.2.1.fitsWhenComposed, h.2.2⟩
  obtain ⟨-, hend, -⟩ := lost_participants_stay_waiting (startsGame_of_blankGame hstart) hrun
    hused hwaiting hreaches
  exact ⟨lost, s, _, hwaiting, hlength, hend.resolve_right hstate⟩

end NimbleServer
