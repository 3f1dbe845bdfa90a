import NimbleServer.Proofs.References
import NimbleServer.Proofs.Storing

/-!
# `NimbleServer.Proofs.Acknowledgement`: the steps a response acknowledges were stored

A step response tells the client the highest step id its party has noted, and how many steps
were in the buffer then. The client drops the predicted steps up to that id. So the id must
be one that was stored for this party.

The two numbers belong to the slot of the party. A slot is used again after its party is
dissolved and after a new game is set up, and no reset assigns the two numbers. So a new
party reports what the last party in its slot noted (`acknowledges_step_of_last_game`).
`acknowledged_steps_were_stored` is about the runs in which every new party finds the two
numbers at zero.

The third number of a response says how far the client is ahead of the authoritative steps.
It is the difference of two 32-bit ids cut to eight bits, so a client that is far behind can
be told that it is ahead (`buffer_delta_wrong_sign`). `buffer_delta_iff` says for which
distances the number is right.
-/

set_option autoImplicit false

namespace NimbleServer

open NimbleServer.Lib

variable {E : External} {S : Setup}

/-! ### What was stored -/

/-- The steps that were stored for a participant since it joined, newest first. With each
comes the buffer as it was then. -/
def storedSinceJoined (i : ParticipantPtr S) : List (Event E S) → List (StepId × E.Steps)
  | [] => []
  -- The slot is new from its last join on.
  | .joined j :: log => if j = i then [] else storedSinceJoined i log
  | .stored j stepId steps :: log =>
    if j = i then (stepId, steps) :: storedSinceJoined i log else storedSinceJoined i log
  | .composed _ _ _ :: log => storedSinceJoined i log

/-- Storing a step, for whichever participant, forgets nothing. -/
theorem mem_storedSinceJoined_stored {i : ParticipantPtr S} {log : List (Event E S)}
    {e : StepId × E.Steps} (h : e ∈ storedSinceJoined i log) (j : ParticipantPtr S)
    (stepId : StepId) (steps : E.Steps) :
    e ∈ storedSinceJoined i (.stored j stepId steps :: log) := by
  by_cases hji : j = i
  · simp [storedSinceJoined, hji, h]
  · simp [storedSinceJoined, hji, h]

/-- The join of another participant forgets nothing. -/
theorem storedSinceJoined_joined {i j : ParticipantPtr S} (hji : j ≠ i)
    (log : List (Event E S)) :
    storedSinceJoined i (.joined j :: log) = storedSinceJoined i log := by
  simp [storedSinceJoined, hji]

/-- What the party `x` has noted was stored for one of its participants. -/
def Acknowledges (log : List (Event E S)) (x : LocalParty S) : Prop :=
  (x.highestReceivedStepId = 0 ∧ x.stepsInBufferCount = 0) ∨
    ∃ i ∈ x.participantReferences, ∃ steps,
      (x.highestReceivedStepId, steps) ∈ storedSinceJoined i log ∧
        x.stepsInBufferCount = E.stepsCount steps

/-- What the parties in use have noted was stored for their participants. -/
def Acknowledged (s : Server E S) : Prop :=
  ∀ p, (s.party p).isUsed = true → Acknowledges s.game.participants.log (s.party p)

/-- The request creates no party, or it does so in a slot that has noted nothing. -/
def CreatesInFreshSlot (s : Server E S) (t : ConnectionPtr) (request : JoinGameRequest) : Prop :=
  request.joinGameType = .noSecret →
    (∀ p : PartyPtr S, p.val < s.localParties.partiesCount →
      isPartyForTransport s (s.connection t).transportConnectionId (s.party p) = false) →
    s.game.participants.participantCount < S.maxParticipantCount →
    ∀ p, firstFreeParty s = some p →
      (s.party p).highestReceivedStepId = 0 ∧ (s.party p).stepsInBufferCount = 0

/-- The slots are finitely many. -/
instance (s : Server E S) (t : ConnectionPtr) (request : JoinGameRequest) :
    Decidable (CreatesInFreshSlot s t request) :=
  inferInstanceAs (Decidable (_ → _ → _ → ∀ _, _ → _))

/-- A history that forgets nothing about the participants of the party. -/
theorem Acknowledges.mono {log log' : List (Event E S)} {x : LocalParty S}
    (h : Acknowledges log x)
    (hlog : ∀ i ∈ x.participantReferences, ∀ e ∈ storedSinceJoined i log,
      e ∈ storedSinceJoined i log') : Acknowledges log' x := by
  rcases h with hzero | ⟨i, hi, steps, hstored, hcount⟩
  · exact .inl hzero
  · exact .inr ⟨i, hi, steps, hlog i hi _ hstored, hcount⟩

namespace Acknowledged

variable {s s' : Server E S}

/-- One party is replaced, and nothing happens that is recorded. -/
theorem replace (h : Acknowledged s) (p : PartyPtr S) {x : LocalParty S}
    (hlog : s'.game.participants.log = s.game.participants.log)
    (hs' : ∀ q, s'.party q = if p = q then x else s.party q)
    (hx : x.isUsed = true → Acknowledges s.game.participants.log x) : Acknowledged s' := by
  intro q hq
  rw [hs'] at hq ⊢
  rw [hlog]
  split at hq
  · rename_i hpq
    rw [if_pos hpq]
    exact hx hq
  · rename_i hpq
    rw [if_neg hpq]
    exact h q hq

/-- No party changes, and nothing is forgotten. -/
theorem forward (h : Acknowledged s) (hparty : ∀ p, s'.party p = s.party p)
    (hlog : ∀ i, ∀ e ∈ storedSinceJoined i s.game.participants.log,
      e ∈ storedSinceJoined i s'.game.participants.log) : Acknowledged s' := by
  intro p hp
  rw [hparty] at hp ⊢
  exact (h p hp).mono fun i _ => hlog i

/-- A new party in a slot that has noted nothing. The participant that joins was not used, so
it is in no other party. -/
theorem create (h : Acknowledged s) (hreferences : References False s) {t : ConnectionPtr}
    {p : PartyPtr S} {players : List Nat} {stepId : StepId} {i : ParticipantPtr S}
    {participants : Participants E S}
    (hjoin : ParticipantsJoinOutcome s.game.participants players p stepId (.ok i, participants))
    (hfresh : (s.party p).highestReceivedStepId = 0 ∧ (s.party p).stepsInBufferCount = 0) :
    Acknowledged (assignParty
      (addParty ((nameParty s p).setParticipants participants) p (some t) [i]) t p) := by
  obtain ⟨hfree, x, -, -, -, -, -, hlog⟩ := hjoin.taken
  intro q hq
  rw [party_created] at hq ⊢
  show Acknowledges participants.log _
  split at hq
  · rename_i hpq
    rw [if_pos hpq]
    exact .inl hfresh
  · rename_i hpq
    rw [if_neg hpq, hlog]
    refine (h q hq).mono fun j hj e he => ?_
    -- A participant of another party is used, and the one that joins was free.
    have hij : i ≠ j := by
      rintro rfl
      cases hfree.symm.trans ((hreferences.parties q hq).member i hj).1
    rw [storedSinceJoined_joined hij]
    exact he

end Acknowledged

/-! ### Storing -/

/-- The newest step in the buffer of the participant is recorded with the buffer as it is. -/
def NewestStored (s : Server E S) (i : ParticipantPtr S) : Prop :=
  (E.expectedWriteId (s.participant i).steps - 1, (s.participant i).steps)
    ∈ storedSinceJoined i s.game.participants.log

/-- A step that was just stored is the newest one. -/
theorem newestStored_storeStep [LawfulSteps E] (s : Server E S) (i : ParticipantPtr S)
    {steps : E.Steps} (hmore : OneMore (s.participant i).steps steps) :
    NewestStored (storeStep s i (E.expectedWriteId (s.participant i).steps) steps) i := by
  unfold NewestStored
  rw [participant_storeStep, if_pos rfl]
  show (E.expectedWriteId steps - 1, steps)
    ∈ storedSinceJoined i (.stored i (E.expectedWriteId (s.participant i).steps) steps ::
      s.game.participants.log)
  rw [hmore.writeId_sub_one]
  simp [storedSinceJoined]

/-- The inner loop leaves the server as it is, or the newest step is one that it stored.
Induction on the steps that remain. -/
theorem deserializeSteps_newestStored [LawfulSteps E] (i : ParticipantPtr S)
    (firstStepId : StepId) :
    ∀ (remaining index total : Nat) (inStream : InStream) (s : Server E S) count rest s',
      deserializeStepsOfParticipant i firstStepId remaining index total inStream s
        = (.ok count, rest, s') →
      (count = total ∧ s' = s) ∨ NewestStored s' i := by
  intro remaining
  induction remaining with
  | zero =>
    intro index total inStream s count rest s' hread
    cases hread
    exact .inl ⟨rfl, rfl⟩
  | succ remaining ih =>
    intro index total inStream s count rest s' hread
    have houtcome := deserializeSingleStep_outcome s i (firstStepId + UInt32.ofNat index) inStream
    simp only [deserializeStepsOfParticipant] at hread
    revert hread houtcome
    rcases nimbleServerParticipantDeserializeSingleStep s i
      (firstStepId + UInt32.ofNat index) inStream with ⟨added, stream, s1⟩
    intro hread houtcome
    dsimp only at hread houtcome
    cases houtcome with
    -- The loop returned a count, so no step failed.
    | failed code hcode =>
      rw [if_pos hcode] at hread
      cases hread
    | ignored hid =>
      rw [if_neg (by decide)] at hread
      exact ih _ _ _ _ _ _ _ hread
    | stored steps hid hmore =>
      rw [if_neg (by decide)] at hread
      -- Either this step is the last that is stored, or a later one is the newest.
      rcases ih _ _ _ _ _ _ _ hread with ⟨-, rfl⟩ | hnewest
      · rw [hid]
        exact .inr (newestStored_storeStep s i hmore)
      · exact .inr hnewest

/-- What is noted after the steps of a participant were read is true. -/
theorem acknowledges_noteAddedSteps {log : List (Event E S)} {x : LocalParty S}
    (hx : Acknowledges log x) {i : ParticipantPtr S} (hi : i ∈ x.participantReferences)
    {steps : E.Steps} {total : Nat}
    (hnewest : 0 < total → (E.expectedWriteId steps - 1, steps) ∈ storedSinceJoined i log) :
    Acknowledges log (noteAddedSteps x steps total) := by
  unfold noteAddedSteps
  by_cases htotal : 0 < total
  · rw [if_pos htotal]
    dsimp only
    split
    · exact .inr ⟨i, hi, steps, hnewest htotal, rfl⟩
    · exact hx
  · rw [if_neg htotal]
    exact hx

/-- A single step of a request keeps what is noted. -/
theorem acknowledged_single [LawfulSteps E] {s : Server E S} (h : Acknowledged s)
    (i : ParticipantPtr S) (stepId : StepId) (inStream : InStream) :
    Acknowledged (nimbleServerParticipantDeserializeSingleStep s i stepId inStream).2.2 := by
  have houtcome := deserializeSingleStep_outcome s i stepId inStream
  revert houtcome
  rcases nimbleServerParticipantDeserializeSingleStep s i stepId inStream with ⟨added, rest, s1⟩
  intro houtcome
  dsimp only at houtcome ⊢
  cases houtcome with
  | failed code hcode => exact h
  | ignored hid => exact h
  | stored steps hid hmore =>
    exact h.forward (fun _ => rfl) fun j e he => mem_storedSinceJoined_stored he i stepId steps

/-- What is noted after the steps of a participant is what was stored for it. -/
theorem acknowledged_storeRoundRule [LawfulSteps E] (p : PartyPtr S) :
    StoreRoundRule p (Acknowledged (E := E)) where
  read := fun s i firstStepId count inStream h hi =>
    deserializeStepsOfParticipant_keeps Acknowledged (fun s i stepId inStream h _ =>
      acknowledged_single h i stepId inStream) i firstStepId count 0 0 inStream s h hi
  noted := by
    intro s i firstStepId count inStream total rest s' h hi hread
    -- The references are the same after the loop, and the invariant holds there.
    have hloop : Acknowledged s' ∧ i ∈ (s'.party p).participantReferences := by
      have hkeeps := deserializeStepsOfParticipant_keeps
        (fun s : Server E S => Acknowledged s ∧ i ∈ (s.party p).participantReferences)
        (fun s j stepId inStream h _ => ⟨acknowledged_single h.1 j stepId inStream,
          by rw [party_deserializeSingleStep]; exact h.2⟩)
        i firstStepId count 0 0 inStream s ⟨h, hi⟩ hi
      rw [hread] at hkeeps
      exact hkeeps
    refine hloop.1.replace p rfl (fun q => Server.party_setParty s' p q _) fun hused => ?_
    have hpused : (s'.party p).isUsed = true := by
      rw [noteAddedSteps_isUsed] at hused
      exact hused
    refine acknowledges_noteAddedSteps (hloop.1 p hpused) hloop.2 fun htotal => ?_
    -- A positive total says that something was stored, and the newest of it is what is noted.
    rcases deserializeSteps_newestStored i firstStepId count 0 0 inStream s _ _ _ hread with
      ⟨rfl, -⟩ | hnewest
    · cases htotal
    · exact hnewest

/-! ### Runs -/

/-- Composing notes nothing, and the history only grows. -/
theorem acknowledged_composeRule :
    ComposeRule (Acknowledged (E := E) (S := S)) (fun _ => True) where
  steps := fun _ _ _ h => h
  quality := fun s p quality h =>
    h.replace p rfl (fun q => Server.party_setParty s p q _) fun hused => h p hused
  joined := fun _ _ h _ _ => h
  left := by
    intro s i h _ _
    refine (nimbleServerParticipantsDestroy_log s.game.participants
      (s.participant i).id).mono ?_ (fun _ _ => trivial)
    intro participants hlog p hp
    show Acknowledges participants.log (s.party p)
    rw [hlog]
    exact h p hp
  authoritativeSteps := fun _ _ h => h
  log := fun _ _ _ _ h => h
  nullParty := fun _ _ _ _ _ => trivial
  stepsCorrupt := trivial

/-- Every operation of a running game keeps what is noted, as long as a new party finds a slot
that has noted nothing. -/
theorem acknowledged_playRule [LawfulSteps E] :
    PlayRule (fun s op => References False s ∧ op.ForJoin (CreatesInFreshSlot s))
      (Acknowledged (E := E) (S := S)) (fun _ => True) where
  same := by
    intro s s' h hgame hparties
    refine h.forward (fun p => congrArg (LocalParties.get · p) hparties) fun i e he => ?_
    rw [hgame]
    exact he
  join := by
    intro s t request uninitialized r h hallowed hr
    have hassign : ∀ p, Acknowledged (assignParty s t p) := fun p =>
      h.replace p rfl (party_assignParty s t p) fun hused => h p hused
    cases hr with
    | noPlace code hplace => exact h
    | sessionFull code p hplace =>
      exact h.replace p rfl (party_nameParty s p) fun hused => h p hused
    | found p hcount hmatch => exact hassign p
    | unassigned p q htype hfind hnamed hcount hpointer => exact hassign p
    | rejoined p htype hfind hnamed hcount =>
      exact h.replace p rfl (party_rejoined s t p) fun hused => h p hused
    -- Only here the condition on the run is needed: the slot that is taken is fresh.
    | created p i participants htype hfind hplace hjoin =>
      have hnone := ((findPartyForTransport_ensures s _).of_ok hfind).2
      have hroom : s.game.participants.participantCount < S.maxParticipantCount := by
        cases hjoin with
        | joined _ localIndex hplayers hroom hempty hfront hfree => exact hroom
      exact h.create hallowed.1 hjoin (hallowed.2 htype hnone hroom p hplace)
  joinFault := fun _ _ _ _ => trivial
  tick := by
    intro s p s' h hs'
    have hlog := hs'.log
    cases hs' with
    | unused hused => exact h
    | kept counter hused hstate hcounter =>
      exact h.replace p hlog (fun q => Server.party_setParty s p q _) fun hused => h p hused
    | lost counter hused hstate hfailing =>
      exact h.replace p hlog (fun q => party_lost s p q counter) fun hused => h p hused
    | waited hused hstate =>
      exact h.replace p hlog (party_advanceTimer s p) fun hused => h p hused
    | stale hused hstate => exact h
    | dissolved hused hstate hcount hconnection =>
      exact h.replace p hlog (party_dissolved s p) fun hused => by cases hused
    | disconnected t hused hstate hcount hconnection hfull =>
      exact h.replace p hlog (party_dissolved s p) fun hused => by cases hused
  tickFault := fun _ _ _ _ _ => trivial
  connectionFault := fun _ _ => trivial
  store := by
    intro s t inStream uninitialized h _
    obtain ⟨steps, -, hread⟩ := readIncomingSteps_cases s t inStream uninitialized
    have hdiscard : Acknowledged { s with game := { s.game with authoritativeSteps := steps } } := h
    rcases hread with hread | hread
    · rw [hread]
      exact hdiscard
    · rw [hread]
      exact StoreRoundRule.handleIncomingSteps Acknowledged hdiscard
        (fun p _ => acknowledged_storeRoundRule p) inStream uninitialized
  compose := fun s h _ => acknowledged_composeRule.composeRound h

/-- The operations that a run of games is made of: datagrams, ticks and new games. -/
def Op.IsPlayOrReInit (op : Op S) : Prop := op.IsPlay ∨ op.isReInit = true

/-- Both parts are decidable. -/
instance (op : Op S) : Decidable op.IsPlayOrReInit :=
  inferInstanceAs (Decidable (_ ∨ _))

/-- A new game starts from scratch. -/
theorem StartsGame.acknowledged {s : Server E S} (h : StartsGame s) : Acknowledged s := by
  intro p hp
  cases (h.parties_reset p).1.symm.trans hp

/-- What is noted is true in every state of a run of games. -/
theorem acknowledged_reachable [LawfulSteps E] {start s : Server E S} (hstart : StartsGame start)
    (hrun : Reaches Server.step
      (fun s op => op.IsPlayOrReInit ∧ op.ForJoin (CreatesInFreshSlot s)) start s) :
    Acknowledged s := by
  have hstep : ∀ (s : Server E S) op, References False s ∧ Acknowledged s →
      op.IsPlayOrReInit ∧ op.ForJoin (CreatesInFreshSlot s) →
      Ensures (s.step op) (fun s => References False s ∧ Acknowledged s) (fun _ => True) := by
    rintro s op ⟨hreferences, hacknowledged⟩ ⟨hplay | hinit, hfresh⟩
    · -- Both invariants go together, because a new party has to be disjoint from the others.
      have hkept := ((references_playKeeps False).playRule.step hreferences False.elim hplay).and
        (acknowledged_playRule.step hacknowledged ⟨hreferences, hfresh⟩ hplay)
      exact hkept.mono (fun _ h => h) (fun _ _ => trivial)
    · cases op with
      | reInitWithGame stepId =>
        refine Ensures.of_eq_ok fun s' hs' => ?_
        have hgame : StartsGame s' := ⟨s, stepId, hs'⟩
        exact ⟨hgame.references False, hgame.acknowledged⟩
      | _ => cases hinit
  exact (hrun.invariant _ ⟨hstart.references False, hstart.acknowledged⟩ hstep).2

/-- On every run of games in which each new party finds a slot that has noted nothing: a step
response for a connection with a party in use reports no step, or it reports one that was
stored for a participant of this party since it joined, and the number of steps in the
participant's buffer at that moment. -/
theorem acknowledged_steps_were_stored [LawfulSteps E] {start s : Server E S}
    (hstart : StartsGame start)
    (hrun : Reaches Server.step
      (fun s op => op.IsPlayOrReInit ∧ op.ForJoin (CreatesInFreshSlot s)) start s)
    {t : ConnectionPtr} {p : PartyPtr S} (hassigned : (s.connection t).assignedParty = some p)
    (hused : (s.party p).isUsed = true) {clientWaitingForStepId : StepId} {receiveMask : UInt64}
    {ranges : List PendingRange} {lastReceivedStepFromClient : StepId} {bufferDelta : Nat}
    {authoritativeBufferDelta : Int8}
    (hresponse : stepRangesToSend s t clientWaitingForStepId receiveMask
      = .ok (ranges, lastReceivedStepFromClient, bufferDelta, authoritativeBufferDelta)) :
    (lastReceivedStepFromClient = 0 ∧ bufferDelta = 0) ∨
      ∃ i ∈ (s.party p).participantReferences, ∃ steps,
        (lastReceivedStepFromClient, steps)
            ∈ storedSinceJoined i s.game.participants.log ∧
          bufferDelta = E.stepsCount steps := by
  have hparty := acknowledged_reachable hstart hrun p hused
  unfold stepRangesToSend at hresponse
  dsimp only at hresponse
  split at hresponse
  · -- A client that is too late is sent no steps, and the two numbers stay at zero.
    cases hresponse
    exact .inl ⟨rfl, rfl⟩
  · split at hresponse
    · cases hresponse
    · rw [hassigned] at hresponse
      cases hresponse
      exact hparty

/-- A client joins and sends two steps, and the response acknowledges the second. -/
theorem acknowledged_steps_were_stored_second :
    ∃ start s : Server plainExternal (plainSetup 1), StartsGame start ∧
      Reaches Server.step
        (fun s op => op.IsPlayOrReInit ∧ op.ForJoin (CreatesInFreshSlot s)) start s ∧
      (stepRangesToSend s 0 0 0).map (fun r => (r.2.1, r.2.2.1)) = .ok (1, 2) ∧
      ∃ i ∈ (s.party ⟨0, by decide⟩).participantReferences, ∃ steps : PlainSteps,
        ((1 : StepId), steps) ∈ storedSinceJoined i s.game.participants.log ∧
          2 = plainExternal.stepsCount steps := by
  obtain ⟨start, s, hstart, hrun, hassigned, hused, hresponse⟩ :=
    exists_run Server.step
      (fun s op => op.IsPlayOrReInit ∧ op.ForJoin (CreatesInFreshSlot s))
      (fun s : Server plainExternal (plainSetup 1) =>
        (s.connection 0).assignedParty = some ⟨0, by decide⟩ ∧
        (s.party ⟨0, by decide⟩).isUsed = true ∧
        (stepRangesToSend s 0 0 0).map (fun r => (r.2.1, r.2.2.1)) = .ok (1, 2))
      (plainGame 1) [.receive 0, .join 0 onePlayer (zeroLocals _),
        .incomingSteps 0 (gameStep 0 [[7], [8]]) (zeroLocals _)] (by decide +kernel)
  have hgame := startsGame_of_blankGame hstart
  obtain ⟨⟨ranges, lastReceived, bufferDelta, authoritative⟩, hsend, hpair⟩ :=
    map_eq_ok.mp hresponse
  cases hpair
  rcases acknowledged_steps_were_stored hgame hrun hassigned hused hsend with ⟨⟨⟩, -⟩ | hstored
  exact ⟨start, s, hgame, hrun, hresponse, hstored⟩

/-- A client joins and sends two steps. A new game is set up and the client joins again. The
response acknowledges the second step of the last game, and nothing was stored since. -/
theorem acknowledges_step_of_last_game :
    ∃ start s : Server plainExternal (plainSetup 1), StartsGame start ∧
      Reaches Server.step (fun s op => op.IsPlayOrReInit ∧ s.Enabled op) start s ∧
      (s.connection 0).assignedParty = some ⟨0, by decide⟩ ∧
      (s.party ⟨0, by decide⟩).isUsed = true ∧
      (stepRangesToSend s 0 0 0).map (fun r => (r.2.1, r.2.2.1)) = .ok (1, 2) ∧
      ∀ i ∈ (s.party ⟨0, by decide⟩).participantReferences,
        storedSinceJoined i s.game.participants.log = [] := by
  obtain ⟨start, s, hstart, hrun, hassigned, hused, hresponse, hnone⟩ :=
    exists_run Server.step (fun s op => op.IsPlayOrReInit ∧ s.Enabled op)
      (fun s : Server plainExternal (plainSetup 1) =>
        (s.connection 0).assignedParty = some ⟨0, by decide⟩ ∧
        (s.party ⟨0, by decide⟩).isUsed = true ∧
        (stepRangesToSend s 0 0 0).map (fun r => (r.2.1, r.2.2.1)) = .ok (1, 2) ∧
        ∀ i ∈ (s.party ⟨0, by decide⟩).participantReferences,
          (storedSinceJoined i s.game.participants.log).isEmpty = true)
      (plainGame 1) [.receive 0, .join 0 onePlayer (zeroLocals _),
        .incomingSteps 0 (gameStep 0 [[7], [8]]) (zeroLocals _), .reInitWithGame 0,
        .join 0 onePlayer (zeroLocals _)] (by decide +kernel)
  exact ⟨start, s, startsGame_of_blankGame hstart, hrun, hassigned, hused, hresponse,
    fun i hi => List.isEmpty_iff.mp (hnone i hi)⟩

/-! ### How far a client is ahead -/

/-- The difference of two ids cut to eight bits is their distance up to a multiple of 256. -/
theorem toInt_sub_toInt8 (highest next : StepId) :
    (highest - next).toUInt8.toInt8.toInt = ((highest.toNat : Int) - next.toNat).bmod 256 := by
  have hcut : (highest - next).toUInt8.toInt8.toInt
      = ((highest - next).toUInt8.toNat : Int).bmod 256 :=
    BitVec.toInt_eq_toNat_bmod (highest - next).toUInt8.toBitVec
  have hhighest := highest.toNat_lt
  have hnext := next.toNat_lt
  -- 2^32 is a multiple of 256, so wrapping around in the subtraction does not matter.
  rw [hcut, UInt32.toNat_toUInt8, UInt32.toNat_sub, Int.bmod_def, Int.bmod_def]
  omega

/-- The distance of the highest step that the party has sent from the next step to be
composed. It is negative for a client that is behind. -/
def bufferDistance (s : Server E S) (p : PartyPtr S) : Int :=
  (s.party p).highestReceivedStepId.toNat
    - (E.expectedWriteId s.game.authoritativeSteps).toNat

/-- The number of eight bits reports the distance: exactly when it can, and otherwise its
sign. -/
structure ReportsDistance (delta : Int8) (distance : Int) : Prop where
  exact : -128 ≤ distance → distance ≤ 127 → delta.toInt = distance
  sign : ¬(-128 ≤ distance ∧ distance ≤ 127) → (delta.toInt < 0 ↔ distance < 0)

/-- The distance fits in eight bits, or bit 7 of it agrees with its sign. -/
def SignSurvives (distance : Int) : Prop :=
  (-128 ≤ distance ∧ distance ≤ 127) ∨ (128 ≤ distance % 256 ↔ distance < 0)

/-- It is a condition on one number. -/
instance (distance : Int) : Decidable (SignSurvives distance) :=
  inferInstanceAs (Decidable (_ ∨ _))

/-- Reading the distance modulo 256 as a signed number. -/
theorem reportsDistance_iff {delta : Int8} {distance : Int}
    (hdelta : delta.toInt = distance.bmod 256) :
    ReportsDistance delta distance ↔ SignSurvives distance := by
  -- Negative is what has bit 7 set.
  have hneg : distance.bmod 256 < 0 ↔ 128 ≤ distance % 256 := by
    rw [Int.bmod_def]
    omega
  have hexact : -128 ≤ distance → distance ≤ 127 → distance.bmod 256 = distance := by
    intro hlow hhigh
    rw [Int.bmod_def]
    omega
  constructor
  · rintro ⟨-, hsign⟩
    by_cases hfits : -128 ≤ distance ∧ distance ≤ 127
    · exact .inl hfits
    · rw [hdelta, hneg] at hsign
      exact .inr (hsign hfits)
  · rintro (⟨hlow, hhigh⟩ | hsign)
    · exact ⟨fun _ _ => hdelta.trans (hexact hlow hhigh), fun h => absurd ⟨hlow, hhigh⟩ h⟩
    · refine ⟨fun hlow hhigh => hdelta.trans (hexact hlow hhigh), fun _ => ?_⟩
      rw [hdelta, hneg]
      exact hsign

/-- In every state, and for every response on a connection with a party whose client waits
for a step that is still there: the response reports the distance of the party if and only if
the distance fits in eight bits or bit 7 of it agrees with its sign. -/
theorem buffer_delta_iff {s : Server E S} {t : ConnectionPtr} {p : PartyPtr S}
    (hassigned : (s.connection t).assignedParty = some p) {clientWaitingForStepId : StepId}
    (havailable : E.expectedReadId s.game.authoritativeSteps ≤ clientWaitingForStepId)
    {receiveMask : UInt64} {ranges : List PendingRange} {lastReceivedStepFromClient : StepId}
    {bufferDelta : Nat} {authoritativeBufferDelta : Int8}
    (hresponse : stepRangesToSend s t clientWaitingForStepId receiveMask
      = .ok (ranges, lastReceivedStepFromClient, bufferDelta, authoritativeBufferDelta)) :
    ReportsDistance authoritativeBufferDelta (bufferDistance s p) ↔
      SignSurvives (bufferDistance s p) := by
  refine reportsDistance_iff ?_
  have hlate : ¬clientWaitingForStepId < E.expectedReadId s.game.authoritativeSteps :=
    UInt32.not_lt.mpr havailable
  unfold stepRangesToSend at hresponse
  dsimp only at hresponse
  rw [if_neg hlate] at hresponse
  split at hresponse
  · -- The number of the response is the cut difference.
    cases hresponse
  · rw [hassigned] at hresponse
    cases hresponse
    exact toInt_sub_toInt8 _ _

/-- The octets of a GameStep request of a client that waits for a step and sends none. -/
def emptyGameStep (clientWaitingForStepId : Nat) : InStream :=
  natToOctets 4 clientWaitingForStepId ++ natToOctets 8 0 ++ [0]

/-- A client joins a game that starts at step 100 and has sent nothing. It is told that it is
100 steps behind. -/
theorem buffer_delta_iff_hundred :
    ∃ start s : Server plainExternal (plainSetup 1), StartsGame start ∧
      Reaches Server.step (fun s op => op.IsPlayOrReInit ∧ s.Enabled op) start s ∧
      bufferDistance s ⟨0, by decide⟩ = -100 ∧
      ∃ ranges, stepRangesToSend s 0 100 0 = .ok (ranges, 0, 0, -100) ∧
        ReportsDistance (-100) (bufferDistance s ⟨0, by decide⟩) := by
  obtain ⟨start, s, hstart, hrun, hassigned, havailable, hdistance, hresponse⟩ :=
    exists_run Server.step (fun s op => op.IsPlayOrReInit ∧ s.Enabled op)
      (fun s : Server plainExternal (plainSetup 1) =>
        (s.connection 0).assignedParty = some ⟨0, by decide⟩ ∧
        plainExternal.expectedReadId s.game.authoritativeSteps ≤ 100 ∧
        bufferDistance s ⟨0, by decide⟩ = -100 ∧
        (stepRangesToSend s 0 100 0).map (·.2) = .ok (0, 0, -100))
      (plainGame 1) [.reInitWithGame 100, .receive 0, .join 0 onePlayer (zeroLocals _),
        .incomingSteps 0 (emptyGameStep 100) (zeroLocals _)] (by decide +kernel)
  obtain ⟨⟨ranges, numbers⟩, hsend, hnumbers⟩ := map_eq_ok.mp hresponse
  cases hnumbers
  refine ⟨start, s, startsGame_of_blankGame hstart, hrun, hdistance, ranges, hsend, ?_⟩
  exact (buffer_delta_iff hassigned havailable hsend).mpr (by rw [hdistance]; decide)

/-- The same in a game that starts at step 200: the client is told that it is 56 steps
ahead. -/
theorem buffer_delta_wrong_sign :
    ∃ start s : Server plainExternal (plainSetup 1), StartsGame start ∧
      Reaches Server.step (fun s op => op.IsPlayOrReInit ∧ s.Enabled op) start s ∧
      (s.connection 0).assignedParty = some ⟨0, by decide⟩ ∧
      plainExternal.expectedReadId s.game.authoritativeSteps ≤ 200 ∧
      bufferDistance s ⟨0, by decide⟩ = -200 ∧
      ∃ ranges, stepRangesToSend s 0 200 0 = .ok (ranges, 0, 0, 56) ∧
        ¬ReportsDistance 56 (bufferDistance s ⟨0, by decide⟩) := by
  obtain ⟨start, s, hstart, hrun, hassigned, havailable, hdistance, hresponse⟩ :=
    exists_run Server.step (fun s op => op.IsPlayOrReInit ∧ s.Enabled op)
      (fun s : Server plainExternal (plainSetup 1) =>
        (s.connection 0).assignedParty = some ⟨0, by decide⟩ ∧
        plainExternal.expectedReadId s.game.authoritativeSteps ≤ 200 ∧
        bufferDistance s ⟨0, by decide⟩ = -200 ∧
        (stepRangesToSend s 0 200 0).map (·.2) = .ok (0, 0, 56))
      (plainGame 1) [.reInitWithGame 200, .receive 0, .join 0 onePlayer (zeroLocals _),
        .incomingSteps 0 (emptyGameStep 200) (zeroLocals _)] (by decide +kernel)
  obtain ⟨⟨ranges, numbers⟩, hsend, hnumbers⟩ := map_eq_ok.mp hresponse
  cases hnumbers
  refine ⟨start, s, startsGame_of_blankGame hstart, hrun, hassigned, havailable, hdistance,
    ranges, hsend, fun hreports => ?_⟩
  -- The distance does not fit, so at least the sign should be right, and 56 is positive.
  have hsign := hreports.sign (by rw [hdistance]; decide)
  rw [hdistance] at hsign
  exact absurd (hsign.mpr (by decide)) (by decide)

end NimbleServer
