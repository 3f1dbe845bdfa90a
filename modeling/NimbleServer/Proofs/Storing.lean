import NimbleServer.Model.PlainServer
import NimbleServer.Proofs.StepRules

/-!
# `NimbleServer.Proofs.Storing`: what a GameStep request stores, also when it is rejected

A GameStep request is parsed and applied at the same time. Each step it carries is either
stored in its participant's buffer, ignored because the buffer is past it, or an error that
ends the request (`SingleStepOutcome`). After the steps of one participant the party notes
how many were stored. An error returns at once, and what was stored before it stays.

So a rejected request can change the game. `NothingAccepted` walks over the payload and
says that none of its steps fits at the end of a buffer, up to the point where the request
is rejected. `rejected_unchanged_iff` says that a rejected request changes nothing exactly
in this case, provided also that no authoritative steps are due to be discarded: the
discarding comes before the request is looked at.
-/

set_option autoImplicit false

namespace NimbleServer

open NimbleServer.Lib

variable {E : External} {S : Setup}

/-! ### One step -/

/-- Assigning to a participant what it is changes nothing. -/
theorem Server.setParticipant_self (s : Server E S) (i : ParticipantPtr S) :
    s.setParticipant i (s.participant i) = s := by
  unfold Server.setParticipant Server.participant Participants.set Participants.get
  simp

/-- Assigning to a party what it is changes nothing. -/
theorem Server.setParty_self (s : Server E S) (p : PartyPtr S) :
    s.setParty p (s.party p) = s := by
  unfold Server.setParty Server.party LocalParties.set LocalParties.get
  simp

/-- The server after a step entered the buffer of a participant. -/
def storeStep (s : Server E S) (i : ParticipantPtr S) (stepId : StepId) (steps : E.Steps) :
    Server E S :=
  let stored := s.setParticipant i { s.participant i with steps }
  stored.setParticipants { stored.game.participants with
    log := .stored i stepId steps :: s.game.participants.log }

/-- Only the participant's buffer changed. -/
theorem participant_storeStep (s : Server E S) (i j : ParticipantPtr S) (stepId : StepId)
    (steps : E.Steps) :
    (storeStep s i stepId steps).participant j
      = if i = j then { s.participant i with steps } else s.participant j :=
  Server.participant_setParticipant s i j _

/-- The buffer stores a step with the id. -/
def Stores (steps : E.Steps) (stepId : StepId) : Prop :=
  E.expectedReadId steps ≤ stepId ∧ stepId < E.expectedWriteId steps

/-- It is a comparison of ids. -/
instance (steps : E.Steps) (stepId : StepId) : Decidable (Stores steps stepId) :=
  inferInstanceAs (Decidable (_ ∧ _))

/-- `steps'` is the buffer `steps` with one more payload. -/
structure OneMore (steps steps' : E.Steps) : Prop where
  readId : E.expectedReadId steps' = E.expectedReadId steps
  payload : ∃ payload : List UInt8, payload.length < 256 ∧
    E.storedPayloads steps' = E.storedPayloads steps ++ [payload]

/-- One payload more. -/
theorem OneMore.length {steps steps' : E.Steps} (h : OneMore steps steps') :
    (E.storedPayloads steps').length = (E.storedPayloads steps).length + 1 := by
  obtain ⟨payload, -, hstored⟩ := h.payload
  simp [hstored]

/-- The id after a stored step is one higher. The ids of a buffer do not wrap. -/
theorem OneMore.writeId_sub_one [LawfulSteps E] {steps steps' : E.Steps}
    (h : OneMore steps steps') : E.expectedWriteId steps' - 1 = E.expectedWriteId steps := by
  have hwrite := LawfulSteps.writeId_eq steps
  have hwrite' := LawfulSteps.writeId_eq steps'
  rw [h.readId, h.length] at hwrite'
  have hone : (1 : StepId) ≤ E.expectedWriteId steps' := by
    rw [UInt32.le_iff_toNat_le]
    show 1 ≤ _
    omega
  apply UInt32.toNat_inj.mp
  rw [UInt32.toNat_sub_of_le _ _ hone]
  show (E.expectedWriteId steps').toNat - 1 = _
  omega

/-- An empty buffer starts where it expects the next step. -/
theorem expectedReadId_reInit [LawfulSteps E] (steps : E.Steps) (id : StepId) :
    E.expectedReadId (E.nbsStepsReInit steps id) = id := by
  have hwrite := LawfulSteps.writeId_eq (E.nbsStepsReInit steps id)
  rw [LawfulSteps.reInit_stored, LawfulSteps.reInit_writeId] at hwrite
  exact (UInt32.toNat_inj.mp hwrite).symm

/-- How the reading of one step ends: its result and the server afterwards. -/
inductive SingleStepOutcome (s : Server E S) (i : ParticipantPtr S) (stepId : StepId) :
    Int → Server E S → Prop
  | failed (code : Int) (hcode : code < 0) : SingleStepOutcome s i stepId code s
  | ignored (hid : stepId < E.expectedWriteId (s.participant i).steps) :
      SingleStepOutcome s i stepId 0 s
  | stored (steps : E.Steps) (hid : stepId = E.expectedWriteId (s.participant i).steps)
      (hmore : OneMore (s.participant i).steps steps) :
      SingleStepOutcome s i stepId 1 (storeStep s i stepId steps)

/-- There is no other way for it to end. -/
theorem deserializeSingleStep_outcome [LawfulSteps E] (s : Server E S) (i : ParticipantPtr S)
    (stepId : StepId) (inStream : InStream) :
    SingleStepOutcome s i stepId
      (nimbleServerParticipantDeserializeSingleStep s i stepId inStream).1
      (nimbleServerParticipantDeserializeSingleStep s i stepId inStream).2.2 := by
  rcases hread : E.nbsStepsInSerializeSinglePredictedStep inStream stepId
    (s.participant i).steps with ⟨added, consumed, steps⟩
  simp only [nimbleServerParticipantDeserializeSingleStep, hread]
  rcases LawfulSteps.inSerialize_cases _ _ _ _ _ _ hread with
    ⟨hneg, rfl⟩ | ⟨rfl, hid, rfl⟩ | ⟨rfl, hid, hreadId, hpayload⟩
  · have hnot : ¬0 < added := by omega
    rw [if_neg hnot, Server.setParticipant_self]
    exact .failed added hneg
  · rw [if_neg (by decide), Server.setParticipant_self]
    exact .ignored hid
  · rw [if_pos (by decide)]
    exact .stored steps hid ⟨hreadId, hpayload⟩

/-! ### Buffers only grow -/

/-- Every buffer holds at least as many steps as before. -/
def BuffersGrow (s s' : Server E S) : Prop :=
  ∀ i, (E.storedPayloads (s.participant i).steps).length
    ≤ (E.storedPayloads (s'.participant i).steps).length

/-- Some buffer holds more steps than before. -/
def SomeBufferGrew (s s' : Server E S) : Prop :=
  ∃ i, (E.storedPayloads (s.participant i).steps).length
    < (E.storedPayloads (s'.participant i).steps).length

/-- Storing a step makes one buffer longer and leaves the others. -/
theorem BuffersGrow.storeStep {s s' : Server E S} (h : BuffersGrow s s')
    {i : ParticipantPtr S} (stepId : StepId) {steps : E.Steps}
    (hmore : OneMore (s'.participant i).steps steps) :
    BuffersGrow s (NimbleServer.storeStep s' i stepId steps) := by
  intro j
  rw [participant_storeStep]
  split
  · rename_i hij
    subst hij
    have hlength := hmore.length
    have hj := h i
    show _ ≤ (E.storedPayloads steps).length
    omega
  · exact h j

/-- No step of a request makes a buffer shorter. -/
theorem buffersGrow_storeRule [LawfulSteps E] (s : Server E S) (p : PartyPtr S) :
    StoreRule p (BuffersGrow s) where
  single := by
    intro s' i stepId inStream h _
    have houtcome := deserializeSingleStep_outcome s' i stepId inStream
    revert houtcome
    rcases nimbleServerParticipantDeserializeSingleStep s' i stepId inStream with ⟨added, rest, s1⟩
    intro houtcome
    dsimp only at houtcome ⊢
    cases houtcome with
    | failed code hcode => exact h
    | ignored hid => exact h
    | stored steps hid hmore => exact h.storeStep stepId hmore
  note := fun _ _ _ h => h

/-- What comes later does not undo it. -/
theorem SomeBufferGrew.trans {s s' s'' : Server E S} (h : SomeBufferGrew s s')
    (h' : BuffersGrow s' s'') : SomeBufferGrew s s'' := by
  obtain ⟨i, hi⟩ := h
  exact ⟨i, Nat.lt_of_lt_of_le hi (h' i)⟩

/-! ### Requests without a step that fits -/

/-- None of the steps of one participant is stored. `next` is said of what follows them, and
only if they all can be read. -/
def StepsNotAccepted (steps : E.Steps) (firstStepId : StepId) (next : InStream → Prop) :
    (remaining index : Nat) → InStream → Prop
  | 0, _, inStream => next inStream
  | remaining + 1, index, inStream =>
    let result := E.nbsStepsInSerializeSinglePredictedStep inStream
      (firstStepId + UInt32.ofNat index) steps
    result.1 ≤ 0 ∧ (0 ≤ result.1 →
      StepsNotAccepted steps firstStepId next remaining (index + 1)
        (inStream.drop result.2.1))

/-- None of the steps of the announced participants is stored. -/
def ParticipantsNotAccepted (references : List (ParticipantPtr S))
    (steps : ParticipantPtr S → E.Steps) (uninitialized : Uninitialized S) :
    (remaining participantIterator : Nat) → InStream → Prop
  | 0, _, _ => True
  | remaining + 1, participantIterator, inStream =>
    let (participantIndex, inStream) := readInto E.fldInStreamReadUInt8 inStream
      (uninitialized.participantIndex participantIterator)
    match references[participantIndex.toNat]? with
    | none => True
    | some i =>
      match E.nbsStepsInSerializeHeader inStream with
      | .error _ => True
      | .ok (firstStepId, stepsThatFollow, consumed) =>
        StepsNotAccepted (steps i) firstStepId
          (fun rest => ParticipantsNotAccepted references steps uninitialized remaining
            (participantIterator + 1) rest)
          stepsThatFollow 0 (inStream.drop consumed)

/-- None of the steps of a request for the party is stored. -/
def PartyNotAccepted (s : Server E S) (p : PartyPtr S) (uninitialized : Uninitialized S) :
    (remaining participantIterator : Nat) → InStream → Prop :=
  ParticipantsNotAccepted (s.party p).participantReferences (fun i => (s.participant i).steps)
    uninitialized

/-- None of the steps of a GameStep request fits at the end of its participant's buffer, up
to the point where the request is rejected. -/
def NothingAccepted (s : Server E S) (t : ConnectionPtr) (inStream : InStream)
    (uninitialized : Uninitialized S) : Prop :=
  match (s.connection t).assignedParty with
  | none => True
  | some p =>
    if (s.party p).state = .dissolved then True
    else
      match E.nbsPendingStepsInSerializeHeader inStream with
      | .error _ => True
      | .ok (_, _, consumed) =>
        let (participantCount, inStream) :=
          readInto E.fldInStreamReadUInt8 (inStream.drop consumed) uninitialized.participantCount
        PartyNotAccepted s p uninitialized participantCount.toNat 0 inStream

section Loops

variable [LawfulSteps E]

/-- The inner loop stores nothing and leaves the server as it is, or it makes the buffer
longer. Induction on the steps that remain. -/
theorem deserializeSteps_accepted_or_not (i : ParticipantPtr S) (firstStepId : StepId)
    (next : InStream → Prop) :
    ∀ (remaining index total : Nat) (inStream : InStream) (s : Server E S) result rest s',
      deserializeStepsOfParticipant i firstStepId remaining index total inStream s
        = (result, rest, s') →
      (s' = s ∧ (∀ count, result = .ok count → count = total) ∧
        (StepsNotAccepted (s.participant i).steps firstStepId next remaining index inStream ↔
          ∀ count, result = .ok count → next rest)) ∨
      (SomeBufferGrew s s' ∧
        ¬StepsNotAccepted (s.participant i).steps firstStepId next remaining index inStream) := by
  intro remaining
  induction remaining with
  | zero =>
    intro index total inStream s result rest s' hread
    cases hread
    refine .inl ⟨rfl, by rintro count ⟨⟩; rfl, ?_⟩
    exact ⟨fun h _ _ => h, fun h => h total rfl⟩
  | succ remaining ih =>
    intro index total inStream s result rest s' hread
    have houtcome := deserializeSingleStep_outcome s i (firstStepId + UInt32.ofNat index) inStream
    -- The result of the single step decides both the loop and the walk over the payload.
    have hresult : (nimbleServerParticipantDeserializeSingleStep s i
        (firstStepId + UInt32.ofNat index) inStream).1
        = (E.nbsStepsInSerializeSinglePredictedStep inStream (firstStepId + UInt32.ofNat index)
          (s.participant i).steps).1 := rfl
    have hrest : (nimbleServerParticipantDeserializeSingleStep s i
        (firstStepId + UInt32.ofNat index) inStream).2.1
        = inStream.drop (E.nbsStepsInSerializeSinglePredictedStep inStream
          (firstStepId + UInt32.ofNat index) (s.participant i).steps).2.1 := rfl
    simp only [deserializeStepsOfParticipant] at hread
    simp only [StepsNotAccepted, ← hresult, ← hrest]
    revert hread houtcome
    rcases nimbleServerParticipantDeserializeSingleStep s i
      (firstStepId + UInt32.ofNat index) inStream with ⟨added, stream, s1⟩
    intro hread houtcome
    dsimp only at hread houtcome ⊢
    cases houtcome with
    -- The request is rejected here, and the walk over the payload ends at the same place.
    | failed code hcode =>
      rw [if_pos hcode] at hread
      cases hread
      refine .inl ⟨rfl, by rintro count ⟨⟩, ?_⟩
      constructor
      · rintro - count ⟨⟩
      · intro _
        exact ⟨by omega, fun h => absurd hcode (by omega)⟩
    | ignored hid =>
      rw [if_neg (by decide)] at hread
      simpa using ih (index + 1) total stream s result rest s' hread
    | stored steps hid hmore =>
      rw [if_neg (by decide)] at hread
      have hgrew : SomeBufferGrew s (storeStep s i (firstStepId + UInt32.ofNat index) steps) := by
        refine ⟨i, ?_⟩
        rw [participant_storeStep, if_pos rfl]
        show _ < (E.storedPayloads steps).length
        rw [hmore.length]
        omega
      -- The buffer has grown, and no later step makes it shorter.
      refine .inr ⟨?_, fun h => absurd h.1 (by decide)⟩
      rcases ih (index + 1) _ stream _ result rest s' hread with ⟨rfl, -⟩ | ⟨⟨j, hj⟩, -⟩
      · exact hgrew
      · refine ⟨j, Nat.lt_of_le_of_lt ?_ hj⟩
        exact BuffersGrow.storeStep (fun _ => Nat.le_refl _) _ hmore j

/-- The outer loop stores nothing and leaves the server as it is, or it makes a buffer
longer. Induction on the participants that remain. -/
theorem deserializePredictedSteps_accepted_or_not (p : PartyPtr S)
    (uninitialized : Uninitialized S) :
    ∀ (remaining iterator : Nat) (inStream : InStream) (s : Server E S),
      ((deserializePredictedStepsLoop p uninitialized remaining iterator inStream s).2.2 = s ∧
        PartyNotAccepted s p uninitialized remaining iterator inStream) ∨
      (SomeBufferGrew s
          (deserializePredictedStepsLoop p uninitialized remaining iterator inStream s).2.2 ∧
        ¬PartyNotAccepted s p uninitialized remaining iterator inStream) := by
  unfold PartyNotAccepted
  intro remaining
  induction remaining with
  | zero =>
    intro iterator inStream s
    exact .inl ⟨rfl, trivial⟩
  | succ remaining ih =>
    intro iterator inStream s
    simp only [deserializePredictedStepsLoop, ParticipantsNotAccepted]
    cases (s.party p).participantReferences[(readInto E.fldInStreamReadUInt8 inStream
        (uninitialized.participantIndex iterator)).1.toNat]? with
    | none => exact .inl ⟨rfl, trivial⟩
    | some i =>
      dsimp only
      cases E.nbsStepsInSerializeHeader (readInto E.fldInStreamReadUInt8 inStream
          (uninitialized.participantIndex iterator)).2 with
      | error code => exact .inl ⟨rfl, trivial⟩
      | ok header =>
        obtain ⟨firstStepId, stepsThatFollow, consumed⟩ := header
        dsimp only
        rcases hread : deserializeStepsOfParticipant i firstStepId stepsThatFollow 0 0
          ((readInto E.fldInStreamReadUInt8 inStream
            (uninitialized.participantIndex iterator)).2.drop consumed) s with ⟨result, rest, s1⟩
        have hinner := deserializeSteps_accepted_or_not i firstStepId
          (ParticipantsNotAccepted (s.party p).participantReferences
            (fun i => (s.participant i).steps) uninitialized remaining (iterator + 1))
          _ _ _ _ _ _ _ _ hread
        rcases hinner with ⟨rfl, htotal, hwalk⟩ | ⟨hgrew, hwalk⟩
        · rw [hwalk]
          cases result with
          | error code => exact .inl ⟨rfl, by rintro count ⟨⟩⟩
          | ok total =>
            -- Nothing was stored for this participant, so the party notes nothing.
            obtain rfl := htotal total rfl
            have hnote : noteAddedSteps (s1.party p) (s1.participant i).steps 0 = s1.party p :=
              rfl
            dsimp only
            rw [hnote, Server.setParty_self]
            simpa using ih (iterator + 1) rest s1
        · -- Something was stored for this participant, and it stays whatever the others bring.
          refine .inr ⟨?_, hwalk⟩
          cases result with
          | error code => exact hgrew
          | ok total =>
            refine hgrew.trans ?_
            exact (buffersGrow_storeRule s1 p).roundRule.deserializePredictedStepsLoop
              uninitialized remaining (iterator + 1) rest _ fun _ => Nat.le_refl _

/-- The whole request stores nothing and leaves the server as it is, or it makes a buffer
longer. -/
theorem handleIncomingSteps_accepted_or_not (s : Server E S) (t : ConnectionPtr)
    (inStream : InStream) (uninitialized : Uninitialized S) :
    ((nimbleServerHandleIncomingSteps s t inStream uninitialized).2.2 = s ∧
      NothingAccepted s t inStream uninitialized) ∨
    (SomeBufferGrew s (nimbleServerHandleIncomingSteps s t inStream uninitialized).2.2 ∧
      ¬NothingAccepted s t inStream uninitialized) := by
  unfold nimbleServerHandleIncomingSteps NothingAccepted
  cases (s.connection t).assignedParty with
  | none => exact .inl ⟨rfl, trivial⟩
  | some p =>
    dsimp only
    by_cases hstate : (s.party p).state = .dissolved
    · rw [if_pos hstate, if_pos hstate]
      exact .inl ⟨rfl, trivial⟩
    · rw [if_neg hstate, if_neg hstate]
      cases E.nbsPendingStepsInSerializeHeader inStream with
      | error code => exact .inl ⟨rfl, trivial⟩
      | ok header =>
        obtain ⟨waitingFor, receiveMask, consumed⟩ := header
        have hloop := deserializePredictedSteps_accepted_or_not p uninitialized
          (readInto E.fldInStreamReadUInt8 (inStream.drop consumed)
            uninitialized.participantCount).1.toNat 0
          (readInto E.fldInStreamReadUInt8 (inStream.drop consumed)
            uninitialized.participantCount).2 s
        -- The result is an error or a step id, and the server is that of the loop in both cases.
        dsimp only
        split
        · exact hloop
        · exact hloop

end Loops

/-! ### Rejected requests -/

/-- What a rejected request must not touch: the authoritative steps, every participant's step
buffer, and what the connection's party counts. -/
structure GameStepUnchanged (s : Server E S) (t : ConnectionPtr) (s' : Server E S) : Prop where
  authoritativeSteps : s'.game.authoritativeSteps = s.game.authoritativeSteps
  steps : ∀ i, (s'.participant i).steps = (s.participant i).steps
  counters : ∀ p, (s.connection t).assignedParty = some p →
    (s'.party p).quality = (s.party p).quality ∧
    (s'.party p).highestReceivedStepId = (s.party p).highestReceivedStepId ∧
    (s'.party p).stepsInBufferCount = (s.party p).stepsInBufferCount

/-- Storing predicted steps does not touch the authoritative steps. -/
theorem handleIncomingSteps_authoritativeSteps (s : Server E S) (t : ConnectionPtr)
    (inStream : InStream) (uninitialized : Uninitialized S) :
    (nimbleServerHandleIncomingSteps s t inStream uninitialized).2.2.game.authoritativeSteps
      = s.game.authoritativeSteps := by
  refine StoreRule.handleIncomingSteps
    (fun s' => s'.game.authoritativeSteps = s.game.authoritativeSteps) rfl (fun p _ => ?_)
    inStream uninitialized
  constructor
  · intro s' i stepId inStream h _
    unfold nimbleServerParticipantDeserializeSingleStep
    dsimp only
    split
    · exact h
    · exact h
  · intro s' steps total h
    exact h

/-- The authoritative steps that are left when a request arrives. -/
def keptAuthoritativeSteps (steps : E.Steps) : E.Steps :=
  if E.stepsCount steps > E.NBS_WINDOW_SIZE / 3 then
    (E.nbsStepsDiscardCount steps (E.stepsCount steps - E.NBS_WINDOW_SIZE / 3)).2
  else steps

/-- The server when the request is looked at, after old authoritative steps are discarded. -/
def afterDiscard (s : Server E S) : Server E S :=
  { s with game := { s.game with
    authoritativeSteps := keptAuthoritativeSteps s.game.authoritativeSteps } }

section Rejected

variable [LawfulSteps E]

/-- Discarding old steps does not fail. -/
theorem discardAuthoritativeSteps_eq (s : Server E S) :
    discardAuthoritativeStepsIfBufferGettingFull s = (0, afterDiscard s) := by
  simp only [discardAuthoritativeStepsIfBufferGettingFull, afterDiscard, keptAuthoritativeSteps]
  split
  · have hok := (LawfulSteps.discard_ok s.game.authoritativeSteps
      (E.stepsCount s.game.authoritativeSteps - E.NBS_WINDOW_SIZE / 3) (Nat.sub_le _ _)).1
    rw [if_neg (Int.not_lt.mpr hok)]
  · rfl

/-- So a request is handled in the server without the discarded steps. -/
theorem readIncomingSteps_eq (s : Server E S) (t : ConnectionPtr) (inStream : InStream)
    (uninitialized : Uninitialized S) :
    readIncomingSteps s t inStream uninitialized
      = nimbleServerHandleIncomingSteps (afterDiscard s) t inStream uninitialized := by
  unfold readIncomingSteps
  rw [discardAuthoritativeSteps_eq]
  rfl

/-- Nothing is discarded exactly when the buffer holds at most a third of the window. -/
theorem keptAuthoritativeSteps_eq_iff (steps : E.Steps) :
    keptAuthoritativeSteps steps = steps ↔ E.stepsCount steps ≤ E.NBS_WINDOW_SIZE / 3 := by
  unfold keptAuthoritativeSteps
  by_cases hfull : E.stepsCount steps > E.NBS_WINDOW_SIZE / 3
  · rw [if_pos hfull]
    refine iff_of_false (fun h => ?_) (by omega)
    have hstored := (LawfulSteps.discard_ok steps
      (E.stepsCount steps - E.NBS_WINDOW_SIZE / 3) (Nat.sub_le _ _)).2.1
    -- The discarded steps are missing from the buffer.
    have hlength := congrArg List.length hstored
    rw [h, List.length_drop, ← LawfulSteps.stepsCount_eq] at hlength
    omega
  · rw [if_neg hfull]
    exact iff_of_true rfl (by omega)

/-- A request that is rejected returns the error and writes no reply. -/
theorem reqGameStep_of_rejected {s : Server E S} {t : ConnectionPtr} {inStream : InStream}
    {uninitialized : Uninitialized S} {code : Int} {rest : InStream} {s' : Server E S}
    (hrejected : nimbleServerHandleIncomingSteps
      (discardAuthoritativeStepsIfBufferGettingFull s).2 t inStream uninitialized
        = (.error code, rest, s')) (outStream : OutStream) :
    nimbleServerReqGameStep s t inStream outStream uninitialized
      = .ok (code, rest, outStream, s') := by
  rw [discardAuthoritativeSteps_eq] at hrejected
  simp only [nimbleServerReqGameStep, readIncomingStepsAndCreateAuthoritativeSteps,
    readIncomingSteps_eq, hrejected]
  rfl

/-- A request that is rejected returns the error and writes no reply. It leaves the
authoritative steps, the step buffers and the party's counters alone exactly when at most a
third of the authoritative window is filled and no step of the request is stored before the
error. -/
theorem rejected_unchanged_iff (s : Server E S) (t : ConnectionPtr) (inStream : InStream)
    (outStream : OutStream) (uninitialized : Uninitialized S) {code : Int} {rest : InStream}
    {s' : Server E S}
    (hrejected : nimbleServerHandleIncomingSteps
      (discardAuthoritativeStepsIfBufferGettingFull s).2 t inStream uninitialized
        = (.error code, rest, s')) :
    nimbleServerReqGameStep s t inStream outStream uninitialized
        = .ok (code, rest, outStream, s') ∧
      (GameStepUnchanged s t s' ↔
        E.stepsCount s.game.authoritativeSteps ≤ E.NBS_WINDOW_SIZE / 3 ∧
          NothingAccepted s t inStream uninitialized) := by
  refine ⟨reqGameStep_of_rejected hrejected outStream, ?_⟩
  rw [discardAuthoritativeSteps_eq] at hrejected
  have hstored := handleIncomingSteps_accepted_or_not (afterDiscard s) t inStream uninitialized
  have hkept := handleIncomingSteps_authoritativeSteps (afterDiscard s) t inStream uninitialized
  rw [hrejected] at hstored hkept
  dsimp only at hstored hkept
  -- Discarding touches the authoritative steps, which the walk over the payload does not read.
  have hsame : NothingAccepted (afterDiscard s) t inStream uninitialized
      ↔ NothingAccepted s t inStream uninitialized := Iff.rfl
  rw [hsame] at hstored
  constructor
  · intro hunchanged
    refine ⟨(keptAuthoritativeSteps_eq_iff _).mp
      (hkept.symm.trans hunchanged.authoritativeSteps), ?_⟩
    rcases hstored with ⟨-, hnothing⟩ | ⟨⟨i, hi⟩, -⟩
    · exact hnothing
    · rw [hunchanged.steps i] at hi
      exact absurd hi (Nat.lt_irrefl _)
  · rintro ⟨hcount, hnothing⟩
    have hsteps := (keptAuthoritativeSteps_eq_iff s.game.authoritativeSteps).mpr hcount
    rcases hstored with ⟨rfl, -⟩ | ⟨-, haccepted⟩
    · exact ⟨hsteps, fun _ => rfl, fun _ _ => ⟨rfl, rfl, rfl⟩⟩
    · exact absurd hnothing haccepted

end Rejected

/-- A client that joined sends a request that ends before its only step. -/
theorem rejected_unchanged_iff_noStep :
    ∃ start s : Server plainExternal (plainSetup 1), StartsGame start ∧
      Reaches Server.step (fun s op => s.Enabled op) start s ∧
      ∃ rest s', nimbleServerReqGameStep s 0 ((gameStep 0 [[7]]).take 19)
          (plainExternal.fldOutStreamInit 100) (zeroLocals _)
          = .ok (-1, rest, plainExternal.fldOutStreamInit 100, s') ∧
        GameStepUnchanged s 0 s' := by
  obtain ⟨start, s, hstart, hrun, hcount, herror, hsteps⟩ :=
    exists_run Server.step (fun s op => s.Enabled op)
      (fun s : Server plainExternal (plainSetup 1) =>
        plainExternal.stepsCount s.game.authoritativeSteps ≤ 40 ∧
        (nimbleServerHandleIncomingSteps (discardAuthoritativeStepsIfBufferGettingFull s).2 0
          ((gameStep 0 [[7]]).take 19) (zeroLocals _)).1 = .error (-1) ∧
        ∀ i, plainExternal.stepsCount ((nimbleServerHandleIncomingSteps s 0
          ((gameStep 0 [[7]]).take 19) (zeroLocals _)).2.2.participant i).steps
          = plainExternal.stepsCount (s.participant i).steps)
      (plainGame 1) [.receive 0, .join 0 onePlayer (zeroLocals _)] (by decide +kernel)
  have hiff := rejected_unchanged_iff s 0 ((gameStep 0 [[7]]).take 19)
    (plainExternal.fldOutStreamInit 100) (zeroLocals _) (Prod.ext herror rfl)
  refine ⟨start, s, startsGame_of_blankGame hstart, hrun, _, _, hiff.1,
    hiff.2.mpr ⟨hcount, ?_⟩⟩
  rcases handleIncomingSteps_accepted_or_not s 0 ((gameStep 0 [[7]]).take 19)
    (zeroLocals _) with ⟨-, hnothing⟩ | ⟨⟨i, hi⟩, -⟩
  · exact hnothing
  · rw [← LawfulSteps.stepsCount_eq, ← LawfulSteps.stepsCount_eq, hsteps i] at hi
    exact absurd hi (Nat.lt_irrefl _)

/-- A client that joined sends a request that announces two steps and ends after the first.
The request is rejected, and the first step is in the buffer. -/
theorem rejected_keeps_firstStep :
    ∃ start s : Server plainExternal (plainSetup 1), StartsGame start ∧
      Reaches Server.step (fun s op => s.Enabled op) start s ∧
      ∃ rest s', nimbleServerHandleIncomingSteps
          (discardAuthoritativeStepsIfBufferGettingFull s).2 0
          ((gameStep 0 [[7], [8]]).take 21) (zeroLocals _) = (.error (-1), rest, s') ∧
        nimbleServerReqGameStep s 0 ((gameStep 0 [[7], [8]]).take 21)
          (plainExternal.fldOutStreamInit 100) (zeroLocals _)
          = .ok (-1, rest, plainExternal.fldOutStreamInit 100, s') ∧
        ¬GameStepUnchanged s 0 s' := by
  obtain ⟨start, s, hstart, hrun, herror, hbefore, hafter⟩ :=
    exists_run Server.step (fun s op => s.Enabled op)
      (fun s : Server plainExternal (plainSetup 1) =>
        (nimbleServerHandleIncomingSteps (discardAuthoritativeStepsIfBufferGettingFull s).2 0
          ((gameStep 0 [[7], [8]]).take 21) (zeroLocals _)).1 = .error (-1) ∧
        plainExternal.stepsCount (s.participant ⟨0, by decide⟩).steps = 0 ∧
        plainExternal.stepsCount ((nimbleServerHandleIncomingSteps
          (discardAuthoritativeStepsIfBufferGettingFull s).2 0
          ((gameStep 0 [[7], [8]]).take 21) (zeroLocals _)).2.2.participant
            ⟨0, by decide⟩).steps = 1)
      (plainGame 1) [.receive 0, .join 0 onePlayer (zeroLocals _)] (by decide +kernel)
  refine ⟨start, s, startsGame_of_blankGame hstart, hrun, _, _, Prod.ext herror rfl,
    reqGameStep_of_rejected (Prod.ext herror rfl) _, fun hunchanged => ?_⟩
  rw [hunchanged.steps, hbefore] at hafter
  cases hafter

end NimbleServer
