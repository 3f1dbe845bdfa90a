import NimbleServer.Model.Operations

/-!
# `NimbleServer.Proofs.StepRules`: proof rules for storing and composing steps

Storing predicted steps and composing an authoritative step are loops of small changes to
the server. Most invariants do not depend on how the loops run, only on what a single
change does. `StoreRule`, `StoreKeeps` and `ComposeRule` list the changes, and a property
that survives each of them survives the whole operation (`StoreRule.handleIncomingSteps`,
`StoreKeeps.readIncomingSteps`, `ComposeRule.composeRound`). Each later invariant is then
proved change by change, and never opens the loops.

`SameParties` is the first use of the rules: storing and composing leave alone what the
parties are bound to, and the transport connections.
-/

set_option autoImplicit false

namespace NimbleServer

open NimbleServer.Lib

variable {E : External} {S : Setup}

/-! ### Assigning states to referenced participants -/

/-- A reading of the server that no assignment to a participant changes is not changed by
assigning states. Induction on the references. -/
theorem setReferencedStates_frame {α : Type} (f : Server E S → α)
    (hf : ∀ s i x, f (s.setParticipant i x) = f s) (s : Server E S)
    (references : List (ParticipantPtr S)) (state : ParticipantState) :
    f (setReferencedStates s references state) = f s := by
  induction references generalizing s with
  | nil => rfl
  -- The states are assigned from the first reference on, so the rest starts at the server after
  -- one assignment.
  | cons i rest ih => exact (ih _).trans (hf _ _ _)

/-- Assigning states touches no party, -/
@[simp] theorem setReferencedStates_localParties (s : Server E S)
    (references : List (ParticipantPtr S)) (state : ParticipantState) :
    (setReferencedStates s references state).localParties = s.localParties :=
  setReferencedStates_frame (·.localParties) (fun _ _ _ => rfl) s references state

/-- no transport connection, -/
@[simp] theorem setReferencedStates_transportConnections (s : Server E S)
    (references : List (ParticipantPtr S)) (state : ParticipantState) :
    (setReferencedStates s references state).transportConnections = s.transportConnections :=
  setReferencedStates_frame (·.transportConnections) (fun _ _ _ => rfl) s references state

/-- not the list of the free ones, -/
@[simp] theorem setReferencedStates_freeTransportConnectionList (s : Server E S)
    (references : List (ParticipantPtr S)) (state : ParticipantState) :
    (setReferencedStates s references state).freeTransportConnectionList
      = s.freeTransportConnectionList :=
  setReferencedStates_frame (·.freeTransportConnectionList) (fun _ _ _ => rfl) s references state

/-- not the authoritative steps, -/
@[simp] theorem setReferencedStates_authoritativeSteps (s : Server E S)
    (references : List (ParticipantPtr S)) (state : ParticipantState) :
    (setReferencedStates s references state).game.authoritativeSteps
      = s.game.authoritativeSteps :=
  setReferencedStates_frame (·.game.authoritativeSteps) (fun _ _ _ => rfl) s references state

/-- not the number of participants, -/
@[simp] theorem setReferencedStates_participantCount (s : Server E S)
    (references : List (ParticipantPtr S)) (state : ParticipantState) :
    (setReferencedStates s references state).game.participants.participantCount
      = s.game.participants.participantCount :=
  setReferencedStates_frame (·.game.participants.participantCount) (fun _ _ _ => rfl) s
    references state

/-- not the list of the free participants, -/
@[simp] theorem setReferencedStates_freeList (s : Server E S)
    (references : List (ParticipantPtr S)) (state : ParticipantState) :
    (setReferencedStates s references state).game.participants.freeList
      = s.game.participants.freeList :=
  setReferencedStates_frame (·.game.participants.freeList) (fun _ _ _ => rfl) s references state

/-- and it is no event. -/
@[simp] theorem setReferencedStates_log (s : Server E S)
    (references : List (ParticipantPtr S)) (state : ParticipantState) :
    (setReferencedStates s references state).game.participants.log
      = s.game.participants.log :=
  setReferencedStates_frame (·.game.participants.log) (fun _ _ _ => rfl) s references state

/-- The referenced participants have the state, and the others are as before. -/
theorem participant_setReferencedStates (s : Server E S) (references : List (ParticipantPtr S))
    (state : ParticipantState) (j : ParticipantPtr S) :
    (setReferencedStates s references state).participant j
      = if j ∈ references then { s.participant j with state } else s.participant j := by
  induction references generalizing s with
  | nil => rfl
  | cons i rest ih =>
    show (setReferencedStates (s.setParticipant i { s.participant i with state }) rest
      state).participant j = _
    rw [ih, Server.participant_setParticipant]
    by_cases hij : i = j
    · subst hij
      simp
    · have hji : ¬j = i := fun h => hij h.symm
      simp [hij, hji]

/-! ### Storing predicted steps -/

/-- A property that survives the storing of one step of a participant that the party
references, and the counting of the party's steps. -/
structure StoreRule (p : PartyPtr S) (inv : Server E S → Prop) : Prop where
  single : ∀ s i stepId inStream, inv s → i ∈ (s.party p).participantReferences →
    inv (nimbleServerParticipantDeserializeSingleStep s i stepId inStream).2.2
  note : ∀ s steps total, inv s →
    inv (s.setParty p (noteAddedSteps (s.party p) (E := E) steps total))

/-- What a party notes about added steps leaves everything but the counters alone. -/
theorem noteAddedSteps_participantReferences (self : LocalParty S) (steps : E.Steps)
    (total : Nat) :
    (noteAddedSteps self steps total).participantReferences = self.participantReferences := by
  unfold noteAddedSteps
  dsimp only
  split
  · split
    · rfl
    · rfl
  · rfl

/-- A party stays used, or unused, when it notes added steps. -/
theorem noteAddedSteps_isUsed (self : LocalParty S) (steps : E.Steps) (total : Nat) :
    (noteAddedSteps self steps total).isUsed = self.isUsed := by
  unfold noteAddedSteps
  dsimp only
  split
  · split
    · rfl
    · rfl
  · rfl

/-- Storing one step touches no party. -/
theorem party_deserializeSingleStep (s : Server E S) (i : ParticipantPtr S) (stepId : StepId)
    (inStream : InStream) (p : PartyPtr S) :
    (nimbleServerParticipantDeserializeSingleStep s i stepId inStream).2.2.party p
      = s.party p := by
  unfold nimbleServerParticipantDeserializeSingleStep
  dsimp only
  split
  · rfl
  · rfl

/-- A property that survives the steps of one participant, and what the party then notes
about them. The steps can end in an error, and then nothing is noted. -/
structure StoreRoundRule (p : PartyPtr S) (inv : Server E S → Prop) : Prop where
  read : ∀ s i firstStepId count inStream, inv s → i ∈ (s.party p).participantReferences →
    inv (deserializeStepsOfParticipant i firstStepId count 0 0 inStream s).2.2
  noted : ∀ s i firstStepId count inStream total rest s', inv s →
    i ∈ (s.party p).participantReferences →
    deserializeStepsOfParticipant i firstStepId count 0 0 inStream s = (.ok total, rest, s') →
    inv (s'.setParty p (noteAddedSteps (s'.party p) (s'.participant i).steps total))

namespace StoreRoundRule

variable {inv : Server E S → Prop} {p : PartyPtr S}

/-- The outer loop. Induction on the participants that remain. -/
theorem deserializePredictedStepsLoop (h : StoreRoundRule p inv)
    (uninitialized : Uninitialized S) :
    ∀ (remaining iterator : Nat) (inStream : InStream) (s : Server E S), inv s →
      inv (NimbleServer.deserializePredictedStepsLoop p uninitialized remaining iterator
        inStream s).2.2 := by
  intro remaining
  induction remaining with
  | zero =>
    intro iterator inStream s hs
    exact hs
  | succ remaining ih =>
    intro iterator inStream s hs
    simp only [NimbleServer.deserializePredictedStepsLoop]
    split
    · exact hs
    · -- Only a participant that the party references is stored for, which is what the rule asks.
      rename_i i href
      have hi := List.mem_of_getElem? href
      split
      · exact hs
      · rename_i firstStepId stepsThatFollow consumed _
        have hread := h.read s i firstStepId stepsThatFollow
          ((readInto E.fldInStreamReadUInt8 inStream
            (uninitialized.participantIndex iterator)).2.drop consumed) hs hi
        split
        · -- An error in the middle ends the request, and what was stored before it stays.
          rename_i heq
          rw [heq] at hread
          exact hread
        · rename_i heq
          exact ih _ _ _ (h.noted s i _ _ _ _ _ _ hs hi heq)

/-- A GameStep request stores steps for the party that is assigned to the connection. -/
theorem handleIncomingSteps (inv : Server E S → Prop) {s : Server E S} (hs : inv s)
    {t : ConnectionPtr}
    (h : ∀ p, (s.connection t).assignedParty = some p → StoreRoundRule p inv)
    (inStream : InStream) (uninitialized : Uninitialized S) :
    inv (nimbleServerHandleIncomingSteps s t inStream uninitialized).2.2 := by
  unfold nimbleServerHandleIncomingSteps
  split
  · exact hs
  · rename_i p hp
    split
    · exact hs
    · split
      · exact hs
      · rename_i consumed _
        have hread : inv (nimbleServerLocalPartyDeserializePredictedSteps s p
            (inStream.drop consumed) uninitialized).2.2 :=
          (h p hp).deserializePredictedStepsLoop uninitialized _ 0 _ s hs
        rcases hresult : nimbleServerLocalPartyDeserializePredictedSteps s p
          (inStream.drop consumed) uninitialized with ⟨code, rest, s1⟩
        rw [hresult] at hread
        dsimp only
        split
        · exact hread
        · exact hread

end StoreRoundRule

/-- The inner loop keeps what each step of a referenced participant keeps. Induction on the
steps that remain. -/
theorem deserializeStepsOfParticipant_keeps (inv : Server E S → Prop) {p : PartyPtr S}
    (hsingle : ∀ s i stepId inStream, inv s → i ∈ (s.party p).participantReferences →
      inv (nimbleServerParticipantDeserializeSingleStep s i stepId inStream).2.2)
    (i : ParticipantPtr S) (firstStepId : StepId) :
    ∀ (remaining index total : Nat) (inStream : InStream) (s : Server E S), inv s →
      i ∈ (s.party p).participantReferences →
      inv (deserializeStepsOfParticipant i firstStepId remaining index total inStream s).2.2 := by
  intro remaining
  induction remaining with
  | zero =>
    intro index total inStream s hs hi
    exact hs
  | succ remaining ih =>
    intro index total inStream s hs hi
    have hone := hsingle s i (firstStepId + UInt32.ofNat index) inStream hs hi
    simp only [deserializeStepsOfParticipant]
    split
    · exact hone
    · -- The reference is still there: storing a step does not change the party.
      refine ih _ _ _ _ hone ?_
      rw [party_deserializeSingleStep]
      exact hi

namespace StoreRule

variable {inv : Server E S → Prop} {p : PartyPtr S}

/-- A property that each single step keeps is kept by the steps of one participant. -/
theorem roundRule (h : StoreRule p inv) : StoreRoundRule p inv where
  read := fun s i firstStepId count inStream hs hi =>
    deserializeStepsOfParticipant_keeps inv h.single i firstStepId count 0 0 inStream s hs hi
  noted := by
    intro s i firstStepId count inStream total rest s' hs hi hread
    have hinner := deserializeStepsOfParticipant_keeps inv h.single i firstStepId count 0 0
      inStream s hs hi
    rw [hread] at hinner
    exact h.note s' _ total hinner

/-- A GameStep request stores steps for the party that is assigned to the connection. -/
theorem handleIncomingSteps (inv : Server E S → Prop) {s : Server E S} (hs : inv s)
    {t : ConnectionPtr}
    (h : ∀ p, (s.connection t).assignedParty = some p → StoreRule p inv)
    (inStream : InStream) (uninitialized : Uninitialized S) :
    inv (nimbleServerHandleIncomingSteps s t inStream uninitialized).2.2 :=
  StoreRoundRule.handleIncomingSteps inv hs (fun p hp => (h p hp).roundRule) inStream
    uninitialized

end StoreRule

/-- The authoritative buffer after old steps were discarded, or left as it was. -/
def Discarded (steps steps' : E.Steps) : Prop :=
  steps' = steps ∨
    ∃ count, count ≤ E.stepsCount steps ∧ steps' = (E.nbsStepsDiscardCount steps count).2

/-- The first half of a GameStep command discards old authoritative steps. It ends there if
that fails, and otherwise stores the predicted steps. -/
theorem readIncomingSteps_cases (s : Server E S) (t : ConnectionPtr) (inStream : InStream)
    (uninitialized : Uninitialized S) :
    ∃ authoritativeSteps, Discarded s.game.authoritativeSteps authoritativeSteps ∧
      ((readIncomingSteps s t inStream uninitialized).2.2
          = { s with game := { s.game with authoritativeSteps } } ∨
        (readIncomingSteps s t inStream uninitialized).2.2
          = (nimbleServerHandleIncomingSteps { s with game := { s.game with authoritativeSteps } }
            t inStream uninitialized).2.2) := by
  have hdiscard : ∃ code authoritativeSteps,
      Discarded s.game.authoritativeSteps authoritativeSteps ∧
      discardAuthoritativeStepsIfBufferGettingFull s
        = (code, { s with game := { s.game with authoritativeSteps } }) := by
    simp only [discardAuthoritativeStepsIfBufferGettingFull]
    split
    · -- Discarding is only tried when the buffer is getting full.
      exact ⟨_, _, .inr ⟨_, Nat.sub_le _ _, rfl⟩, rfl⟩
    · exact ⟨0, s.game.authoritativeSteps, .inl rfl, rfl⟩
  obtain ⟨code, authoritativeSteps, hsteps, hdiscard⟩ := hdiscard
  refine ⟨authoritativeSteps, hsteps, ?_⟩
  simp only [readIncomingSteps, hdiscard]
  split
  · exact .inl rfl
  · exact .inr rfl

/-- A property that survives every change made while predicted steps are stored, for any
party. -/
structure StoreKeeps (inv : Server E S → Prop) : Prop where
  steps : ∀ s i steps, inv s → inv (s.setParticipant i { s.participant i with steps })
  counters : ∀ s p quality highestReceivedStepId stepsInBufferCount, inv s →
    inv (s.setParty p
      { s.party p with quality, highestReceivedStepId, stepsInBufferCount })
  log : ∀ s event, inv s →
    inv (s.setParticipants { s.game.participants with log := event :: s.game.participants.log })
  authoritativeSteps : ∀ s authoritativeSteps, inv s →
    inv { s with game := { s.game with authoritativeSteps } }

namespace StoreKeeps

variable {inv : Server E S → Prop}

/-- The changes of storing for any party are in particular those for one. -/
theorem storeRule (h : StoreKeeps inv) (p : PartyPtr S) : StoreRule p inv where
  single := by
    intro s i stepId inStream hs _
    rcases hread : E.nbsStepsInSerializeSinglePredictedStep inStream stepId
      (s.participant i).steps with ⟨added, consumed, steps⟩
    simp only [nimbleServerParticipantDeserializeSingleStep, hread]
    split
    · -- Only a step that was added is an event.
      exact h.log _ _ (h.steps s i steps hs)
    · exact h.steps s i steps hs
  note := by
    intro s steps total hs
    unfold noteAddedSteps
    split
    · dsimp only
      split
      · exact h.counters s p _ _ _ hs
      · exact h.counters s p _ (s.party p).highestReceivedStepId (s.party p).stepsInBufferCount hs
    · exact h.counters s p (s.party p).quality (s.party p).highestReceivedStepId
        (s.party p).stepsInBufferCount hs

/-- The whole first half of a GameStep command. -/
theorem readIncomingSteps (h : StoreKeeps inv) {s : Server E S} (hs : inv s)
    (t : ConnectionPtr) (inStream : InStream) (uninitialized : Uninitialized S) :
    inv (NimbleServer.readIncomingSteps s t inStream uninitialized).2.2 := by
  obtain ⟨steps, -, hread⟩ := readIncomingSteps_cases s t inStream uninitialized
  have hdiscard := h.authoritativeSteps s steps hs
  rcases hread with hread | hread
  · rw [hread]
    exact hdiscard
  · rw [hread]
    exact StoreRule.handleIncomingSteps inv hdiscard (fun p _ => h.storeRule p) inStream
      uninitialized

end StoreKeeps

/-! ### Composing a step -/

/-- Reading a participant's step either finds it or reports that the collection is empty. -/
inductive ReadOutcome (s : Server E S) (lookingFor : StepId) (i : ParticipantPtr S) :
    StepType × List UInt8 × Server E S → Prop
  | provided (p : PartyPtr S) (octets : List UInt8) (steps : E.Steps)
      (hparty : (s.participant i).inParty = some p)
      (hread : E.nbsStepsReadExactStepId (s.participant i).steps lookingFor
        = (.ok octets, steps)) :
      ReadOutcome s lookingFor i (.normal, octets,
        (s.setParticipant i { s.participant i with steps }).setParty p { s.party p with
          quality := nimbleServerConnectionQualityProvidedUsableStep (s.party p).quality })
  | missing (p : PartyPtr S) (steps : E.Steps)
      (hparty : (s.participant i).inParty = some p)
      (hread : E.nbsStepsReadExactStepId (s.participant i).steps lookingFor
        = (.error E.NimbleStepErrCollectionIsEmpty, steps)) :
      ReadOutcome s lookingFor i (.stepNotProvidedInTime, [],
        (s.setParticipant i { s.participant i with steps }).setParty p { s.party p with
          quality := nimbleServerConnectionQualityAddedForcedSteps (s.party p).quality 1 })

/-- These are all the ways to read a step. It stops for a participant without a party, and at any
error of the buffer other than that it is empty. -/
theorem readParticipantStep_ensures (s : Server E S) (lookingFor : StepId)
    (i : ParticipantPtr S) :
    Ensures (readParticipantStep s lookingFor i) (ReadOutcome s lookingFor i)
      (fun fault => (fault = .nullParty ∧ (s.participant i).inParty = none) ∨
        (fault = .stepsCorrupt ∧ ∃ code, code ≠ E.NimbleStepErrCollectionIsEmpty ∧
          (E.nbsStepsReadExactStepId (s.participant i).steps lookingFor).1 = .error code)) := by
  rcases hread : E.nbsStepsReadExactStepId (s.participant i).steps lookingFor with
    ⟨result, steps⟩
  simp only [readParticipantStep, hread]
  cases result with
  -- An empty buffer is no fault: the participant gets a forced step.
  | error code =>
    dsimp only
    split
    · rename_i hcode
      subst hcode
      split
      · rename_i hparty
        exact .inl ⟨rfl, hparty⟩
      · rename_i p hparty
        exact ReadOutcome.missing p steps hparty hread
    · rename_i hcode
      exact .inr ⟨rfl, code, hcode, rfl⟩
  | ok octets =>
    split
    · contradiction
    · rename_i hparty
      exact .inl ⟨rfl, hparty⟩
    · rename_i octets' p heq hparty
      cases heq
      exact ReadOutcome.provided p octets steps hparty hread

/-- A property that survives every change made while the entries of a step are composed. One
of them, destroying a participant, can stop the server. A null party stops it in a state
with the property. -/
structure ComposeStepRule (inv : Server E S → Prop) (fault : Fault → Prop) : Prop where
  steps : ∀ s i steps, inv s → inv (s.setParticipant i { s.participant i with steps })
  quality : ∀ s p quality, inv s → inv (s.setParty p { s.party p with quality })
  joined : ∀ s i, inv s → (s.participant i).isUsed = true →
    (s.participant i).state = .justJoined →
    inv (s.setParticipant i { s.participant i with state := .normal })
  left : ∀ s i, inv s → (s.participant i).isUsed = true → (s.participant i).state = .leaving →
    Ensures (nimbleServerParticipantsDestroy s.game.participants (s.participant i).id)
      (fun participants => inv (s.setParticipants participants)) fault
  nullParty : ∀ s i, inv s → (s.participant i).isUsed = true →
    (s.participant i).inParty = none → fault .nullParty
  stepsCorrupt : fault .stepsCorrupt

/-- A property that also survives that the composed step is written. -/
structure ComposeRule (inv : Server E S → Prop) (fault : Fault → Prop) : Prop
    extends ComposeStepRule inv fault where
  authoritativeSteps : ∀ s authoritativeSteps, inv s →
    inv { s with game := { s.game with authoritativeSteps } }
  log : ∀ s before stepId octets, inv s →
    inv (s.setParticipants { s.game.participants with
      log := .composed before stepId octets :: s.game.participants.log })

namespace ComposeStepRule

variable {inv : Server E S → Prop} {fault : Fault → Prop}

/-- Reading a step keeps the property, and the participant stays used. -/
theorem readParticipantStep (h : ComposeStepRule inv fault) {s : Server E S} (hs : inv s)
    (lookingFor : StepId) (i : ParticipantPtr S) (hused : (s.participant i).isUsed = true) :
    Ensures (NimbleServer.readParticipantStep s lookingFor i)
      (fun r => inv r.2.2 ∧ (r.2.2.participant i).isUsed = true) fault := by
  refine (readParticipantStep_ensures s lookingFor i).mono ?_ ?_
  · intro r hr
    cases hr with
    | provided p octets steps hparty hread =>
      refine ⟨?_, by simpa [Server.participant_setParticipant] using hused⟩
      exact h.quality (s.setParticipant i { s.participant i with steps }) p _
        (h.steps s i steps hs)
    | missing p steps hparty hread =>
      refine ⟨?_, by simpa [Server.participant_setParticipant] using hused⟩
      exact h.quality (s.setParticipant i { s.participant i with steps }) p _
        (h.steps s i steps hs)
  · rintro f (⟨rfl, hparty⟩ | ⟨rfl, -⟩)
    · exact h.nullParty s i hs hused hparty
    · exact h.stepsCorrupt

/-- A participant is used after the move, unless it left. -/
theorem moveParticipantState (h : ComposeStepRule inv fault) {s : Server E S} (hs : inv s)
    (i : ParticipantPtr S) (hused : (s.participant i).isUsed = true) (stepType : StepType) :
    Ensures (NimbleServer.moveParticipantState s i stepType)
      (fun r => inv r.2 ∧ (r.1 ≠ .left → (r.2.participant i).isUsed = true)) fault := by
  unfold NimbleServer.moveParticipantState
  split
  · exact ⟨hs, fun _ => hused⟩
  · rename_i hstate
    refine ⟨h.joined s i hs hused hstate, fun _ => ?_⟩
    simpa [Server.participant_setParticipant] using hused
  · -- A leaving participant is destroyed here, so nothing is said about it afterwards.
    rename_i hstate
    refine (h.left s i hs hused hstate).bind fun participants hp => ?_
    exact ⟨hp, fun hleft => absurd rfl hleft⟩
  · exact ⟨hs, fun _ => hused⟩
  · exact ⟨hs, fun _ => hused⟩

/-- The entry of one participant: its step is read, its state moves on, and the entry is
written. -/
theorem composeParticipant (h : ComposeStepRule inv fault) {s : Server E S} (hs : inv s)
    (lookingFor : StepId) (i : ParticipantPtr S) (hused : (s.participant i).isUsed = true)
    (stream : OutStream) :
    Ensures (NimbleServer.composeParticipant s lookingFor i stream) (fun r => inv r.2)
      fault := by
  unfold NimbleServer.composeParticipant
  refine (h.readParticipantStep hs lookingFor i hused).bind ?_
  rintro ⟨stepType, octets, s1⟩ ⟨hs1, hused1⟩
  refine (h.moveParticipantState hs1 i hused1 stepType).bind ?_
  rintro ⟨stepType', s2⟩ ⟨hs2, hused2⟩
  dsimp only at hused2 ⊢
  refine Ensures.bind_of (fun _ => True) ?_ fun partyId _ => hs2
  -- The party is only read for one that has just joined, and such a participant is still used.
  unfold partyIdToWrite
  split
  · rename_i hparty
    exact h.nullParty s2 i hs2 (hused2 (by decide)) hparty
  · trivial
  · trivial

/-- The walk over the slots. Induction on the slots that remain. -/
theorem composeParticipants (h : ComposeStepRule inv fault) (lookingFor : StepId) :
    ∀ (slots : List (ParticipantPtr S)) (stream : OutStream) (found : Nat) (s : Server E S),
      inv s → Ensures (NimbleServer.composeParticipants lookingFor slots stream found s)
        (fun r => inv r.2.2) fault := by
  intro slots
  induction slots with
  | nil =>
    intro stream found s hs
    exact hs
  | cons i rest ih =>
    intro stream found s hs
    simp only [NimbleServer.composeParticipants]
    split
    · -- A slot in use writes an entry. A write that fails ends the walk with what it changed.
      rename_i hused
      refine (h.composeParticipant hs lookingFor i hused stream).bind ?_
      rintro ⟨result, s1⟩ hs1
      cases result with
      | none => exact hs1
      | some stream => exact ih stream (found + 1) s1 hs1
    · exact ih stream found s hs

/-- One step, without its being written to the authoritative buffer. -/
theorem composeOneAuthoritativeStep (h : ComposeStepRule inv fault) {s : Server E S} (hs : inv s)
    (lookingFor : StepId) (maxLength : Nat) :
    Ensures (NimbleServer.composeOneAuthoritativeStep s lookingFor maxLength)
      (fun r => inv r.server) fault := by
  unfold NimbleServer.composeOneAuthoritativeStep
  refine (h.composeParticipants lookingFor _ _ _ s hs).bind ?_
  rintro ⟨result, found, s1⟩ hs1
  cases result with
  | none => exact hs1
  | some stream => exact hs1

end ComposeStepRule

/-- The rule for the compose loop: an invariant that every round keeps, and what is returned
when a round fails or no step is due. Induction on the bound of the loop. -/
theorem composeRounds_ensures (inv : Server E S → Prop) {post : Int × Server E S → Prop}
    {fault : Fault → Prop} (hdiverged : fault .composeDiverged)
    (hended : ∀ (written : Nat) (s : Server E S), inv s → post (written, s))
    (hround : ∀ s : Server E S, inv s →
      shouldAdvanceAuthoritative s.game.participants s.game.authoritativeSteps = true →
      Ensures (composeRound s)
        (fun r => inv r.2 ∧ ∀ code, r.1 = some code → post (code, r.2)) fault) (fuel : Nat) :
    ∀ (written : Nat) (s : Server E S), inv s →
      Ensures (composeRounds fuel written s) post fault := by
  induction fuel with
  | zero =>
    intro written s hs
    unfold composeRounds
    split
    · exact hdiverged
    · exact hended written s hs
  | succ fuel ih =>
    intro written s hs
    unfold composeRounds
    split
    · rename_i hadvance
      refine (hround s hs hadvance).bind ?_
      rintro ⟨result, s'⟩ ⟨hs', hfailed⟩
      cases result with
      | some code => exact hfailed code rfl
      | none => exact ih (written + 1) s' hs'
    · exact hended written s hs

namespace ComposeRule

variable {inv : Server E S → Prop} {fault : Fault → Prop}

/-- More stops can be allowed. -/
theorem mono (h : ComposeRule inv fault) {fault' : Fault → Prop}
    (hfault : ∀ f, fault f → fault' f) : ComposeRule inv fault' :=
  { h with
    left := fun s i hs hused hstate => (h.left s i hs hused hstate).mono (fun _ h => h) hfault
    nullParty := fun s i hs hused hnull => hfault _ (h.nullParty s i hs hused hnull)
    stepsCorrupt := hfault _ h.stepsCorrupt }

/-- A whole round of composing. -/
theorem composeRound (h : ComposeRule inv fault) {s : Server E S} (hs : inv s) :
    Ensures (NimbleServer.composeRound s) (fun r => inv r.2) fault := by
  unfold NimbleServer.composeRound
  refine (h.composeOneAuthoritativeStep hs _ _).bind ?_
  intro composed hcomposed
  split
  · exact hcomposed
  · exact hcomposed
  · have hwritten := h.authoritativeSteps composed.server
    dsimp only
    split
    · -- The step is an event only if the buffer took it.
      exact hwritten _ hcomposed
    · exact h.log _ _ _ _ (hwritten _ hcomposed)

/-- The whole loop. -/
theorem composeRounds (h : ComposeRule inv fault) (hdiverged : fault .composeDiverged)
    (fuel written : Nat) (s : Server E S) (hs : inv s) :
    Ensures (NimbleServer.composeRounds fuel written s) (fun r => inv r.2) fault :=
  composeRounds_ensures inv hdiverged (fun _ _ hs => hs)
    (fun _ hs _ => (h.composeRound hs).mono (fun _ hr => ⟨hr, fun _ _ => hr⟩) fun _ hf => hf)
    fuel written s hs

end ComposeRule

/-- A property that survives every change made while a step is composed, wherever the server
stops. -/
structure ComposeKeeps (inv : Server E S → Prop) (fault : Fault → Prop) : Prop
    extends StoreKeeps inv where
  joined : ∀ s i, inv s → (s.participant i).isUsed = true →
    (s.participant i).state = .justJoined →
    inv (s.setParticipant i { s.participant i with state := .normal })
  left : ∀ s i, inv s → (s.participant i).isUsed = true → (s.participant i).state = .leaving →
    Ensures (nimbleServerParticipantsDestroy s.game.participants (s.participant i).id)
      (fun participants => inv (s.setParticipants participants)) fault
  nullParty : fault .nullParty
  stepsCorrupt : fault .stepsCorrupt

/-- A property that survives every change of storing survives those changes of composing that
are of the same kind. -/
theorem StoreKeeps.composeRule {inv : Server E S → Prop} {fault : Fault → Prop}
    (h : StoreKeeps inv)
    (joined : ∀ s i, inv s → (s.participant i).isUsed = true →
      (s.participant i).state = .justJoined →
      inv (s.setParticipant i { s.participant i with state := .normal }))
    (left : ∀ s i, inv s → (s.participant i).isUsed = true →
      (s.participant i).state = .leaving →
      Ensures (nimbleServerParticipantsDestroy s.game.participants (s.participant i).id)
        (fun participants => inv (s.setParticipants participants)) fault)
    (nullParty : ∀ s i, inv s → (s.participant i).isUsed = true →
      (s.participant i).inParty = none → fault .nullParty)
    (stepsCorrupt : fault .stepsCorrupt) : ComposeRule inv fault where
  steps := h.steps
  quality := fun s p quality => h.counters s p quality (s.party p).highestReceivedStepId
    (s.party p).stepsInBufferCount
  joined := joined
  left := left
  authoritativeSteps := h.authoritativeSteps
  log := fun s before stepId octets => h.log s (.composed before stepId octets)
  nullParty := nullParty
  stepsCorrupt := stepsCorrupt

/-- A property that does not care where the server stops. -/
theorem ComposeKeeps.composeRule {inv : Server E S → Prop} {fault : Fault → Prop}
    (h : ComposeKeeps inv fault) : ComposeRule inv fault :=
  h.toStoreKeeps.composeRule h.joined h.left (fun _ _ _ _ _ => h.nullParty) h.stepsCorrupt

/-! ### What composing and storing leave alone -/

/-- The stops of composing. -/
def Fault.IsCompose (fault : Fault) : Prop :=
  fault = .nullParty ∨ fault = .stepsCorrupt ∨ fault = .participantCount ∨
    fault = .participantNotUsed ∨ fault = .illegalParticipantId ∨
    fault = .circularBufferOverwrite .participants

/-- Destroying a participant stops only in ways that composing can stop. -/
theorem nimbleServerParticipantsDestroy_fault (self : Participants E S) (id : UInt8) :
    Ensures (nimbleServerParticipantsDestroy self id) (fun _ => True) Fault.IsCompose := by
  unfold nimbleServerParticipantsDestroy nimbleServerCircularBufferWrite
  by_cases hcount : self.participantCount = 0
  · rw [if_pos hcount]
    exact .inr (.inr (.inl rfl))
  · rw [if_neg hcount]
    dsimp only
    split
    · split
      · exact .inr (.inr (.inr (.inl rfl)))
      · split
        · exact .inr (.inr (.inr (.inr (.inr rfl))))
        · trivial
    · exact .inr (.inr (.inr (.inr (.inl rfl))))

/-- Destroying a participant is not an event. -/
theorem nimbleServerParticipantsDestroy_log (self : Participants E S) (id : UInt8) :
    Ensures (nimbleServerParticipantsDestroy self id) (fun other => other.log = self.log)
      (fun _ => True) := by
  unfold nimbleServerParticipantsDestroy nimbleServerCircularBufferWrite
  by_cases hcount : self.participantCount = 0
  · rw [if_pos hcount]
    trivial
  · rw [if_neg hcount]
    dsimp only
    split
    · split
      · trivial
      · split
        · trivial
        · rfl
    · trivial

/-- A GameStep request stores steps and then composes, unless storing failed or the game is
frozen. -/
theorem readIncomingStepsAndCreateAuthoritativeSteps_ensures {inv : Server E S → Prop}
    {fault : Fault → Prop} {s : Server E S} {t : ConnectionPtr} {inStream : InStream}
    {uninitialized : Uninitialized S}
    (hread : inv (readIncomingSteps s t inStream uninitialized).2.2)
    (hcompose : ∀ s1, inv s1 →
      Ensures (nimbleServerComposeAuthoritativeSteps s1) (fun r => inv r.2) fault) :
    Ensures (readIncomingStepsAndCreateAuthoritativeSteps s t inStream uninitialized)
      (fun r => inv r.2.2) fault := by
  unfold readIncomingStepsAndCreateAuthoritativeSteps
  rcases hresult : readIncomingSteps s t inStream uninitialized with ⟨result, rest, s1⟩
  rw [hresult] at hread
  cases result with
  | error code => exact hread
  | ok waitingFor =>
    dsimp only
    split
    · exact hread
    · refine (hcompose s1 hread).bind ?_
      rintro ⟨advanceCount, s2⟩ hs2
      dsimp only
      split
      · exact hs2
      · exact hs2

/-- The parties of `s'` are those of `s`, apart from what is counted about their steps. The
transport connections are the same. -/
structure SameParties (s s' : Server E S) : Prop where
  id : ∀ p, (s'.party p).id = (s.party p).id
  isUsed : ∀ p, (s'.party p).isUsed = (s.party p).isUsed
  state : ∀ p, (s'.party p).state = (s.party p).state
  participantReferences : ∀ p,
    (s'.party p).participantReferences = (s.party p).participantReferences
  transportConnection : ∀ p,
    (s'.party p).transportConnection = (s.party p).transportConnection
  waitingForReconnectMaxTimer : ∀ p,
    (s'.party p).waitingForReconnectMaxTimer = (s.party p).waitingForReconnectMaxTimer
  impedingDisconnectCounter : ∀ p,
    (s'.party p).impedingDisconnectCounter = (s.party p).impedingDisconnectCounter
  partiesCount : s'.localParties.partiesCount = s.localParties.partiesCount
  transportConnections : s'.transportConnections = s.transportConnections
  freeTransportConnectionList :
    s'.freeTransportConnectionList = s.freeTransportConnectionList

namespace SameParties

/-- Every server has the parties of itself. -/
theorem refl (s : Server E S) : SameParties s s := by
  constructor <;> intros <;> rfl

/-- Two changes that keep the parties, one after the other. -/
theorem trans {s s' s'' : Server E S} (h : SameParties s s') (h' : SameParties s' s'') :
    SameParties s s'' where
  id := fun p => (h'.id p).trans (h.id p)
  isUsed := fun p => (h'.isUsed p).trans (h.isUsed p)
  state := fun p => (h'.state p).trans (h.state p)
  participantReferences := fun p =>
    (h'.participantReferences p).trans (h.participantReferences p)
  transportConnection := fun p => (h'.transportConnection p).trans (h.transportConnection p)
  waitingForReconnectMaxTimer := fun p =>
    (h'.waitingForReconnectMaxTimer p).trans (h.waitingForReconnectMaxTimer p)
  impedingDisconnectCounter := fun p =>
    (h'.impedingDisconnectCounter p).trans (h.impedingDisconnectCounter p)
  partiesCount := h'.partiesCount.trans h.partiesCount
  transportConnections := h'.transportConnections.trans h.transportConnections
  freeTransportConnectionList :=
    h'.freeTransportConnectionList.trans h.freeTransportConnectionList

/-- Each transport connection is the same. -/
theorem connection {s s' : Server E S} (h : SameParties s s') (c : ConnectionPtr) :
    s'.connection c = s.connection c := by
  unfold Server.connection
  rw [h.transportConnections]

/-- Assigning to a party what it was, with other counters, keeps the parties. -/
theorem setParty {s s' : Server E S} (h : SameParties s s') (p : PartyPtr S)
    (quality : ConnectionQuality) (highestReceivedStepId : StepId) (stepsInBufferCount : Nat) :
    SameParties s (s'.setParty p
      { s'.party p with quality, highestReceivedStepId, stepsInBufferCount }) := by
  have hparty : ∀ q, (s'.setParty p
      { s'.party p with quality, highestReceivedStepId, stepsInBufferCount }).party q
      = if p = q then { s'.party q with quality, highestReceivedStepId, stepsInBufferCount }
        else s'.party q := by
    intro q
    rw [Server.party_setParty]
    split
    · rename_i hpq
      subst hpq
      rfl
    · rfl
  constructor
  case partiesCount => exact h.partiesCount
  case transportConnections => exact h.transportConnections
  case freeTransportConnectionList => exact h.freeTransportConnectionList
  all_goals
    intro q
    rw [hparty]
    split
  -- The counters are not among the fields that are compared, so both branches read alike.
  case id.isTrue | id.isFalse => exact h.id q
  case isUsed.isTrue | isUsed.isFalse => exact h.isUsed q
  case state.isTrue | state.isFalse => exact h.state q
  case participantReferences.isTrue | participantReferences.isFalse =>
    exact h.participantReferences q
  case transportConnection.isTrue | transportConnection.isFalse =>
    exact h.transportConnection q
  case waitingForReconnectMaxTimer.isTrue | waitingForReconnectMaxTimer.isFalse =>
    exact h.waitingForReconnectMaxTimer q
  case impedingDisconnectCounter.isTrue | impedingDisconnectCounter.isFalse =>
    exact h.impedingDisconnectCounter q

/-- A change of the game keeps the parties. -/
theorem setGame {s s' : Server E S} (h : SameParties s s') (game : Game E S) :
    SameParties s { s' with game } where
  id := h.id
  isUsed := h.isUsed
  state := h.state
  participantReferences := h.participantReferences
  transportConnection := h.transportConnection
  waitingForReconnectMaxTimer := h.waitingForReconnectMaxTimer
  impedingDisconnectCounter := h.impedingDisconnectCounter
  partiesCount := h.partiesCount
  transportConnections := h.transportConnections
  freeTransportConnectionList := h.freeTransportConnectionList

/-- Being the same parties as before survives every change of storing and composing. -/
theorem composeKeeps (s : Server E S) : ComposeKeeps (SameParties s) Fault.IsCompose where
  steps := fun _ _ _ h => h.setGame _
  counters := fun _ p quality highest count h => h.setParty p quality highest count
  log := fun _ _ h => h.setGame _
  authoritativeSteps := fun _ _ h => h.setGame _
  joined := fun _ _ h _ _ => h.setGame _
  left := fun s' i h _ _ =>
    (nimbleServerParticipantsDestroy_fault s'.game.participants (s'.participant i).id).mono
      (fun _ _ => h.setGame _) (fun _ hf => hf)
  nullParty := .inl rfl
  stepsCorrupt := .inr (.inl rfl)

/-- A round of composing keeps the parties, -/
theorem of_composeRound (s : Server E S) :
    Ensures (composeRound s) (fun r => SameParties s r.2) Fault.IsCompose :=
  (composeKeeps s).composeRule.composeRound (refl s)

/-- so does reading the steps of a request, -/
theorem of_readIncomingSteps (s : Server E S) (t : ConnectionPtr) (inStream : InStream)
    (uninitialized : Uninitialized S) :
    SameParties s (readIncomingSteps s t inStream uninitialized).2.2 :=
  (composeKeeps s).readIncomingSteps (refl s) t inStream uninitialized

/-- and so does the request as a whole. -/
theorem of_readIncomingStepsAndCreateAuthoritativeSteps (s : Server E S) (t : ConnectionPtr)
    (inStream : InStream) (uninitialized : Uninitialized S) :
    Ensures (readIncomingStepsAndCreateAuthoritativeSteps s t inStream uninitialized)
      (fun r => SameParties s r.2.2)
      (fun fault => fault.IsCompose ∨ fault = .composeDiverged) := by
  refine readIncomingStepsAndCreateAuthoritativeSteps_ensures
    (of_readIncomingSteps s t inStream uninitialized) ?_
  intro s1 hs1
  exact ((composeKeeps s).composeRule.mono fun _ h => .inl h).composeRounds (.inr rfl) _ 0 s1 hs1

end SameParties

end NimbleServer
