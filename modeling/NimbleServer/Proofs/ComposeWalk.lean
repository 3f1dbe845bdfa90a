import NimbleServer.Proofs.Encoding
import NimbleServer.Proofs.Pool

/-!
# `NimbleServer.Proofs.ComposeWalk`: the walk over the participant slots

`StepRules` says what single changes composing is made of. Here is the walk of
`composeOneAuthoritativeStep` as a whole, for every pool that counts its participants
(`PoolCounted`) and for a buffer of any size. `composedEntry` is the entry of a participant,
`composedParticipant` is the participant afterwards and `composedQuality` the quality of a
party afterwards, all in terms of the state before the walk: reading one buffer does not
touch another, so nothing depends on how far the walk has come.

`composeParticipants_walk` is the result. The stream holds what `writeEntries` writes for the
entries, the walk ends early exactly when an entry cannot be started, and the slots that were
visited by then are composed (`WalkedTo`). `ComposeStops` lists why the walk can stop.
-/

set_option autoImplicit false

namespace NimbleServer

open NimbleServer.Lib

variable {E : External} {S : Setup}

/-! ### The step that a state is composed to -/

/-- The step the server looks for, if the participant's buffer has it. -/
def providedStep (x : Participant E S) (lookingFor : StepId) : Option (List UInt8) :=
  (E.nbsStepsReadExactStepId x.steps lookingFor).1.toOption

/-- The type of a participant's entry. Only a participant in a settled state is asked for its
step. -/
def composedType (x : Participant E S) (lookingFor : StepId) : StepType :=
  match x.state with
  | .waitingForRejoin => .waitingForReJoin
  | .justJoined => .joined
  | .leaving => .left
  | .normal | .destroyed =>
    if (providedStep x lookingFor).isSome then .normal else .stepNotProvidedInTime

/-- An entry is normal only if there was a step to put into it. -/
theorem isSome_of_composedType_normal {x : Participant E S} {lookingFor : StepId}
    (h : composedType x lookingFor = .normal) : (providedStep x lookingFor).isSome = true := by
  unfold composedType at h
  cases hstate : x.state with
  | waitingForRejoin | justJoined | leaving =>
    rw [hstate] at h
    cases h
  | normal | destroyed =>
    rw [hstate] at h
    dsimp only at h
    split at h
    · assumption
    · cases h

/-- The id of a participant's party. -/
def partyIdOf (s : Server E S) (x : Participant E S) : UInt8 :=
  (x.inParty.map fun p => (s.party p).id).getD 0

/-- The entry of the participant in a slot. -/
def composedEntry (s : Server E S) (lookingFor : StepId) (i : ParticipantPtr S) : StepEntry where
  participantId := (s.participant i).id
  content := entryContent (composedType (s.participant i) lookingFor)
    (partyIdOf s (s.participant i)) ((providedStep (s.participant i) lookingFor).getD [])

/-- The entries of the used slots of a list. -/
def composedEntries (s : Server E S) (lookingFor : StepId) (slots : List (ParticipantPtr S)) :
    List StepEntry :=
  (slots.filter fun i => (s.participant i).isUsed).map (composedEntry s lookingFor)

/-- The participant after its entry was composed. -/
def composedParticipant (x : Participant E S) (lookingFor : StepId) : Participant E S :=
  let read := { x with steps := (E.nbsStepsReadExactStepId x.steps lookingFor).2 }
  match x.state with
  | .justJoined => { read with state := .normal }
  | .leaving => nimbleServerParticipantDestroy read
  | .waitingForRejoin | .normal | .destroyed => read

/-- What a read of the participant's step tells the quality of its party. -/
def readQuality (x : Participant E S) (lookingFor : StepId) (quality : ConnectionQuality) :
    ConnectionQuality :=
  if (providedStep x lookingFor).isSome then
    nimbleServerConnectionQualityProvidedUsableStep quality
  else nimbleServerConnectionQualityAddedForcedSteps quality 1

/-- The quality of a party after the used slots of the list were composed. -/
def composedQuality (s : Server E S) (lookingFor : StepId) (slots : List (ParticipantPtr S))
    (p : PartyPtr S) : ConnectionQuality :=
  slots.foldl (fun quality i =>
    if (s.participant i).isUsed = true ∧ (s.participant i).inParty = some p then
      readQuality (s.participant i) lookingFor quality
    else quality) (s.party p).quality

/-- A used participant that is leaving is destroyed when it is composed. -/
def Participant.leaves (x : Participant E S) : Bool := x.isUsed && x.state == .leaving

/-- The number of participants that leave in the slots of a list. -/
def leavingCount (s : Server E S) (slots : List (ParticipantPtr S)) : Nat :=
  slots.countP fun i => (s.participant i).leaves

/-- Between the two states the used slots of the list were composed. -/
structure WalkedTo (lookingFor : StepId) (slots : List (ParticipantPtr S))
    (s s' : Server E S) : Prop where
  participant : ∀ j, s'.participant j
    = if j ∈ slots ∧ (s.participant j).isUsed = true then
        composedParticipant (s.participant j) lookingFor
      else s.participant j
  inParty : ∀ j ∈ slots, (s.participant j).isUsed = true →
    ∃ p, (s.participant j).inParty = some p
  parties : SameParties s s'
  quality : ∀ p, (s'.party p).quality = composedQuality s lookingFor slots p
  pool : PoolCounted s'.game.participants
  participantCount : s'.game.participants.participantCount + leavingCount s slots
    = s.game.participants.participantCount
  freeList : s'.game.participants.freeList.count
    = s.game.participants.freeList.count + leavingCount s slots
  log : s'.game.participants.log = s.game.participants.log
  authoritativeSteps : s'.game.authoritativeSteps = s.game.authoritativeSteps

/-- Why composing the used slots of a list can stop: a participant without a party, a read
that fails for another reason than an empty collection, or no room in the free list for the
participants that leave. -/
inductive ComposeStops (lookingFor : StepId) (slots : List (ParticipantPtr S))
    (s : Server E S) : Fault → Prop
  | nullParty (i : ParticipantPtr S) (hi : i ∈ slots)
      (hused : (s.participant i).isUsed = true) (hparty : (s.participant i).inParty = none) :
      ComposeStops lookingFor slots s .nullParty
  | stepsCorrupt (i : ParticipantPtr S) (hi : i ∈ slots)
      (hused : (s.participant i).isUsed = true) (code : Int)
      (hcode : code ≠ E.NimbleStepErrCollectionIsEmpty)
      (hread : (E.nbsStepsReadExactStepId (s.participant i).steps lookingFor).1 = .error code) :
      ComposeStops lookingFor slots s .stepsCorrupt
  | freeListFull (hfull : NIMBLE_SERVER_CIRCULAR_BUFFER_SIZE
        < s.game.participants.freeList.count + leavingCount s slots) :
      ComposeStops lookingFor slots s (.circularBufferOverwrite .participants)

/-! ### One participant -/

/-- The type that reading alone gives. -/
def readType (x : Participant E S) (lookingFor : StepId) : StepType :=
  if (providedStep x lookingFor).isSome then .normal else .stepNotProvidedInTime

/-- The server after a participant's step was read, where `p` is its party. -/
def readServer (s : Server E S) (lookingFor : StepId) (i : ParticipantPtr S) (p : PartyPtr S) :
    Server E S :=
  (s.setParticipant i { s.participant i with
    steps := (E.nbsStepsReadExactStepId (s.participant i).steps lookingFor).2 }).setParty p
      { s.party p with quality := readQuality (s.participant i) lookingFor (s.party p).quality }

/-- The participants after one of them was read. -/
theorem participant_readServer (s : Server E S) (lookingFor : StepId) (i : ParticipantPtr S)
    (p : PartyPtr S) (j : ParticipantPtr S) :
    (readServer s lookingFor i p).participant j
      = if i = j then { s.participant i with
          steps := (E.nbsStepsReadExactStepId (s.participant i).steps lookingFor).2 }
        else s.participant j :=
  Server.participant_setParticipant s i j _

/-- A read returns the step if there is one. -/
theorem readParticipantStep_walk (s : Server E S) (lookingFor : StepId) (i : ParticipantPtr S) :
    Ensures (readParticipantStep s lookingFor i)
      (fun r => ∃ p, (s.participant i).inParty = some p ∧
        r = (readType (s.participant i) lookingFor,
          (providedStep (s.participant i) lookingFor).getD [], readServer s lookingFor i p))
      (fun fault => (fault = .nullParty ∧ (s.participant i).inParty = none) ∨
        (fault = .stepsCorrupt ∧ ∃ code, code ≠ E.NimbleStepErrCollectionIsEmpty ∧
          (E.nbsStepsReadExactStepId (s.participant i).steps lookingFor).1 = .error code)) := by
  refine (readParticipantStep_ensures s lookingFor i).mono ?_ (fun _ h => h)
  intro r hr
  cases hr with
  | provided p octets steps hparty hread =>
    refine ⟨p, hparty, ?_⟩
    unfold readServer readType readQuality providedStep
    rw [hread]
    rfl
  -- An empty buffer also counts a forced step for the party.
  | missing p steps hparty hread =>
    refine ⟨p, hparty, ?_⟩
    unfold readServer readType readQuality providedStep
    rw [hread]
    rfl

/-- A single used participant counts if it is leaving. -/
theorem leavingCount_singleton {s : Server E S} {i : ParticipantPtr S}
    (hused : (s.participant i).isUsed = true) :
    leavingCount s [i] = if (s.participant i).state = .leaving then 1 else 0 := by
  simp [leavingCount, Participant.leaves, hused, List.countP_cons]

/-- What a change of the pool has to do for one participant, after its step was read. -/
theorem WalkedTo.of_read {s : Server E S} {lookingFor : StepId} {i : ParticipantPtr S}
    (hused : (s.participant i).isUsed = true) {p : PartyPtr S}
    (hparty : (s.participant i).inParty = some p) {pool : Participants E S}
    (hself : pool.get i = composedParticipant (s.participant i) lookingFor)
    (hothers : ∀ j, i ≠ j → pool.get j = s.participant j) (hpool : PoolCounted pool)
    (hcount : pool.participantCount + leavingCount s [i]
      = s.game.participants.participantCount)
    (hfree : pool.freeList.count = s.game.participants.freeList.count + leavingCount s [i])
    (hlog : pool.log = s.game.participants.log) :
    WalkedTo lookingFor [i] s ((readServer s lookingFor i p).setParticipants pool) where
  participant := by
    intro j
    show pool.get j = _
    by_cases hij : i = j
    · subst hij
      rw [if_pos ⟨List.mem_singleton_self i, hused⟩]
      exact hself
    · rw [if_neg (fun h => hij (List.mem_singleton.mp h.1).symm)]
      exact hothers j hij
  inParty := by
    intro j hj _
    rw [List.mem_singleton.mp hj]
    exact ⟨p, hparty⟩
  parties := (((SameParties.refl s).setGame _).setParty p _
    (s.party p).highestReceivedStepId (s.party p).stepsInBufferCount).setGame _
  quality := by
    intro q
    show ((readServer s lookingFor i p).party q).quality = if _ ∧ _ then _ else _
    unfold readServer
    rw [Server.party_setParty, hparty]
    -- Only the party of the participant notes the read.
    by_cases hpq : p = q
    · subst hpq
      rw [if_pos rfl, if_pos ⟨hused, rfl⟩]
    · rw [if_neg hpq, if_neg (fun h => hpq (Option.some.inj h.2))]
      rfl
  pool := hpool
  participantCount := hcount
  freeList := hfree
  log := hlog
  authoritativeSteps := rfl

section MoveState

variable {s : Server E S} (lookingFor : StepId) (i : ParticipantPtr S) (p : PartyPtr S)

/-- The participant that was read, -/
theorem participant_readServer_self : (readServer s lookingFor i p).participant i
    = { s.participant i with
      steps := (E.nbsStepsReadExactStepId (s.participant i).steps lookingFor).2 } := by
  rw [participant_readServer, if_pos rfl]

/-- and the others. -/
theorem participant_readServer_ne {j : ParticipantPtr S} (hij : i ≠ j) :
    (readServer s lookingFor i p).participant j = s.participant j := by
  rw [participant_readServer, if_neg hij]

/-- A read changes no state. -/
theorem state_readServer (j : ParticipantPtr S) :
    ((readServer s lookingFor i p).participant j).state = (s.participant j).state := by
  rw [participant_readServer]
  split
  · rename_i hij
    rw [← hij]
  · rfl

/-- A read does not touch what the pool counts. -/
theorem PoolCounted.readServer (h : PoolCounted s.game.participants) :
    PoolCounted (NimbleServer.readServer s lookingFor i p).game.participants :=
  h.of_same (.set s.game.participants i rfl rfl) fun j hj =>
    (state_readServer lookingFor i p j).symm.trans hj

variable {lookingFor i p} (hpool : PoolCounted s.game.participants) (hused : (s.participant i).isUsed = true)
  (hparty : (s.participant i).inParty = some p)
include hpool hused hparty

/-- Without a change of state the participant is what reading left. -/
theorem stays_walk (hstays : (s.participant i).state ≠ .leaving)
    (hcomposed : (readServer s lookingFor i p).participant i
      = composedParticipant (s.participant i) lookingFor) :
    WalkedTo lookingFor [i] s (readServer s lookingFor i p) := by
  have hleaving := leavingCount_singleton hused
  rw [if_neg hstays] at hleaving
  exact .of_read hused hparty hcomposed (fun j => participant_readServer_ne lookingFor i p)
    (hpool.readServer lookingFor i p) (by rw [hleaving]; rfl) (by rw [hleaving]; rfl) rfl

/-- A participant that has just joined is normal from now on. -/
theorem joined_walk (hjoined : (s.participant i).state = .justJoined) :
    WalkedTo lookingFor [i] s ((readServer s lookingFor i p).setParticipant i
      { (readServer s lookingFor i p).participant i with state := .normal }) := by
  have hleaving := leavingCount_singleton hused
  rw [hjoined, if_neg (by decide)] at hleaving
  refine .of_read hused hparty ?_ ?_ ((hpool.readServer lookingFor i p).of_same (.set _ i rfl rfl) ?_)
    (by rw [hleaving]; rfl) (by rw [hleaving]; rfl) rfl
  · rw [Participants.get_set_self, participant_readServer_self]
    simp only [composedParticipant, hjoined]
  · intro j hij
    rw [Participants.get_set_ne _ _ hij]
    exact participant_readServer_ne lookingFor i p hij
  · intro j hj
    rw [Participants.get_set] at hj
    split at hj
    · cases hj
    · exact hj

/-- The place of a participant that is leaving is given back, if there is room for it in the
free list. -/
theorem left_walk (hleaves : (s.participant i).state = .leaving) :
    Ensures (nimbleServerParticipantsDestroy (readServer s lookingFor i p).game.participants
        ((readServer s lookingFor i p).participant i).id)
      (fun pool => WalkedTo lookingFor [i] s ((readServer s lookingFor i p).setParticipants pool))
      (fun fault => fault = .circularBufferOverwrite .participants ∧
        NIMBLE_SERVER_CIRCULAR_BUFFER_SIZE
          < s.game.participants.freeList.count + leavingCount s [i]) := by
  have hleaving := leavingCount_singleton hused
  rw [hleaves, if_pos rfl] at hleaving
  have hread := hpool.readServer lookingFor i p
  have hused1 : ((readServer s lookingFor i p).game.participants.get i).isUsed = true := by
    show ((readServer s lookingFor i p).participant i).isUsed = true
    rw [participant_readServer_self]
    exact hused
  -- The slot that is destroyed is found by the id, so the id has to be that of the slot.
  have hid1 := hread.leavingId i hused1 ((state_readServer lookingFor i p i).trans hleaves)
  refine (hread.destroy hused1 hid1).mono ?_ ?_
  · rintro _ ⟨rfl, hfull⟩
    refine .of_read hused hparty ?_ ?_ (hread.destroyed hused1) ?_ ?_ rfl
    · rw [get_destroyedPool, if_pos rfl]
      show nimbleServerParticipantDestroy ((readServer s lookingFor i p).participant i) = _
      rw [participant_readServer_self]
      simp only [composedParticipant, hleaves]
    · intro j hij
      rw [get_destroyedPool, if_neg hij]
      exact participant_readServer_ne lookingFor i p hij
    · -- The count is positive, since this participant is counted, so it really goes down.
      have hpos : 0 < s.game.participants.usedCount := Participants.usedCount_pos hused
      have hcount := hpool.count
      show s.game.participants.participantCount - 1 + _ = _
      omega
    · rw [hleaving]
      exact Ring.count_push _ _ hfull
  · -- No room in the free list for the one that leaves.
    rintro fault ⟨rfl, hfull⟩
    have hcount : s.game.participants.freeList.count = NIMBLE_SERVER_CIRCULAR_BUFFER_SIZE :=
      (Ring.isFull_iff _).mp hfull
    exact ⟨rfl, by omega⟩

/-- The state of a participant is moved, and the type of its entry follows from it. -/
theorem moveParticipantState_walk :
    Ensures (moveParticipantState (readServer s lookingFor i p) i
        (readType (s.participant i) lookingFor))
      (fun r => r.1 = composedType (s.participant i) lookingFor ∧
        WalkedTo lookingFor [i] s r.2)
      (fun fault => fault = .circularBufferOverwrite .participants ∧
        NIMBLE_SERVER_CIRCULAR_BUFFER_SIZE
          < s.game.participants.freeList.count + leavingCount s [i]) := by
  have hself := participant_readServer_self (s := s) lookingFor i p
  unfold moveParticipantState
  rw [state_readServer]
  cases hold : (s.participant i).state with
  | waitingForRejoin =>
    refine ⟨by simp only [composedType, hold],
      stays_walk hpool hused hparty (by rw [hold]; decide) ?_⟩
    rw [hself]
    simp only [composedParticipant, hold]
  -- The join is announced once.
  | justJoined =>
    exact ⟨by simp only [composedType, hold], joined_walk hpool hused hparty hold⟩
  | leaving =>
    refine (left_walk hpool hused hparty hold).bind fun pool hwalked => ⟨?_, hwalked⟩
    simp only [composedType, hold]
  | normal | destroyed =>
    refine ⟨by simp only [composedType, hold]; rfl,
      stays_walk hpool hused hparty (by rw [hold]; decide) ?_⟩
    rw [hself]
    simp only [composedParticipant, hold]

end MoveState

/-- Only a participant that has just joined gets this type. -/
theorem state_of_composedType_joined {x : Participant E S} {lookingFor : StepId}
    (h : composedType x lookingFor = .joined) : x.state = .justJoined := by
  cases hold : x.state with
  | justJoined => rfl
  | waitingForRejoin | leaving => simp [composedType, hold] at h
  | normal | destroyed =>
    simp only [composedType, hold] at h
    split at h <;> cases h

/-- The content of the entry. The party id is looked at only for an entry of type joined, and
its participant has a party, because reading the step needed one. -/
theorem partyIdToWrite_walk {s s' : Server E S} {lookingFor : StepId} {i : ParticipantPtr S}
    {p : PartyPtr S} (hparty : (s.participant i).inParty = some p)
    (hself : s'.participant i = composedParticipant (s.participant i) lookingFor)
    (hid : (s'.party p).id = (s.party p).id) :
    Ensures (partyIdToWrite s' i (composedType (s.participant i) lookingFor))
      (fun partyId => entryContent (composedType (s.participant i) lookingFor) partyId
          ((providedStep (s.participant i) lookingFor).getD [])
        = (composedEntry s lookingFor i).content) (ComposeStops lookingFor [i] s) := by
  unfold composedEntry
  dsimp only
  cases htype : composedType (s.participant i) lookingFor with
  | joined =>
    have hin : (s'.participant i).inParty = some p := by
      rw [hself, ← hparty]
      simp only [composedParticipant, state_of_composedType_joined htype]
    unfold partyIdToWrite partyIdOf
    rw [hin, hparty]
    show entryContent .joined (s'.party p).id _ = _
    rw [hid]
    rfl
  | normal | stepNotProvidedInTime | waitingForReJoin | left =>
    unfold partyIdToWrite
    rfl

/-- Composing one used participant writes its entry. -/
theorem composeParticipant_walk [LawfulOutStreams E] {s : Server E S}
    (hpool : PoolCounted s.game.participants) (lookingFor : StepId) {i : ParticipantPtr S}
    (hused : (s.participant i).isUsed = true) {stream : OutStream}
    (hdebug : stream.writeDebugInfo = false) :
    Ensures (composeParticipant s lookingFor i stream)
      (fun r => r.1 = writeEntry E stream (composedEntry s lookingFor i) ∧
        WalkedTo lookingFor [i] s r.2)
      (ComposeStops lookingFor [i] s) := by
  have hi : i ∈ [i] := List.mem_singleton_self i
  unfold composeParticipant
  refine ((readParticipantStep_walk s lookingFor i).mono (fun _ h => h) ?_).bind ?_
  · rintro fault (⟨rfl, hparty⟩ | ⟨rfl, code, hcode, hread⟩)
    · exact .nullParty i hi hused hparty
    · exact .stepsCorrupt i hi hused code hcode hread
  rintro _ ⟨p, hparty, rfl⟩
  refine ((moveParticipantState_walk hpool hused hparty).mono (fun _ h => h) ?_).bind ?_
  · rintro fault ⟨rfl, hfull⟩
    exact .freeListFull hfull
  rintro ⟨stepType, s2⟩ ⟨htype, hwalked⟩
  dsimp only at htype hwalked
  subst htype
  have hself : s2.participant i = composedParticipant (s.participant i) lookingFor := by
    rw [hwalked.participant, if_pos ⟨hi, hused⟩]
  have hid : (s2.participant i).id = (s.participant i).id := by
    rw [hself]
    unfold composedParticipant
    cases (s.participant i).state <;> rfl
  refine (partyIdToWrite_walk hparty hself (hwalked.parties.id p)).bind ?_
  intro partyId hcontent
  refine ⟨?_, hwalked⟩
  show writeParticipantStep E stream (s2.participant i).id _ partyId _ = _
  rw [writeParticipantStep_eq hdebug, hid, hcontent]
  rfl

/-! ### The walk over the slots -/

namespace WalkedTo

variable {lookingFor : StepId} {i : ParticipantPtr S} {rest : List (ParticipantPtr S)}
  {s s1 s2 : Server E S}

/-- A walk over no slot changes nothing. -/
theorem nil (lookingFor : StepId) (hpool : PoolCounted s.game.participants) :
    WalkedTo lookingFor [] s s where
  participant := fun _ => (if_neg (fun h => by cases h.1)).symm
  inParty := by
    rintro j ⟨⟩
  parties := .refl s
  quality := fun _ => rfl
  pool := hpool
  participantCount := rfl
  freeList := rfl
  log := rfl
  authoritativeSteps := rfl

/-- A slot that is not used is passed over. -/
theorem skip (hused : ¬(s.participant i).isUsed = true) (h : WalkedTo lookingFor rest s s1) :
    WalkedTo lookingFor (i :: rest) s s1 where
  participant := by
    intro j
    rw [h.participant j]
    refine if_congr ⟨fun hj => ⟨List.mem_cons_of_mem i hj.1, hj.2⟩, fun hj => ?_⟩ rfl rfl
    rcases List.mem_cons.mp hj.1 with hji | hmem
    · exact absurd (hji ▸ hj.2) hused
    · exact ⟨hmem, hj.2⟩
  inParty := by
    intro j hj hj'
    rcases List.mem_cons.mp hj with rfl | hmem
    · exact absurd hj' hused
    · exact h.inParty j hmem hj'
  parties := h.parties
  quality := by
    intro p
    rw [h.quality p]
    unfold composedQuality
    rw [List.foldl_cons, if_neg (fun hi => hused hi.1)]
  pool := h.pool
  participantCount := by
    rw [← h.participantCount]
    simp [leavingCount, Participant.leaves, hused]
  freeList := by
    rw [h.freeList]
    simp [leavingCount, Participant.leaves, hused]
  log := h.log
  authoritativeSteps := h.authoritativeSteps

/-- Composing one slot does not touch the others. -/
theorem participant_of_notMem (h : WalkedTo lookingFor [i] s s1) (hi : i ∉ rest)
    {j : ParticipantPtr S} (hj : j ∈ rest) : s1.participant j = s.participant j := by
  rw [h.participant j, if_neg]
  rintro ⟨hji, -⟩
  rw [List.mem_singleton.mp hji] at hj
  exact hi hj

/-- Those who leave in the slots that follow are still leaving. -/
theorem leavingCount_eq (h : WalkedTo lookingFor [i] s s1) (hi : i ∉ rest) :
    leavingCount s (i :: rest) = leavingCount s [i] + leavingCount s1 rest := by
  have hrest : leavingCount s1 rest = leavingCount s rest :=
    List.countP_congr fun j hj => by rw [h.participant_of_notMem hi hj]
  rw [hrest]
  show ([i] ++ rest).countP _ = _
  exact List.countP_append

/-- A slot that was composed is not touched by the rest of the walk. -/
theorem cons (hi : i ∉ rest) (h : WalkedTo lookingFor [i] s s1)
    (h' : WalkedTo lookingFor rest s1 s2) : WalkedTo lookingFor (i :: rest) s s2 where
  participant := by
    intro j
    rw [h'.participant j, h.participant j]
    -- The slots are different, so what the first one became is not composed again.
    by_cases hji : j = i
    · subst hji
      rw [if_neg (fun hj => hi hj.1)]
      simp
    · simp [hji]
  inParty := by
    intro j hj hused
    rcases List.mem_cons.mp hj with rfl | hmem
    · exact h.inParty j (List.mem_singleton_self j) hused
    · have hsame := h.participant_of_notMem hi hmem
      rw [← hsame] at hused ⊢
      exact h'.inParty j hmem hused
  parties := h.parties.trans h'.parties
  quality := by
    intro p
    rw [h'.quality p]
    unfold composedQuality
    rw [h.quality p]
    refine List.foldl_ext _ _ _ fun quality j hj => ?_
    rw [h.participant_of_notMem hi hj]
  pool := h'.pool
  participantCount := by
    rw [h.leavingCount_eq hi, ← h.participantCount, ← h'.participantCount]
    omega
  freeList := by
    rw [h.leavingCount_eq hi, h'.freeList, h.freeList]
    omega
  log := h'.log.trans h.log
  authoritativeSteps := h'.authoritativeSteps.trans h.authoritativeSteps

/-- Composing one slot does not change the entries of the others. -/
theorem composedEntries_eq (h : WalkedTo lookingFor [i] s s1) (hi : i ∉ rest) :
    composedEntries s1 lookingFor rest = composedEntries s lookingFor rest := by
  have hparty : ∀ x, partyIdOf s1 x = partyIdOf s x := by
    intro x
    unfold partyIdOf
    simp only [h.parties.id]
  unfold composedEntries
  have hfilter : rest.filter (fun j => (s1.participant j).isUsed)
      = rest.filter fun j => (s.participant j).isUsed :=
    List.filter_congr fun j hj => by rw [h.participant_of_notMem hi hj]
  rw [hfilter]
  refine List.map_congr_left fun j hj => ?_
  unfold composedEntry
  rw [h.participant_of_notMem hi (List.mem_of_mem_filter hj), hparty]

end WalkedTo

/-- A used slot has an entry, which comes first, -/
theorem composedEntries_cons {s : Server E S} (lookingFor : StepId) {i : ParticipantPtr S}
    (hused : (s.participant i).isUsed = true) (rest : List (ParticipantPtr S)) :
    composedEntries s lookingFor (i :: rest)
      = composedEntry s lookingFor i :: composedEntries s lookingFor rest := by
  unfold composedEntries
  simp [hused]

/-- and a slot that is not used has none. -/
theorem composedEntries_skip {s : Server E S} (lookingFor : StepId) {i : ParticipantPtr S}
    (hused : ¬(s.participant i).isUsed = true) (rest : List (ParticipantPtr S)) :
    composedEntries s lookingFor (i :: rest) = composedEntries s lookingFor rest := by
  unfold composedEntries
  simp [hused]

namespace ComposeStops

variable {lookingFor : StepId} {slots slots' : List (ParticipantPtr S)} {s s1 : Server E S}
  {fault : Fault}

/-- More slots leave more reasons to stop. -/
theorem mono (h : ComposeStops lookingFor slots s fault) (hslots : slots.Sublist slots') :
    ComposeStops lookingFor slots' s fault := by
  cases h with
  | nullParty i hi hused hparty => exact .nullParty i (hslots.mem hi) hused hparty
  | stepsCorrupt i hi hused code hcode hread =>
    exact .stepsCorrupt i (hslots.mem hi) hused code hcode hread
  | freeListFull hfull =>
    have hle : leavingCount s slots ≤ leavingCount s slots' := hslots.countP_le
    exact .freeListFull (by omega)

/-- What stops the rest of the walk is there from the start. -/
theorem of_rest {i : ParticipantPtr S} {rest : List (ParticipantPtr S)}
    (hwalked : WalkedTo lookingFor [i] s s1) (hi : i ∉ rest)
    (h : ComposeStops lookingFor rest s1 fault) : ComposeStops lookingFor (i :: rest) s fault := by
  cases h with
  | nullParty j hj hused hparty =>
    have hsame := hwalked.participant_of_notMem hi hj
    rw [hsame] at hused hparty
    exact .nullParty j (List.mem_cons_of_mem i hj) hused hparty
  | stepsCorrupt j hj hused code hcode hread =>
    have hsame := hwalked.participant_of_notMem hi hj
    rw [hsame] at hused hread
    exact .stepsCorrupt j (List.mem_cons_of_mem i hj) hused code hcode hread
  | freeListFull hfull =>
    have hcount := hwalked.leavingCount_eq hi
    rw [hwalked.freeList] at hfull
    exact .freeListFull (by omega)

end ComposeStops

/-- How the walk ends: the stream has the entries, unless one of them could not be started,
and then the walk ended with the slot of that entry. -/
structure WalkEnded (lookingFor : StepId) (slots : List (ParticipantPtr S)) (stream : OutStream)
    (found : Nat) (s : Server E S) (r : Option OutStream × Nat × Server E S) : Prop where
  stream : r.1 = writeEntries E stream (composedEntries s lookingFor slots)
  visited : ∃ visited, visited <+: slots ∧ WalkedTo lookingFor visited s r.2.2 ∧
    r.2.1 = found + (composedEntries s lookingFor visited).length ∧
    (r.1 ≠ none → visited = slots) ∧
    (r.1 = none → ∃ i ∈ visited, (s.participant i).isUsed = true)

/-- The walk. Induction on the slots that remain. -/
theorem composeParticipants_walk [LawfulOutStreams E] (lookingFor : StepId) :
    ∀ (slots : List (ParticipantPtr S)) (stream : OutStream) (found : Nat) (s : Server E S),
      stream.writeDebugInfo = false → slots.Nodup → PoolCounted s.game.participants →
      Ensures (composeParticipants lookingFor slots stream found s)
        (WalkEnded lookingFor slots stream found s) (ComposeStops lookingFor slots s) := by
  intro slots
  induction slots with
  | nil =>
    intro stream found s _ _ hpool
    exact ⟨rfl, [], List.prefix_rfl, .nil lookingFor hpool, rfl, fun _ => rfl, by rintro ⟨⟩⟩
  | cons i rest ih =>
    intro stream found s hdebug hnodup hpool
    obtain ⟨hi, hrest⟩ := List.nodup_cons.mp hnodup
    unfold composeParticipants
    by_cases hused : (s.participant i).isUsed = true
    · rw [if_pos hused]
      -- A used slot: its entry, and then the walk over the rest in the state it leaves.
      refine ((composeParticipant_walk hpool lookingFor hused hdebug).mono (fun _ h => h)
        (fun _ h => h.mono (List.singleton_sublist.mpr List.mem_cons_self))).bind ?_
      rintro ⟨result, s1⟩ ⟨hresult, hwalked⟩
      have hentries : writeEntries E stream (composedEntries s lookingFor (i :: rest))
          = result.bind fun stream =>
            writeEntries E stream (composedEntries s1 lookingFor rest) := by
        rw [composedEntries_cons lookingFor hused, writeEntries_cons, ← hresult,
          hwalked.composedEntries_eq hi]
      cases result with
      | none =>
        -- The entry of this slot could not be started.
        refine ⟨hentries.symm, [i], ⟨rest, rfl⟩, hwalked, ?_, fun h => absurd rfl h,
          fun _ => ⟨i, List.mem_singleton_self i, hused⟩⟩
        rw [composedEntries_cons lookingFor hused]
        rfl
      | some stream' =>
        have hdebug' := (writeDebugInfo_writeEntry hresult.symm).trans hdebug
        refine (ih stream' (found + 1) s1 hdebug' hrest hwalked.pool).mono ?_
          (fun _ h => h.of_rest hwalked hi)
        rintro r ⟨hstream, visited, hvisited, hwalked', hfound, hall, hnone⟩
        have hi' : i ∉ visited := fun h => hi (hvisited.mem h)
        refine ⟨hstream.trans hentries.symm, i :: visited, (List.prefix_cons_inj i).mpr hvisited,
          hwalked.cons hi' hwalked', ?_, fun h => by rw [hall h],
          fun _ => ⟨i, List.mem_cons_self, hused⟩⟩
        rw [hfound, hwalked.composedEntries_eq hi', composedEntries_cons lookingFor hused,
          List.length_cons]
        omega
    · -- An unused slot changes nothing, and no entry is counted for it.
      rw [if_neg hused]
      refine (ih stream found s hdebug hrest hpool).mono ?_
        (fun _ h => h.mono (List.sublist_cons_self i rest))
      rintro r ⟨hstream, visited, hvisited, hwalked, hfound, hall, hnone⟩
      rw [← composedEntries_skip lookingFor hused rest] at hstream
      refine ⟨hstream, i :: visited, (List.prefix_cons_inj i).mpr hvisited, hwalked.skip hused,
        ?_, fun h => by rw [hall h], fun h => ?_⟩
      · rw [composedEntries_skip lookingFor hused, hfound]
      · obtain ⟨j, hj, husedj⟩ := hnone h
        exact ⟨j, List.mem_cons_of_mem i hj, husedj⟩

/-! ### One step -/

/-- The entries of all used participants. -/
def allEntries (s : Server E S) (lookingFor : StepId) : List StepEntry :=
  composedEntries s lookingFor (List.finRange S.maxParticipantCount)

/-- The header of a step counts its entries. -/
theorem length_allEntries {s : Server E S} (hpool : PoolCounted s.game.participants)
    (lookingFor : StepId) :
    (allEntries s lookingFor).length = s.game.participants.participantCount := by
  unfold allEntries composedEntries
  rw [List.length_map, hpool.count, Participants.usedCount_eq, List.countP_eq_length_filter]
  rfl

/-- The octets that are composed in a buffer of the given size: as much of the entries as
fits, and `none` if the buffer is full when an entry is due. -/
def composedOctets (s : Server E S) (lookingFor : StepId) (maxLength : Nat) :
    Option (List UInt8) :=
  writeRecords maxLength (writePart maxLength [] [UInt8.ofNat (allEntries s lookingFor).length])
    ((allEntries s lookingFor).map (entryRecord E))

/-- Any buffer has room for the header. -/
theorem composedOctets_eq (s : Server E S) (lookingFor : StepId) {maxLength : Nat}
    (h : 0 < maxLength) :
    composedOctets s lookingFor maxLength
      = writeRecords maxLength [UInt8.ofNat (allEntries s lookingFor).length]
        ((allEntries s lookingFor).map (entryRecord E)) := by
  have hheader : writePart maxLength [] [UInt8.ofNat (allEntries s lookingFor).length]
      = [UInt8.ofNat (allEntries s lookingFor).length] := if_pos h
  unfold composedOctets
  rw [hheader]

/-- The step is composed completely exactly if there is room for all of it. -/
theorem composedOctets_eq_encodeStep_iff (s : Server E S) (lookingFor : StepId)
    {maxLength : Nat} (h : 0 < maxLength) :
    composedOctets s lookingFor maxLength = some (encodeStep E (allEntries s lookingFor)) ↔
      1 + ((allEntries s lookingFor).map StepEntry.size).sum ≤ maxLength := by
  have hsymbols := flatMap_symbols_entryRecord (E := E) (allEntries s lookingFor)
  have hlength : (encodeStep E (allEntries s lookingFor)).length
      = 1 + (((allEntries s lookingFor).map (entryRecord E)).flatMap Record.symbols).length := by
    rw [hsymbols, Nat.add_comm]
    rfl
  have hencode : encodeStep E (allEntries s lookingFor)
      = [UInt8.ofNat (allEntries s lookingFor).length]
        ++ ((allEntries s lookingFor).map (entryRecord E)).flatMap Record.symbols := by
    rw [hsymbols]
    rfl
  -- The octets of the step are the header and the symbols of the records.
  rw [composedOctets_eq s lookingFor h, ← length_encodeStep (E := E), hlength, hencode]
  exact writeRecords_eq_append_iff h

/-- Composing fails exactly if the buffer is full when an entry is due. -/
theorem composedOctets_eq_none_iff (s : Server E S) (lookingFor : StepId) {maxLength : Nat}
    (h : 0 < maxLength) :
    composedOctets s lookingFor maxLength = none ↔
      FullBefore maxLength 1 ((allEntries s lookingFor).map (entryRecord E)) := by
  rw [composedOctets_eq s lookingFor h]
  exact writeRecords_eq_none_iff h

/-- What composing one step does, up to the slot whose entry could not be started if there is
one. -/
structure StepComposed (s : Server E S) (lookingFor : StepId) (maxLength : Nat)
    (r : ComposedStep E S) : Prop where
  octets : r.octets = composedOctets s lookingFor maxLength
  visited : ∃ visited, WalkedTo lookingFor visited s r.server ∧
    (r.octets = none → ∃ i ∈ visited, (s.participant i).isUsed = true) ∧
    (r.octets ≠ none → visited = List.finRange S.maxParticipantCount)
  closingAssertion : r.octets ≠ none → (r.closingAssertion = true ↔
    s.game.participants.participantCount = r.server.game.participants.participantCount)

/-- One step: the header is the number of used participants, and the walk goes over all slots. -/
theorem composeOneAuthoritativeStep_walk [hstreams : LawfulOutStreams E] {s : Server E S}
    (hpool : PoolCounted s.game.participants) (lookingFor : StepId) (maxLength : Nat) :
    Ensures (composeOneAuthoritativeStep s lookingFor maxLength)
      (StepComposed s lookingFor maxLength)
      (ComposeStops lookingFor (List.finRange S.maxParticipantCount) s) := by
  have hheader : (E.fldOutStreamWriteUInt8 (E.fldOutStreamInit maxLength)
      (UInt8.ofNat s.game.participants.participantCount)).2
      = ⟨writePart maxLength [] [UInt8.ofNat (allEntries s lookingFor).length], maxLength,
        false⟩ := by
    rw [length_allEntries hpool, hstreams.init_eq]
    exact snd_fldOutStreamWriteUInt8 [] maxLength _
  unfold composeOneAuthoritativeStep
  dsimp only
  rw [hheader]
  refine (composeParticipants_walk lookingFor _ _ 0 s rfl (List.nodup_finRange _) hpool).bind ?_
  rintro ⟨result, found, s'⟩ ⟨hstream, visited, -, hwalked, hfound, hall, hnone⟩
  have hoctets : composedOctets s lookingFor maxLength = result.map (·.octets) := by
    dsimp only at hstream
    rw [hstream]
    unfold writeEntries composedOctets allEntries
    rw [Option.map_map]
    exact (congrFun Option.map_id_fun _).symm
  cases result with
  | none =>
    exact ⟨hoctets.symm, ⟨visited, hwalked, fun _ => hnone rfl, fun h => absurd rfl h⟩,
      fun h => absurd rfl h⟩
  | some stream =>
    have hvisited := hall (by rintro ⟨⟩)
    refine ⟨hoctets.symm, ⟨visited, hwalked, by rintro ⟨⟩, fun _ => hvisited⟩, fun _ => ?_⟩
    -- The source compares the entries it found with the count after the walk.
    have hcount : found = s.game.participants.participantCount := by
      rw [← length_allEntries hpool lookingFor]
      dsimp only at hfound
      rw [hfound, hvisited, Nat.zero_add]
      rfl
    show (found == s'.game.participants.participantCount) = true ↔ _
    rw [hcount, beq_iff_eq]

end NimbleServer
