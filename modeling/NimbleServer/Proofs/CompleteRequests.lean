import NimbleServer.Proofs.Feed
import NimbleServer.Proofs.Lookup

/-!
# `NimbleServer.Proofs.CompleteRequests`: requests that find all the octets they read

Some reads of the source do not look at their result. When the stream has ended, the variable
keeps what was on the stack before, and the code goes on with it. One call leaves an out
parameter unassigned although it returns success. This module says for each command when this
happens, and what a request does then:

* `gameStepComplete`: the participant count and the participant indices of a GameStep request
  are there, as far as the request is read.
* `joinAssigned`: a join request is not one that returns without a party.
* A download request has its request id.

A complete request does the same whatever the variables held before
(`handleCommand_of_defined`). For one that is not complete there are two contents of the
variables with different results: `zeroLocals` and `otherLocals`.
-/

set_option autoImplicit false

namespace NimbleServer

open NimbleServer.Lib

variable {E : External} {S : Setup}

/-- Contents of the local variables that differ from `zeroLocals` in all that is read. -/
def otherLocals (party : Option (PartyPtr S)) : Uninitialized S where
  clientTime := 1
  cmd := 1
  participantCount := 1
  participantIndex := fun _ => 255
  downloadClientRequestId := 1
  party := party
  createdParticipant := none

/-! ### Reads -/

/-- A read that succeeds does not look at the old content. -/
theorem readInto_of_some {α : Type} {read : InStream → Option α × Nat} {inStream : InStream}
    {value : α} {consumed : Nat} (h : read inStream = (some value, consumed)) (old : α) :
    readInto read inStream old = (value, inStream.drop consumed) := by
  unfold readInto
  rw [h]
  rfl

/-- An octet that cannot be read is missing: the stream has ended, and the variable keeps what
it held. -/
theorem readInto_of_none [hreads : LawfulInStreams E] {inStream : InStream}
    (h : (E.fldInStreamReadUInt8 inStream).1 = none) (old : UInt8) :
    inStream = [] ∧ readInto E.fldInStreamReadUInt8 inStream old = (old, []) := by
  obtain rfl : inStream = [] := by
    cases inStream with
    | nil => rfl
    | cons octet rest =>
      obtain ⟨value, consumed, -, hread⟩ := hreads.readUInt8_cons octet rest
      rw [hread] at h
      cases h
  refine ⟨rfl, ?_⟩
  unfold readInto
  rw [h, List.drop_nil]
  rfl

/-! ### Parties have at most one participant -/

/-- No party references more than one participant. -/
def ReferencesBounded (s : Server E S) : Prop :=
  ∀ p, (s.party p).participantReferences.length ≤ 1

namespace ReferencesBounded

variable {s s' : Server E S}

/-- The bound is one of the parties only. -/
theorem of_localParties (h : ReferencesBounded s)
    (hparties : s'.localParties = s.localParties) : ReferencesBounded s' := by
  intro p
  have hparty : s'.party p = s.party p := congrArg (LocalParties.get · p) hparties
  rw [hparty]
  exact h p

/-- One party is replaced by another with at most one participant. -/
theorem update (h : ReferencesBounded s) (p : PartyPtr S) {x : LocalParty S}
    (hs' : ∀ q, s'.party q = if p = q then x else s.party q)
    (hx : x.participantReferences.length ≤ 1) : ReferencesBounded s' := by
  intro q
  rw [hs']
  split
  · exact hx
  · exact h q

/-- A join creates a party for one participant. -/
theorem join {t : ConnectionPtr} {request : JoinGameRequest} {uninitialized : Uninitialized S}
    {r : Except Int (PartyPtr S) × Server E S} (h : ReferencesBounded s)
    (hr : JoinOutcome s t request uninitialized r) : ReferencesBounded r.2 := by
  cases hr with
  | noPlace code hplace => exact h
  | sessionFull code p hplace => exact h.update p (party_nameParty s p) (h p)
  | found p hcount hmatch => exact h.update p (party_assignParty s t p) (h p)
  | unassigned p q htype hfind hnamed hcount hpointer =>
    exact h.update p (party_assignParty s t p) (h p)
  | rejoined p htype hfind hnamed hcount => exact h.update p (party_rejoined s t p) (h p)
  -- The source passes on the one participant that was created.
  | created p i participants htype hfind hplace hjoin =>
    exact h.update p (fun q => party_created s t p q participants i) (Nat.le_refl 1)

/-- A tick takes references away at most. -/
theorem tick {p : PartyPtr S} (h : ReferencesBounded s) (hs' : TickOutcome s p s') :
    ReferencesBounded s' := by
  have hdissolve : ReferencesBounded (dissolveParty (advanceTimer s p) p) :=
    h.update p (party_dissolved s p) (Nat.zero_le 1)
  cases hs' with
  | unused hused => exact h
  | kept counter hused hstate hcounter =>
    exact h.update p (fun q => Server.party_setParty s p q _) (h p)
  | lost counter hused hstate hfailing =>
    exact h.update p (fun q => party_lost s p q counter) (h p)
  | waited hused hstate => exact h.update p (party_advanceTimer s p) (h p)
  | stale hused hstate => exact h
  | dissolved hused hstate hcount hconnection => exact hdissolve
  | disconnected t hused hstate hcount hconnection hfull => exact hdissolve.of_localParties rfl

/-- After a reset no party references anybody. -/
theorem reset (hparties : s'.localParties = nimbleServerLocalPartiesReset s.localParties) :
    ReferencesBounded s' := by
  intro p
  rw [party_of_reset hparties]
  exact Nat.zero_le 1

/-- A lost connection does not touch the references. -/
theorem disconnected (h : ReferencesBounded s) (t : ConnectionPtr) :
    Ensures (nimbleServerConnectionDisconnected s t) (fun r => ReferencesBounded r.2)
      (fun _ => True) := by
  refine (connectionDisconnected_ensures ReferencesBounded h t ?_).mono (fun _ h => h)
    (fun _ _ => trivial)
  intro p _ _
  exact h.update p (party_dropParty s t p) (h p)

end ReferencesBounded

/-- A party gets its references when it is created, for one player, or prepared, for the
first of its participants. -/
theorem referencesBounded_keeps :
    BindingKeeps (fun (_ : Server E S) _ => True) ReferencesBounded (fun _ => True) where
  sameParties := fun s s' h hs p => by
    rw [hs.participantReferences p]
    exact h p
  sameSlots := fun s s' h hs => h.of_localParties hs.localParties
  receive := fun s t h _ => h.of_localParties (receiveOnConnection_localParties s t)
  connect := fun s t request r h _ hr => h.of_localParties hr.localParties
  join := fun s t request uninitialized r h _ hr => h.join hr
  tick := fun s h _ => tickParties_ensures h (fun s p s' h hs' => h.tick hs')
    (fun _ _ _ _ _ => trivial)
  reInit := fun s stepId s' h _ hparties _ _ => ReferencesBounded.reset hparties
  migrate := fun s infos uninitialized h _ =>
    (nimbleServerHostMigration_ensures ReferencesBounded (ReferencesBounded.reset (s := s) rfl)
      (fun _ _ h => h.of_localParties rfl)
      (fun s p h _ => h.update p (party_nameParty s p) (h p))
      (fun s p participants i h _ => h.update p
        (fun q => party_prepareParty s p q participants i) (Nat.le_refl 1))
      infos uninitialized).mono (fun _ h => h) (fun _ _ => trivial)
  connected := fun s t h _ =>
    h.of_localParties (nimbleServerConnectionConnected_localParties s t)
  disconnected := fun s t h _ => h.disconnected t
  connectFault := fun _ _ _ _ => trivial
  joinFault := fun _ _ _ _ => trivial
  composeFault := fun _ _ => trivial
  downloadFault := trivial
  capacityFault := trivial

/-- A server that has just started has empty parties. -/
theorem Started.referencesBounded {s : Server E S} (h : Started s) : ReferencesBounded s := by
  intro p
  rw [h.party p]
  exact Nat.zero_le 1

/-- The states in the middle of a datagram are covered too. -/
theorem Handled.referencesBounded {start s : Server E S} {t : ConnectionPtr}
    (h : Handled start t s) (hstart : ReferencesBounded start) : ReferencesBounded s :=
  referencesBounded_keeps.reachable hstart (h.run.mono fun _ _ _ => trivial)

/-! ### The payload of a GameStep request -/

/-- The index octet of every announced participant is there, up to the point where the
request is read. A party without participants refuses whatever the index is. -/
def participantsComplete (p : PartyPtr S) : (remaining : Nat) → InStream → Server E S → Bool
  | 0, _, _ => true
  | remaining + 1, inStream, s =>
    match E.fldInStreamReadUInt8 inStream with
    -- The index is whatever the variable holds, which matters only if some index is legal.
    | (none, _) => (s.party p).participantReferences.isEmpty
    | (some participantIndex, consumed) =>
      match (s.party p).participantReferences[participantIndex.toNat]? with
      | none => true
      | some i =>
        match E.nbsStepsInSerializeHeader (inStream.drop consumed) with
        | .error _ => true
        | .ok (firstStepId, stepsThatFollow, headerConsumed) =>
          match deserializeStepsOfParticipant i firstStepId stepsThatFollow 0 0
              ((inStream.drop consumed).drop headerConsumed) s with
          | (.error _, _, _) => true
          | (.ok totalAddedStepsCount, inStream, s) =>
            participantsComplete p remaining inStream (s.setParty p
              (noteAddedSteps (s.party p) (s.participant i).steps totalAddedStepsCount))

/-- The participant count is there, and the participants are complete. -/
def stepsComplete (s : Server E S) (p : PartyPtr S) (inStream : InStream) : Bool :=
  match E.fldInStreamReadUInt8 inStream with
  | (none, _) => false
  | (some participantCount, consumed) =>
    participantsComplete p participantCount.toNat (inStream.drop consumed) s

/-- A GameStep request that gets as far as its payload has a complete one. -/
def gameStepComplete (s : Server E S) (t : ConnectionPtr) (inStream : InStream) : Bool :=
  match discardAuthoritativeStepsIfBufferGettingFull s with
  | (discardErr, s) =>
    if discardErr < 0 then true
    else
      match (s.connection t).assignedParty with
      | none => true
      | some p =>
        if (s.party p).state = .dissolved then true
        else
          match E.nbsPendingStepsInSerializeHeader inStream with
          | .error _ => true
          | .ok (_, _, consumed) => stepsComplete s p (inStream.drop consumed)

/-- Complete participants are read in the same way whatever the variable holds. Induction on
the participants that remain. -/
theorem deserializePredictedStepsLoop_of_complete (p : PartyPtr S)
    (uninitialized uninitialized' : Uninitialized S) :
    ∀ (remaining iterator : Nat) (inStream : InStream) (s : Server E S),
      participantsComplete p remaining inStream s = true →
      deserializePredictedStepsLoop p uninitialized remaining iterator inStream s
        = deserializePredictedStepsLoop p uninitialized' remaining iterator inStream s := by
  intro remaining
  induction remaining with
  | zero =>
    intro iterator inStream s _
    rfl
  | succ remaining ih =>
    intro iterator inStream s h
    unfold participantsComplete at h
    simp only [deserializePredictedStepsLoop]
    rcases hindex : E.fldInStreamReadUInt8 inStream with ⟨index | index, consumed⟩
    · -- Without an index octet the party has no participants, so any index is refused.
      rw [hindex] at h
      have hnone : (s.party p).participantReferences = [] := List.isEmpty_iff.mp h
      have hstream : ∀ old, (readInto E.fldInStreamReadUInt8 inStream old).2
          = inStream.drop consumed := by
        intro old
        unfold readInto
        rw [hindex]
      simp [hstream, hnone]
    · rw [hindex] at h
      rw [readInto_of_some hindex, readInto_of_some hindex]
      dsimp only at h ⊢
      cases hlookup : (s.party p).participantReferences[index.toNat]? with
      | none => rfl
      | some i =>
        rw [hlookup] at h
        dsimp only at h ⊢
        cases hheader : E.nbsStepsInSerializeHeader (inStream.drop consumed) with
        | error code => rfl
        | ok header =>
          obtain ⟨firstStepId, stepsThatFollow, headerConsumed⟩ := header
          rw [hheader] at h
          dsimp only at h ⊢
          rcases hread : deserializeStepsOfParticipant i firstStepId stepsThatFollow 0 0
            ((inStream.drop consumed).drop headerConsumed) s with ⟨result, rest, s1⟩
          rw [hread] at h
          cases result with
          -- What was read so far is the same for both, so the next participant starts at one
          -- state.
          | error code => rfl
          | ok total => exact ih (iterator + 1) rest _ h

/-- Storing steps does not change whom the party references. -/
theorem participantReferences_storeRule (p : PartyPtr S) (count : Nat) :
    StoreRule p
      (fun s : Server E S => (s.party p).participantReferences.length ≤ count) where
  single := by
    intro s i stepId inStream h _
    rw [party_deserializeSingleStep]
    exact h
  note := by
    intro s steps total h
    rw [Server.party_setParty, if_pos rfl, noteAddedSteps_participantReferences]
    exact h

/-- The next index octet is missing. Index 255 is refused, and index 0 is that of a participant
whose header is not there. -/
theorem deserializePredictedStepsLoop_missingIndex [LawfulReaders E] [LawfulInStreams E]
    {p : PartyPtr S} (party : Option (PartyPtr S)) {inStream : InStream} {s : Server E S}
    (hmissing : (E.fldInStreamReadUInt8 inStream).1 = none)
    (hbound : (s.party p).participantReferences.length ≤ 1)
    (hsome : (s.party p).participantReferences ≠ []) (remaining iterator : Nat) :
    (deserializePredictedStepsLoop p (otherLocals party) (remaining + 1) iterator inStream s).1
        = -4 ∧
      (deserializePredictedStepsLoop p (zeroLocals S) (remaining + 1) iterator inStream s).1 < 0 ∧
      (deserializePredictedStepsLoop p (zeroLocals S) (remaining + 1) iterator inStream s).1
        ≠ -4 := by
  obtain ⟨code, hneg, hne, hnil⟩ := LawfulReaders.stepsHeader_nil (E := E)
  have hread : ∀ old, readInto E.fldInStreamReadUInt8 inStream old = (old, []) :=
    fun old => (readInto_of_none hmissing old).2
  obtain ⟨i, rest, hreferences⟩ := List.exists_cons_of_ne_nil hsome
  have hfirst : (s.party p).participantReferences[0]? = some i := by
    rw [hreferences]
    rfl
  have hlast : (s.party p).participantReferences[255]? = none :=
    List.getElem?_eq_none (by omega)
  simp [deserializePredictedStepsLoop, hread, zeroLocals, otherLocals, hfirst, hlast, hnil, hneg,
    hne]

/-- Where an index octet is missing, index 255 is refused and index 0 is followed by a header
that is not there. Induction on the participants that remain. -/
theorem deserializePredictedStepsLoop_of_incomplete [LawfulReaders E] [LawfulInStreams E]
    (p : PartyPtr S) (party : Option (PartyPtr S)) :
    ∀ (remaining iterator : Nat) (inStream : InStream) (s : Server E S),
      (s.party p).participantReferences.length ≤ 1 →
      participantsComplete p remaining inStream s = false →
      (deserializePredictedStepsLoop p (otherLocals party) remaining iterator inStream s).1
          = -4 ∧
        (deserializePredictedStepsLoop p (zeroLocals S) remaining iterator inStream s).1 < 0 ∧
        (deserializePredictedStepsLoop p (zeroLocals S) remaining iterator inStream s).1
          ≠ -4 := by
  intro remaining
  induction remaining with
  | zero =>
    intro iterator inStream s _ h
    cases h
  | succ remaining ih =>
    intro iterator inStream s hbound h
    unfold participantsComplete at h
    rcases hindex : E.fldInStreamReadUInt8 inStream with ⟨index | index, consumed⟩
    · rw [hindex] at h
      refine deserializePredictedStepsLoop_missingIndex party (congrArg Prod.fst hindex) hbound
        (fun hnil => ?_) remaining iterator
      simp [hnil] at h
    · rw [hindex] at h
      simp only [deserializePredictedStepsLoop]
      rw [readInto_of_some hindex, readInto_of_some hindex]
      dsimp only at h ⊢
      cases hlookup : (s.party p).participantReferences[index.toNat]? with
      | none =>
        rw [hlookup] at h
        cases h
      | some i =>
        rw [hlookup] at h
        dsimp only at h ⊢
        cases hheader : E.nbsStepsInSerializeHeader (inStream.drop consumed) with
        | error code =>
          rw [hheader] at h
          cases h
        | ok header =>
          obtain ⟨firstStepId, stepsThatFollow, headerConsumed⟩ := header
          rw [hheader] at h
          dsimp only at h ⊢
          rcases hread : deserializeStepsOfParticipant i firstStepId stepsThatFollow 0 0
            ((inStream.drop consumed).drop headerConsumed) s with ⟨result, rest, s1⟩
          rw [hread] at h
          cases result with
          | error code => cases h
          -- The steps of this participant are read, and the missing octet is further on.
          | ok total =>
            have hnoted := (participantReferences_storeRule p 1).roundRule.noted s i firstStepId
              stepsThatFollow _ total rest s1 hbound (List.mem_of_getElem? hlookup) hread
            exact ih (iterator + 1) rest _ hnoted h

/-- Discarding old authoritative steps leaves the parties alone. -/
theorem discard_localParties (s : Server E S) :
    (discardAuthoritativeStepsIfBufferGettingFull s).2.localParties = s.localParties := by
  simp only [discardAuthoritativeStepsIfBufferGettingFull]
  split
  · rfl
  · rfl

/-- A complete GameStep request is read in the same way whatever the variables hold. -/
theorem readIncomingSteps_of_complete {s : Server E S} {t : ConnectionPtr}
    {inStream : InStream} (h : gameStepComplete s t inStream = true)
    (uninitialized uninitialized' : Uninitialized S) :
    readIncomingSteps s t inStream uninitialized
      = readIncomingSteps s t inStream uninitialized' := by
  unfold gameStepComplete at h
  unfold readIncomingSteps
  rcases hresult : discardAuthoritativeStepsIfBufferGettingFull s with ⟨discardErr, s1⟩
  rw [hresult] at h
  dsimp only at h ⊢
  by_cases hdiscard : discardErr < 0
  · rw [if_pos hdiscard, if_pos hdiscard]
  rw [if_neg hdiscard] at h ⊢
  rw [if_neg hdiscard]
  unfold nimbleServerHandleIncomingSteps
  cases hparty : (s1.connection t).assignedParty with
  | none => rfl
  | some p =>
    rw [hparty] at h
    dsimp only at h ⊢
    by_cases hdissolved : (s1.party p).state = .dissolved
    · rw [if_pos hdissolved, if_pos hdissolved]
    rw [if_neg hdissolved] at h ⊢
    rw [if_neg hdissolved]
    cases hheader : E.nbsPendingStepsInSerializeHeader inStream with
    | error code => rfl
    | ok header =>
      obtain ⟨stepId, mask, consumed⟩ := header
      rw [hheader] at h
      dsimp only at h ⊢
      have hsteps : nimbleServerLocalPartyDeserializePredictedSteps s1 p (inStream.drop consumed)
          uninitialized = nimbleServerLocalPartyDeserializePredictedSteps s1 p
            (inStream.drop consumed) uninitialized' := by
        unfold stepsComplete at h
        unfold nimbleServerLocalPartyDeserializePredictedSteps
        rcases hcount : E.fldInStreamReadUInt8 (inStream.drop consumed) with
          ⟨count | count, countConsumed⟩
        · -- The count is there, so only the indices are left.
          rw [hcount] at h
          cases h
        · rw [hcount] at h
          rw [readInto_of_some hcount, readInto_of_some hcount]
          exact deserializePredictedStepsLoop_of_complete p _ _ count.toNat 0 _ s1 h
      rw [hsteps]

/-- What a GameStep request without its count or one of its indices does: it is refused with
-4, or it is refused with another error, or it counts as one without participants. -/
theorem readIncomingSteps_of_incomplete [LawfulReaders E] [LawfulInStreams E]
    {s : Server E S} (hbounded : ReferencesBounded s) {t : ConnectionPtr} {inStream : InStream}
    (h : gameStepComplete s t inStream = false) (party : Option (PartyPtr S)) :
    (readIncomingSteps s t inStream (otherLocals party)).1 = .error (-4) ∧
      ((∃ code, code < 0 ∧ code ≠ -4 ∧
          (readIncomingSteps s t inStream (zeroLocals S)).1 = .error code) ∨
        ((∃ waitingFor, (readIncomingSteps s t inStream (zeroLocals S)).1 = .ok waitingFor) ∧
          (readIncomingSteps s t inStream (zeroLocals S)).2.1 = [])) := by
  unfold gameStepComplete at h
  unfold readIncomingSteps
  have hbounded1 := hbounded.of_localParties (discard_localParties s)
  rcases hresult : discardAuthoritativeStepsIfBufferGettingFull s with ⟨discardErr, s1⟩
  rw [hresult] at h hbounded1
  dsimp only at h hbounded1 ⊢
  by_cases hdiscard : discardErr < 0
  · rw [if_pos hdiscard] at h
    cases h
  rw [if_neg hdiscard] at h
  rw [if_neg hdiscard, if_neg hdiscard]
  unfold nimbleServerHandleIncomingSteps
  cases hparty : (s1.connection t).assignedParty with
  | none =>
    rw [hparty] at h
    cases h
  | some p =>
    rw [hparty] at h
    dsimp only at h ⊢
    by_cases hdissolved : (s1.party p).state = .dissolved
    · rw [if_pos hdissolved] at h
      cases h
    rw [if_neg hdissolved] at h
    rw [if_neg hdissolved, if_neg hdissolved]
    cases hheader : E.nbsPendingStepsInSerializeHeader inStream with
    | error code =>
      rw [hheader] at h
      cases h
    | ok header =>
      obtain ⟨stepId, mask, consumed⟩ := header
      rw [hheader] at h
      dsimp only at h ⊢
      unfold stepsComplete at h
      unfold nimbleServerLocalPartyDeserializePredictedSteps
      rcases hcount : E.fldInStreamReadUInt8 (inStream.drop consumed) with
        ⟨count | count, countConsumed⟩
      · -- The count is missing: it is 1 with an illegal index, or 0.
        have hread : ∀ old, readInto E.fldInStreamReadUInt8 (inStream.drop consumed) old
            = (old, []) :=
          fun old => (readInto_of_none (congrArg Prod.fst hcount) old).2
        have hlast : (s1.party p).participantReferences[255]? = none :=
          List.getElem?_eq_none (by have := hbounded1 p; omega)
        have hother : (deserializePredictedStepsLoop p (otherLocals party) 1 0 [] s1).1 = -4 := by
          have hnil : ∀ old, readInto E.fldInStreamReadUInt8 [] old = (old, []) := fun old =>
            (readInto_of_none LawfulInStreams.readUInt8_nil old).2
          simp [deserializePredictedStepsLoop, hnil, otherLocals, hlast]
        rw [hread, hread]
        have hrefused : (deserializePredictedStepsLoop p (otherLocals party)
            (otherLocals party).participantCount.toNat 0 [] s1).1 = -4 := hother
        dsimp only
        rw [hrefused]
        exact ⟨rfl, .inr ⟨⟨(stepId, mask), rfl⟩, rfl⟩⟩
      · -- The count is there, and one of the indices is missing.
        rw [hcount] at h
        obtain ⟨hother, hneg, hne⟩ := deserializePredictedStepsLoop_of_incomplete p party
          count.toNat 0 _ s1 (hbounded1 p) h
        rw [readInto_of_some hcount, readInto_of_some hcount]
        dsimp only
        rw [hother, if_pos hneg]
        exact ⟨rfl, .inl ⟨_, hneg, hne, rfl⟩⟩

/-- The empty GameStep request ends at its header, or before. -/
theorem readIncomingSteps_nil [LawfulReaders E] (s : Server E S) (t : ConnectionPtr) :
    ∃ code s', code < 0 ∧
      ∀ uninitialized, readIncomingSteps s t [] uninitialized = (.error code, [], s') := by
  obtain ⟨code, hneg, hnil⟩ := LawfulReaders.pendingHeader_nil (E := E)
  unfold readIncomingSteps
  rcases discardAuthoritativeStepsIfBufferGettingFull s with ⟨discardErr, s1⟩
  dsimp only
  by_cases hdiscard : discardErr < 0
  · exact ⟨discardErr, s1, hdiscard, fun _ => if_pos hdiscard⟩
  simp only [if_neg hdiscard, nimbleServerHandleIncomingSteps]
  cases (s1.connection t).assignedParty with
  | none => exact ⟨_, s1, by decide, fun _ => rfl⟩
  | some p =>
    dsimp only
    by_cases hdissolved : (s1.party p).state = .dissolved
    · exact ⟨_, s1, by decide, fun _ => if_pos hdissolved⟩
    · simp only [if_neg hdissolved, hnil]
      exact ⟨code, s1, hneg, fun _ => rfl⟩

/-! ### Errors that are not the server's own -/

section Codes

variable [LawfulReaders E]

/-- A round returns no error of its own, only that of a write. -/
theorem composeRound_ne (s : Server E S) :
    Ensures (composeRound s) (fun r => r.1 ≠ some (-4)) (fun _ => True) := by
  unfold composeRound
  refine Ensures.bind_of (fun _ => True) (.of_eq_ok fun _ _ => trivial) ?_
  intro composed _
  split
  · exact (by decide : (some (0 : Int)) ≠ some (-4))
  · exact (by decide : (some (0 : Int)) ≠ some (-4))
  · rename_i octets _ _
    have hwrite := LawfulReaders.write_ne composed.server.game.authoritativeSteps
      (E.expectedWriteId s.game.authoritativeSteps) octets
    dsimp only
    split
    · -- This is the only error that leaves a round.
      exact fun h => hwrite (Option.some.inj h)
    · exact (by decide : (none : Option Int) ≠ some (-4))

/-- The compose loop returns a count or the error of a write. -/
theorem composeRounds_ne (fuel written : Nat) (s : Server E S) :
    Ensures (composeRounds fuel written s) (fun r => r.1 ≠ -4) (fun _ => True) := by
  refine composeRounds_ensures (fun _ => True) trivial ?_ ?_ fuel written s trivial
  · intro written s _
    show (written : Int) ≠ -4
    omega
  · intro s _ _
    refine (composeRound_ne s).mono ?_ fun _ hf => hf
    intro r hr
    exact ⟨trivial, fun code hcode h => hr (hcode.trans (congrArg some h))⟩

/-- The error of the ranges is one of the library. -/
theorem stepRangesToSend_ne (s : Server E S) (t : ConnectionPtr) (stepId : StepId)
    (receiveMask : UInt64) : stepRangesToSend s t stepId receiveMask ≠ .error (-4) := by
  have hranges := LawfulReaders.ranges_ne (E := E) stepId
    (E.expectedWriteId s.game.authoritativeSteps) receiveMask 3 8
  simp only [stepRangesToSend]
  split
  · intro h
    cases h
  · cases hresult : E.nbsPendingStepsRanges stepId
        (E.expectedWriteId s.game.authoritativeSteps) receiveMask 3 8 with
    | error code =>
      rw [hresult] at hranges
      intro h
      cases h
      exact hranges rfl
    | ok ranges =>
      dsimp only
      split
      · intro h
        cases h
      · intro h
        cases h

/-- So is that of the response. -/
theorem sendStepRanges_ne (s : Server E S) (t : ConnectionPtr) (outStream : OutStream)
    (stepId : StepId) (receiveMask : UInt64) :
    (nimbleServerSendStepRanges s t outStream stepId receiveMask).1 ≠ -4 := by
  have hranges := stepRangesToSend_ne s t stepId receiveMask
  unfold nimbleServerSendStepRanges
  cases hresult : stepRangesToSend s t stepId receiveMask with
  | error code =>
    rw [hresult] at hranges
    exact fun h => hranges (congrArg Except.error h)
  | ok ranges =>
    dsimp only
    split
    · exact LawfulReaders.outStepHeader_ne _ _ _ _
    · exact LawfulReaders.outRanges_ne _ _ _

/-- What the two contents of the variables make of a GameStep request that is not complete:
one result is -4, and the other is not. -/
theorem reqGameStep_of_incomplete [LawfulInStreams E] {s : Server E S}
    (hbounded : ReferencesBounded s)
    {t : ConnectionPtr} {inStream : InStream} (h : gameStepComplete s t inStream = false)
    (outStream outStream' : OutStream) (party : Option (PartyPtr S)) :
    (∃ rest s', nimbleServerReqGameStep s t inStream outStream' (otherLocals party)
        = .ok (-4, rest, outStream', s')) ∧
      Ensures (nimbleServerReqGameStep s t inStream outStream (zeroLocals S))
        (fun r => r.1 ≠ -4 ∧ (0 ≤ r.1 → r.2.1 = [])) (fun _ => True) := by
  obtain ⟨hother, hzero⟩ := readIncomingSteps_of_incomplete hbounded h party
  unfold nimbleServerReqGameStep readIncomingStepsAndCreateAuthoritativeSteps
  rcases hread' : readIncomingSteps s t inStream (otherLocals party) with ⟨result', rest', s'⟩
  rcases hread : readIncomingSteps s t inStream (zeroLocals S) with ⟨result, rest, s1⟩
  rw [hread'] at hother
  rw [hread] at hzero
  cases hother
  refine ⟨⟨rest', s', rfl⟩, ?_⟩
  dsimp only at hzero ⊢
  rcases hzero with ⟨code, hneg, hne, rfl⟩ | ⟨⟨waitingFor, rfl⟩, rfl⟩
  · -- The variables held zero: the request is refused with another code, or it goes on as one
    -- without participants and has then read everything.
    exact ⟨hne, fun hcode => absurd hneg (by omega)⟩
  · dsimp only
    refine Ensures.bind_of (fun r => r.2.1 = [] ∧ r.1 ≠ .error (-4)) ?_ ?_
    · split
      · exact ⟨rfl, fun h => by cases h⟩
      · refine (composeRounds_ne _ 0 s1).bind ?_
        rintro ⟨advanceCount, s2⟩ hcount
        dsimp only
        split
        · refine ⟨rfl, fun h => hcount ?_⟩
          cases h
          rfl
        · exact ⟨rfl, fun h => by cases h⟩
    · rintro ⟨result, rest, s2⟩ ⟨hrest, hresult⟩
      cases result with
      | error code => exact ⟨fun h => hresult (congrArg Except.error h), fun _ => hrest⟩
      | ok waitingFor => exact ⟨sendStepRanges_ne s2 t outStream _ _, fun _ => hrest⟩

end Codes

/-! ### Join requests -/

/-- A join request does not return success without a party: it is not one from a connection
without a party that names, with a secret, a party of another number of participants. -/
def joinAssigned (s : Server E S) (t : ConnectionPtr) (inStream : InStream) : Bool :=
  match E.nimbleSerializeServerInJoinGameRequest inStream with
  | .error _ => true
  | .ok (request, _) =>
    match nimbleServerLocalPartiesFindPartyForTransport s
        (s.connection t).transportConnectionId with
    | .ok none =>
      -- The party exists, but the source compares the number of players and then does not assign.
      if h : request.joinGameType = .partySecret ∧
          request.partyId.toNat < S.maxConnectionCount then
        (s.party ⟨request.partyId.toNat, h.2⟩).participantReferences.length
          == request.playerCount
      else true
    | _ => true

/-- Where a party is assigned, the old contents of the pointer are not looked at. -/
theorem joinGame_of_assigned {s : Server E S} {t : ConnectionPtr} {request : JoinGameRequest}
    (h : ∀ s', joinLocalParty s t request ≠ .ok (.ok none, s'))
    (uninitialized uninitialized' : Uninitialized S) :
    joinGame s t request uninitialized = joinGame s t request uninitialized' := by
  unfold joinGame nimbleServerReadAndJoinParticipants
  cases hjoin : joinLocalParty s t request with
  | error fault => rfl
  | ok r =>
    obtain ⟨result, s1⟩ := r
    cases result with
    | error code => rfl
    | ok party =>
      cases party with
      | none => exact absurd hjoin (h s1)
      | some p => rfl

/-- A request for which the condition holds is refused or given a party. -/
theorem joinLocalParty_of_assigned {s : Server E S} {t : ConnectionPtr} {inStream : InStream}
    (h : joinAssigned s t inStream = true) {request : JoinGameRequest} {consumed : Nat}
    (hrequest : E.nimbleSerializeServerInJoinGameRequest inStream = .ok (request, consumed))
    (s' : Server E S) : joinLocalParty s t request ≠ .ok (.ok none, s') := by
  unfold joinAssigned at h
  rw [hrequest] at h
  dsimp only at h
  cases hfind : nimbleServerLocalPartiesFindPartyForTransport s
      (s.connection t).transportConnectionId with
  | error fault =>
    intro hjoin
    unfold joinLocalParty at hjoin
    rw [hfind] at hjoin
    cases hjoin
  | ok found =>
    cases found with
    | some p =>
      intro hjoin
      unfold joinLocalParty at hjoin
      rw [hfind] at hjoin
      cases hjoin
    | none =>
      rw [hfind] at h
      dsimp only at h
      cases htype : request.joinGameType with
      | partySecret =>
        rw [joinLocalParty_partySecret hfind htype]
        intro hjoin
        split at hjoin
        · -- The number of players is right, so the party is rejoined.
          rename_i hlt
          rw [dif_pos ⟨htype, hlt⟩, beq_iff_eq] at h
          rw [if_pos h] at hjoin
          cases hjoin
        · cases hjoin
      | noSecret =>
        -- A party is created, or the request is refused.
        intro hjoin
        unfold joinLocalParty at hjoin
        rw [hfind, htype] at hjoin
        obtain ⟨found, hfound, hcreate⟩ := bind_eq_ok.mp hjoin
        cases hfound
        obtain ⟨⟨result, s1⟩, -, hresult⟩ := bind_eq_ok.mp hcreate
        cases result with
        | error code => cases hresult
        | ok p => cases hresult

/-- Otherwise the call returns success and has not assigned a party. -/
theorem joinLocalParty_of_unassigned {s : Server E S} {t : ConnectionPtr} {inStream : InStream}
    (h : joinAssigned s t inStream = false) :
    ∃ (request : JoinGameRequest) (consumed : Nat) (p : PartyPtr S),
      E.nimbleSerializeServerInJoinGameRequest inStream = .ok (request, consumed) ∧
        p.val = request.partyId.toNat ∧ joinLocalParty s t request = .ok (.ok none, s) := by
  unfold joinAssigned at h
  cases hrequest : E.nimbleSerializeServerInJoinGameRequest inStream with
  | error code =>
    rw [hrequest] at h
    cases h
  | ok decoded =>
    obtain ⟨request, consumed⟩ := decoded
    rw [hrequest] at h
    dsimp only at h
    cases hfind : nimbleServerLocalPartiesFindPartyForTransport s
        (s.connection t).transportConnectionId with
    | error fault =>
      rw [hfind] at h
      cases h
    | ok found =>
      cases found with
      | some p =>
        rw [hfind] at h
        cases h
      | none =>
        rw [hfind] at h
        dsimp only at h
        split at h
        · rename_i hnamed
          refine ⟨request, consumed, ⟨request.partyId.toNat, hnamed.2⟩, rfl, rfl, ?_⟩
          rw [joinLocalParty_partySecret hfind hnamed.1, dif_pos hnamed.2,
            if_neg (by simpa using h)]
        · cases h

/-! ### Commands -/

/-- The command reads no variable that was not assigned. -/
def commandDefined (s : Server E S) (t : ConnectionPtr) (cmd : UInt8) (inStream : InStream) :
    Bool :=
  if cmd = E.NimbleSerializeCmdConnectRequest then true
  else if cmd = E.NimbleSerializeCmdGameStep then gameStepComplete s t inStream
  else if cmd = E.NimbleSerializeCmdJoinGameRequest then joinAssigned s t inStream
  else if cmd = E.NimbleSerializeCmdDownloadGameStateRequest then
    (E.fldInStreamReadUInt8 inStream).1.isSome
  else true

/-- The application and the time as they are, with other contents of the local variables. -/
def Environment.withLocals (environment : Environment S) (locals : Nat → Uninitialized S) :
    Environment S :=
  { environment with uninitialized := locals }

/-- Such a command does the same whatever the variables hold. -/
theorem handleCommand_of_defined {s : Server E S} {t : ConnectionPtr} {cmd : UInt8}
    {inStream : InStream} (h : commandDefined s t cmd inStream = true) (outStream : OutStream)
    (clientTime : UInt16) (environment : Environment S) (round : Nat)
    (locals locals' : Nat → Uninitialized S) :
    handleCommand s t cmd inStream outStream clientTime (environment.withLocals locals) round
      = handleCommand s t cmd inStream outStream clientTime (environment.withLocals locals')
        round := by
  unfold commandDefined at h
  unfold handleCommand
  -- The commands in the order in which the source compares them.
  by_cases hconnect : cmd = E.NimbleSerializeCmdConnectRequest
  · rw [if_pos hconnect, if_pos hconnect]
  rw [if_neg hconnect] at h
  rw [if_neg hconnect, if_neg hconnect]
  by_cases hstep : cmd = E.NimbleSerializeCmdGameStep
  · rw [if_pos hstep] at h
    rw [if_pos hstep, if_pos hstep]
    unfold nimbleServerReqGameStep readIncomingStepsAndCreateAuthoritativeSteps
    rw [readIncomingSteps_of_complete h ((environment.withLocals locals).uninitialized round)
      ((environment.withLocals locals').uninitialized round)]
  rw [if_neg hstep] at h
  rw [if_neg hstep, if_neg hstep]
  by_cases hjoin : cmd = E.NimbleSerializeCmdJoinGameRequest
  · rw [if_pos hjoin] at h
    rw [if_pos hjoin, if_pos hjoin]
    unfold nimbleServerReqGameJoin
    cases hrequest : E.nimbleSerializeServerInJoinGameRequest inStream with
    | error code => rfl
    | ok decoded =>
      obtain ⟨request, consumed⟩ := decoded
      dsimp only
      rw [joinGame_of_assigned (joinLocalParty_of_assigned h hrequest)
        ((environment.withLocals locals).uninitialized round)
        ((environment.withLocals locals').uninitialized round)]
  rw [if_neg hjoin] at h
  rw [if_neg hjoin, if_neg hjoin]
  by_cases hdownload : cmd = E.NimbleSerializeCmdDownloadGameStateRequest
  · rw [if_pos hdownload] at h
    rw [if_pos hdownload, if_pos hdownload]
    rcases hread : E.fldInStreamReadUInt8 inStream with ⟨requestId | requestId, consumed⟩
    · rw [hread] at h
      cases h
    · unfold nimbleServerReqDownloadGameState
      rw [readInto_of_some hread, readInto_of_some hread]
      rfl
  rw [if_neg hdownload, if_neg hdownload]

/-- A command at the very end of a datagram writes no reply: it is unknown, or it fails. What
it does depends on nothing that comes with it. -/
theorem handleCommand_nil [LawfulReaders E] [LawfulInStreams E] {s : Server E S}
    {t : ConnectionPtr} {cmd : UInt8}
    (h : commandDefined s t cmd [] = true) :
    (∀ outStream clientTime environment round,
        handleCommand s t cmd [] outStream clientTime environment round = .ok (none, s)) ∨
      ∃ code s', code < 0 ∧ ∀ outStream clientTime environment round,
        handleCommand s t cmd [] outStream clientTime environment round
          = .ok (some (code, [], outStream, []), s') := by
  unfold commandDefined at h
  unfold handleCommand
  -- No request can be read from an empty stream. The download is the exception, and reads a
  -- variable instead, which the hypothesis excludes.
  by_cases hconnect : cmd = E.NimbleSerializeCmdConnectRequest
  · obtain ⟨code, hnil⟩ := LawfulReaders.connectRequest_nil (E := E)
    refine .inr ⟨NimbleServerErrSerializeVersion, s, by decide, ?_⟩
    intro outStream clientTime environment round
    simp only [if_pos hconnect, nimbleServerReqConnect, hnil]
    rfl
  rw [if_neg hconnect] at h
  simp only [if_neg hconnect]
  by_cases hstep : cmd = E.NimbleSerializeCmdGameStep
  · obtain ⟨code, s', hneg, hread⟩ := readIncomingSteps_nil s t
    refine .inr ⟨code, s', hneg, ?_⟩
    intro outStream clientTime environment round
    simp only [if_pos hstep, nimbleServerReqGameStep,
      readIncomingStepsAndCreateAuthoritativeSteps, hread]
    rfl
  rw [if_neg hstep] at h
  simp only [if_neg hstep]
  by_cases hjoin : cmd = E.NimbleSerializeCmdJoinGameRequest
  · obtain ⟨code, hneg, hnil⟩ := LawfulReaders.joinGameRequest_nil (E := E)
    refine .inr ⟨code, s, hneg, ?_⟩
    intro outStream clientTime environment round
    simp only [if_pos hjoin, nimbleServerReqGameJoin, hnil]
    rfl
  rw [if_neg hjoin] at h
  simp only [if_neg hjoin]
  by_cases hdownload : cmd = E.NimbleSerializeCmdDownloadGameStateRequest
  · rw [if_pos hdownload, LawfulInStreams.readUInt8_nil] at h
    cases h
  · simp only [if_neg hdownload]
    exact .inl fun _ _ _ _ => rfl

end NimbleServer
