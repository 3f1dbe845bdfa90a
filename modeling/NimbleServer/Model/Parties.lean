import NimbleServer.Model.Participants

/-!
# `NimbleServer.Model.Parties`: local parties and their connection quality

`connection_quality.c`, `delayed_quality.c`, `participant_references.c`, `local_party.c` and
`local_parties.c`. A party is the group of participants that play on one client. It holds
pointers to them and to the client's transport connection, and the participants point back. A
function that follows such a pointer takes the whole server, which stands for the memory all
of them live in.

`nimbleServerLocalPartyDeserializePredictedSteps` reads a GameStep request participant by
participant and step by step. It can fail after any of them and then keeps what it stored
before; its loops return the server in the error case too.
-/

set_option autoImplicit false

namespace NimbleServer

open NimbleServer.Lib

variable {E : External} {S : Setup}

/-! ### connection_quality.c -/

/-- The quality of a connection that was not rated yet. -/
def nimbleServerConnectionQualityReset : ConnectionQuality where
  providedStepsInARow := 0
  forcedStepInRowCounter := 0
  hasAddedFirstAcceptedSteps := false
  addedStepsToBufferCounter := 0

/-- Before the first usable step a client has ten times as long. -/
def isFailingToProvideStepsInTime (self : ConnectionQuality) : Bool :=
  let forcedStepInRowCounterThreshold := if self.hasAddedFirstAcceptedSteps then 20 else 200
  decide (forcedStepInRowCounterThreshold ≤ self.forcedStepInRowCounter)

/-- Why a connection should be disconnected, if it should. -/
def evaluate (self : ConnectionQuality) : DisconnectReason :=
  if isFailingToProvideStepsInTime self then .notProvidingStepsInTime else .keep

/-- A step was there in time. -/
def nimbleServerConnectionQualityProvidedUsableStep (self : ConnectionQuality) :
    ConnectionQuality :=
  { forcedStepInRowCounter := 0
    providedStepsInARow := self.providedStepsInARow + 1
    hasAddedFirstAcceptedSteps := true
    addedStepsToBufferCounter := 0 }

/-- Steps arrived, in time or not. -/
def nimbleServerConnectionQualityAddedStepsToBuffer (self : ConnectionQuality) (count : Nat) :
    ConnectionQuality :=
  { self with addedStepsToBufferCounter := self.addedStepsToBufferCounter + count }

/-- Steps were composed without one of the client. -/
def nimbleServerConnectionQualityAddedForcedSteps (self : ConnectionQuality) (count : Nat) :
    ConnectionQuality :=
  { self with
      providedStepsInARow := 0
      forcedStepInRowCounter := self.forcedStepInRowCounter + count }

/-- Whether there is a reason to disconnect. -/
def nimbleServerConnectionQualityCheckIfShouldDisconnect (self : ConnectionQuality) : Bool :=
  evaluate self != .keep

/-! ### delayed_quality.c -/

/-- Whether the connection should be kept, and the new counter. -/
def nimbleServerConnectionQualityDelayedTick (impedingDisconnectCounter : Nat)
    (quality : ConnectionQuality) : Bool × Nat :=
  if nimbleServerConnectionQualityCheckIfShouldDisconnect quality then
    (!decide (180 < impedingDisconnectCounter + 1), impedingDisconnectCounter + 1)
  else
    -- The counter stops at zero.
    (true, impedingDisconnectCounter - 1)

/-! ### participant_references.c -/

/-- The first reference to a participant with this id. -/
def nimbleParticipantReferencesFind (s : Server E S) (self : List (ParticipantPtr S))
    (participantId : UInt8) : Option (ParticipantPtr S) :=
  self.find? fun i => (s.participant i).id == participantId

/-! ### local_party.c -/

/-- The references and the id are kept. -/
def nimbleServerLocalPartyReInit (self : LocalParty S)
    (transportConnection : Option ConnectionPtr) : LocalParty S :=
  { self with
      state := .normal
      quality := nimbleServerConnectionQualityReset
      impedingDisconnectCounter := 0
      transportConnection
      waitingForReconnectTimer := 0 }

/-- The party array is cleared before, so the fields that are not assigned are zero. -/
def nimbleServerLocalPartyInit (S : Setup) (id : UInt8) : LocalParty S :=
  nimbleServerLocalPartyReInit
    { id
      isUsed := false
      state := .normal
      participantReferences := []
      transportConnection := none
      waitingForReconnectTimer := 0
      waitingForReconnectMaxTimer := 62 * 20
      quality := nimbleServerConnectionQualityReset
      impedingDisconnectCounter := 0
      highestReceivedStepId := 0
      stepsInBufferCount := 0 }
    none

/-- The id, the state and the connection are kept. -/
def nimbleServerLocalPartyReset (self : LocalParty S) : LocalParty S :=
  { self with
      isUsed := false
      participantReferences := []
      waitingForReconnectTimer := 0
      quality := nimbleServerConnectionQualityReset
      impedingDisconnectCounter := 0 }

/-- The participants are not told. -/
def nimbleServerLocalPartyRejoin (self : LocalParty S) (transportConnection : ConnectionPtr) :
    LocalParty S :=
  nimbleServerLocalPartyReInit self (some transportConnection)

/-- Only the state is set. Removing the party is another call. -/
def nimbleServerLocalPartyDestroy (self : LocalParty S) : LocalParty S :=
  { self with state := .dissolved }

/-- Whether a reference leads to a participant with this id. -/
def nimbleServerLocalPartyHasParticipantId (s : Server E S) (self : LocalParty S)
    (participantId : UInt8) : Bool :=
  self.participantReferences.any fun i => (s.participant i).id == participantId

/-- Assigns a state to each participant of a list of references. -/
def setReferencedStates (s : Server E S) (references : List (ParticipantPtr S))
    (state : ParticipantState) : Server E S :=
  references.foldl (fun s i => s.setParticipant i { s.participant i with state }) s

/-- The party and all its participants wait. -/
def setToWaitingForReJoin (s : Server E S) (p : PartyPtr S) : Server E S :=
  setReferencedStates
    (s.setParty p { s.party p with state := .waitingForReJoin, waitingForReconnectTimer := 0 })
    (s.party p).participantReferences .waitingForRejoin

/-- Whether to go on waiting, and the party with its timer advanced. -/
def tickWaitingForReconnect (self : LocalParty S) : Bool × LocalParty S :=
  (decide (self.waitingForReconnectTimer + 1 < self.waitingForReconnectMaxTimer),
    { self with waitingForReconnectTimer := self.waitingForReconnectTimer + 1 })

/-- The state of the party is looked at again after the quality was rated. -/
def tickNormal (s : Server E S) (p : PartyPtr S) : Server E S :=
  let (shouldKeep, impedingDisconnectCounter) := nimbleServerConnectionQualityDelayedTick
    (s.party p).impedingDisconnectCounter (s.party p).quality
  let s := s.setParty p { s.party p with impedingDisconnectCounter }
  if !shouldKeep && (s.party p).state != .waitingForReJoin then setToWaitingForReJoin s p else s

/-- `false` when the party should be dissolved. -/
def nimbleServerLocalPartyTick (s : Server E S) (p : PartyPtr S) : Bool × Server E S :=
  match (s.party p).state with
  | .normal => (true, tickNormal s p)
  | .waitingForReJoin =>
    let (keepWaiting, party) := tickWaitingForReconnect (s.party p)
    (keepWaiting, s.setParty p party)
  | .dissolved => (true, s)

/-- `nimbleServerParticipantDeserializeSingleStep` of `participant.c`. A step that enters
the buffer is recorded in the history. -/
def nimbleServerParticipantDeserializeSingleStep (s : Server E S) (i : ParticipantPtr S)
    (stepId : StepId) (inStream : InStream) : Int × InStream × Server E S :=
  let (added, consumed, steps) :=
    E.nbsStepsInSerializeSinglePredictedStep inStream stepId (s.participant i).steps
  let s := s.setParticipant i { s.participant i with steps }
  let s := if 0 < added then
      s.setParticipants { s.game.participants with
        log := .stored i stepId steps :: s.game.participants.log }
    else s
  (added, inStream.drop consumed, s)

/-- The inner loop: the steps of one participant. Returns how many entered the buffer, or the
error of the first that could not be read. -/
def deserializeStepsOfParticipant (i : ParticipantPtr S) (firstStepId : StepId) :
    (remaining index totalAddedStepsCount : Nat) → InStream → Server E S →
      Except Int Nat × InStream × Server E S
  | 0, _, totalAddedStepsCount, inStream, s => (.ok totalAddedStepsCount, inStream, s)
  | remaining + 1, index, totalAddedStepsCount, inStream, s =>
    let stepId := firstStepId + UInt32.ofNat index
    let (addedStepsCount, inStream, s) :=
      nimbleServerParticipantDeserializeSingleStep s i stepId inStream
    if addedStepsCount < 0 then (.error addedStepsCount, inStream, s)
    else deserializeStepsOfParticipant i firstStepId remaining (index + 1)
      (totalAddedStepsCount + addedStepsCount.toNat) inStream s

/-- What the party notes after steps of a participant entered its buffer. -/
def noteAddedSteps (self : LocalParty S) (steps : E.Steps) (totalAddedStepsCount : Nat) :
    LocalParty S :=
  if totalAddedStepsCount > 0 then
    let self := { self with
      quality := nimbleServerConnectionQualityAddedStepsToBuffer self.quality
        totalAddedStepsCount }
    -- The subtraction wraps around for an empty buffer that starts at step 0.
    let receivedUpToStepId := E.expectedWriteId steps - 1
    if receivedUpToStepId > self.highestReceivedStepId then
      { self with
          highestReceivedStepId := receivedUpToStepId
          stepsInBufferCount := E.stepsCount steps }
    else self
  else self

/-- The outer loop: one round for each participant the request announces. -/
def deserializePredictedStepsLoop (p : PartyPtr S) (uninitialized : Uninitialized S) :
    (remaining participantIterator : Nat) → InStream → Server E S → Int × InStream × Server E S
  | 0, _, inStream, s => (0, inStream, s)
  | remaining + 1, participantIterator, inStream, s =>
    let (participantIndex, inStream) := readInto E.fldInStreamReadUInt8 inStream
      (uninitialized.participantIndex participantIterator)
    match (s.party p).participantReferences[participantIndex.toNat]? with
    -- The number in the request is an index into the references of the party.
    | none => (-4, inStream, s)
    | some i =>
      match E.nbsStepsInSerializeHeader inStream with
      | .error errorCode => (errorCode, inStream, s)
      | .ok (firstStepId, stepsThatFollow, consumed) =>
        match deserializeStepsOfParticipant i firstStepId stepsThatFollow 0 0
            (inStream.drop consumed) s with
        | (.error errorCode, inStream, s) => (errorCode, inStream, s)
        | (.ok totalAddedStepsCount, inStream, s) =>
          deserializePredictedStepsLoop p uninitialized remaining (participantIterator + 1)
            inStream (s.setParty p
              (noteAddedSteps (s.party p) (s.participant i).steps totalAddedStepsCount))

/-- The number of participants in the request is read without a check of the read. -/
def nimbleServerLocalPartyDeserializePredictedSteps (s : Server E S) (p : PartyPtr S)
    (inStream : InStream) (uninitialized : Uninitialized S) : Int × InStream × Server E S :=
  let (participantCount, inStream) :=
    readInto E.fldInStreamReadUInt8 inStream uninitialized.participantCount
  deserializePredictedStepsLoop p uninitialized participantCount.toNat 0 inStream s

/-! ### local_parties.c -/

/-- All parties are unused and numbered by their slots. -/
def nimbleServerLocalPartiesInit (S : Setup) : LocalParties S where
  parties := tabulate S.maxConnectionCount fun p =>
    nimbleServerLocalPartyInit S (UInt8.ofNat p.val)
  partiesCount := 0

/-- Every party is reset. `partiesCount` is left as it is. -/
def nimbleServerLocalPartiesReset (self : LocalParties S) : LocalParties S :=
  { self with parties := self.parties.map nimbleServerLocalPartyReset }

/-- The party slot with this number, in use or not. -/
def nimbleServerLocalPartiesFindParty (S : Setup) (partyId : UInt8) : Result (PartyPtr S) :=
  if h : partyId.toNat < S.maxConnectionCount then pure ⟨partyId.toNat, h⟩
  else throw .illegalPartyId

/-- A used party whose connection has the given id. -/
def isPartyForTransport (s : Server E S) (transportConnectionId : UInt8) (party : LocalParty S) :
    Bool :=
  party.isUsed && match party.transportConnection with
    | some c => (s.connection c).transportConnectionId == transportConnectionId
    | none => false

/-- The scan looks at the first `partiesCount` slots. -/
def findPartyForTransportFrom (s : Server E S) (transportConnectionId : UInt8) :
    (remaining index : Nat) → Result (Option (PartyPtr S))
  | 0, _ => pure none
  | remaining + 1, index =>
    if h : index < S.maxConnectionCount then
      if isPartyForTransport s transportConnectionId (s.party ⟨index, h⟩) then
        pure (some ⟨index, h⟩)
      else findPartyForTransportFrom s transportConnectionId remaining (index + 1)
    else throw .partyOutOfBounds

/-- The party of a connection. The scan trusts `partiesCount`. -/
def nimbleServerLocalPartiesFindPartyForTransport (s : Server E S)
    (transportConnectionId : UInt8) : Result (Option (PartyPtr S)) :=
  findPartyForTransportFrom s transportConnectionId s.localParties.partiesCount 0

/-- The first slot that is not used. -/
def firstFreeParty (s : Server E S) : Option (PartyPtr S) :=
  (List.finRange S.maxConnectionCount).find? fun p => !(s.party p).isUsed

/-- The slot that is found gets its id, also when it is not taken in the end. -/
def findFreePartyPlaceButDoNotReserveItYet (s : Server E S) :
    Option (PartyPtr S) × Server E S :=
  match firstFreeParty s with
  | some p => (some p, s.setParty p { s.party p with id := UInt8.ofNat p.val })
  | none => (none, s)

/-- The party is taken into use with the participants that were created for it. -/
def addParty (s : Server E S) (p : PartyPtr S) (transportConnection : Option ConnectionPtr)
    (createdParticipants : List (ParticipantPtr S)) : Server E S :=
  { s with localParties := { s.localParties.set p
      { nimbleServerLocalPartyReInit (s.party p) transportConnection with
          isUsed := true
          participantReferences := createdParticipants } with
    partiesCount := s.localParties.partiesCount + 1 } }

/-- Prepares the participants of one party, in order. Returns them, or the error of the first
that was refused. -/
def prepareParticipants (p : PartyPtr S) (stepId : StepId) :
    (participantIds : List UInt8) → (created : List (ParticipantPtr S)) → Participants E S →
      Result (Except Int (List (ParticipantPtr S)) × Participants E S)
  | [], created, participants => pure (.ok created, participants)
  | participantId :: participantIds, created, participants => do
    match ← nimbleServerParticipantsPrepare participants participantId p stepId with
    | (.error errorCode, participants) => return (.error errorCode, participants)
    | (.ok i, participants) =>
      prepareParticipants p stepId participantIds (created ++ [i]) participants

/-- The party references only the first participant, whatever their number. -/
def nimbleServerLocalPartiesPrepare (s : Server E S) (latestAuthoritativeStepId : StepId)
    (partyInfo : LocalPartyInfo) (uninitialized : Uninitialized S) :
    Result (Int × Server E S) := do
  match findFreePartyPlaceButDoNotReserveItYet s with
  | (none, s) => return (NimbleServerErrOutOfParticipantMemory, s)
  | (some p, s) =>
    match ← prepareParticipants p latestAuthoritativeStepId partyInfo.participantIds []
        s.game.participants with
    | (.error errorCode, participants) => return (errorCode, s.setParticipants participants)
    | (.ok created, participants) =>
      -- Without participant ids the pointer to the first one was never assigned.
      match created.head?.or uninitialized.createdParticipant with
      | none => throw .uninitializedPointer
      | some i =>
        let s := addParty (s.setParticipants participants) p none [i]
        return (0, s.setParty p { s.party p with
          isUsed := true, state := .waitingForReJoin, waitingForReconnectTimer := 0 })

/-- The error code of a refused party, or the new party. -/
def nimbleServerLocalPartiesCreate (s : Server E S) (transportConnection : ConnectionPtr)
    (joinInfo : List Nat) (latestAuthoritativeStepId : StepId) :
    Result (Except Int (PartyPtr S) × Server E S) := do
  match findFreePartyPlaceButDoNotReserveItYet s with
  | (none, s) => return (.error NimbleServerErrOutOfParticipantMemory, s)
  | (some p, s) =>
    match ← nimbleServerParticipantsJoin s.game.participants joinInfo p
        latestAuthoritativeStepId with
    | (.error errorCode, participants) =>
      return (.error errorCode, s.setParticipants participants)
    | (.ok i, participants) =>
      return (.ok p, addParty (s.setParticipants participants) p (some transportConnection) [i])

/-- The party is reset, and one fewer is counted. -/
def nimbleServerLocalPartiesRemove (s : Server E S) (p : PartyPtr S) : Result (Server E S) := do
  if !(s.party p).isUsed then throw .partyNotUsed
  if s.localParties.partiesCount = 0 then throw .partiesCount
  return { s with localParties := {
    s.localParties.set p (nimbleServerLocalPartyReset (s.party p)) with
    partiesCount := s.localParties.partiesCount - 1 } }

end NimbleServer
