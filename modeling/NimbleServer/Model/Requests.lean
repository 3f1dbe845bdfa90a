import NimbleServer.Model.Connections

/-!
# `NimbleServer.Model.Requests`: joining the game and sending steps

`req_game_join.c`, `incoming_predicted_steps.c`, `req_step.c` and
`send_authoritative_steps.c`. The out parameter `outConnection` of `joinLocalParty` is a value
it returns. `none` is a call that returned success and did not assign it; the caller then
follows whatever the pointer held before.
-/

set_option autoImplicit false

namespace NimbleServer

open NimbleServer.Lib

variable {E : External} {S : Setup}

/-! ### req_game_join.c -/

/-- A connection that has a party is answered with it, whatever it asks for. Otherwise the request
names a party or asks for a new one. `none` in the result is the pointer that was not assigned. -/
def joinLocalParty (s : Server E S) (t : ConnectionPtr) (joinRequest : JoinGameRequest) :
    Result (Except Int (Option (PartyPtr S)) × Server E S) := do
  match ← nimbleServerLocalPartiesFindPartyForTransport s
      (s.connection t).transportConnectionId with
  | some p => return (.ok (some p), s)
  | none =>
    match joinRequest.joinGameType with
    | .partySecret =>
      -- `nimbleServerLocalPartiesFindParty` never returns null, so a request of this type
      -- does not go on to create a party. The session secret is not looked at.
      let p ← nimbleServerLocalPartiesFindParty S joinRequest.partyId
      if (s.party p).participantReferences.length ≠ joinRequest.playerCount then
        return (.ok none, s)
      else
        return (.ok (some p), s.setParty p (nimbleServerLocalPartyRejoin (s.party p) t))
    | .noSecret =>
      match ← nimbleServerLocalPartiesCreate s t joinRequest.players
          (E.expectedWriteId s.game.authoritativeSteps) with
      | (.error errorCode, s) => return (.error errorCode, s)
      | (.ok p, s) => return (.ok (some p), s)

/-- Passes on what `joinLocalParty` returns. -/
def nimbleServerReadAndJoinParticipants (s : Server E S) (t : ConnectionPtr)
    (request : JoinGameRequest) : Result (Except Int (Option (PartyPtr S)) × Server E S) :=
  joinLocalParty s t request

/-- The part of `nimbleServerReqGameJoin` between decoding the request and writing the
response: join, set the reconnect limit of the party, and assign the party to the
connection. Returns the party to answer with, or an error code. -/
def joinGame (s : Server E S) (t : ConnectionPtr) (request : JoinGameRequest)
    (uninitialized : Uninitialized S) : Result (Except Int (PartyPtr S) × Server E S) := do
  match ← nimbleServerReadAndJoinParticipants s t request with
  | (.error errorCode, s) => return (.error errorCode, s)
  | (.ok party, s) =>
    match party.or uninitialized.party with
    | none => throw .uninitializedPointer
    | some p =>
      let s := s.setParty p { s.party p with
        waitingForReconnectMaxTimer := S.maxWaitingForReconnectTicks }
      return (.ok p, s.setConnection t { s.connection t with assignedParty := some p })

/-- Every refusal is answered as if there were no room. -/
def nimbleServerReqGameJoin (s : Server E S) (t : ConnectionPtr) (inStream : InStream)
    (outStream : OutStream) (uninitialized : Uninitialized S) :
    Result (Int × InStream × OutStream × Server E S) := do
  match E.nimbleSerializeServerInJoinGameRequest inStream with
  | .error err => return (err, inStream, outStream, s)
  | .ok (request, consumed) =>
    match ← joinGame s t request uninitialized with
    | (.error errorCode, s) =>
      return (errorCode, inStream.drop consumed,
        E.nimbleSerializeServerOutJoinGameOutOfParticipantSlotsResponse outStream request.nonce,
        s)
    | (.ok p, s) =>
      return (0, inStream.drop consumed,
        E.nimbleSerializeServerOutJoinGameResponse outStream {
          partyId := (s.party p).id
          sessionSecret := s.sessionSecret
          participants := (s.party p).participantReferences.map fun i =>
            ((s.participant i).id, (s.participant i).localIndex) }, s)

/-! ### incoming_predicted_steps.c -/

/-- An error code, or the step the client waits for and its receive mask. -/
def nimbleServerHandleIncomingSteps (s : Server E S) (t : ConnectionPtr) (inStream : InStream)
    (uninitialized : Uninitialized S) :
    Except Int (StepId × UInt64) × InStream × Server E S :=
  match (s.connection t).assignedParty with
  | none => (.error NimbleServerErrSerialize, inStream, s)
  | some p =>
    if (s.party p).state = .dissolved then
      (.error NimbleServerErrDatagramFromDisconnectedConnection, inStream, s)
    else
      match E.nbsPendingStepsInSerializeHeader inStream with
      | .error errorCode => (.error errorCode, inStream, s)
      | .ok (clientWaitingForStepId, receiveMask, consumed) =>
        match nimbleServerLocalPartyDeserializePredictedSteps s p (inStream.drop consumed)
            uninitialized with
        | (addedStepsCountOrError, inStream, s) =>
          if addedStepsCountOrError < 0 then (.error addedStepsCountOrError, inStream, s)
          else (.ok (clientWaitingForStepId, receiveMask), inStream, s)

/-! ### req_step.c -/

/-- The oldest steps go, down to a third of the window. -/
def discardAuthoritativeStepsIfBufferGettingFull (s : Server E S) : Int × Server E S :=
  let authoritativeStepCount := E.stepsCount s.game.authoritativeSteps
  let maxCapacity := E.NBS_WINDOW_SIZE / 3
  if authoritativeStepCount > maxCapacity then
    let (err, authoritativeSteps) := E.nbsStepsDiscardCount s.game.authoritativeSteps
      (authoritativeStepCount - maxCapacity)
    (if err < 0 then err else 0, { s with game := { s.game with authoritativeSteps } })
  else (0, s)

/-- The first half of `readIncomingStepsAndCreateAuthoritativeSteps`: everything before
composing. -/
def readIncomingSteps (s : Server E S) (t : ConnectionPtr) (inStream : InStream)
    (uninitialized : Uninitialized S) :
    Except Int (StepId × UInt64) × InStream × Server E S :=
  match discardAuthoritativeStepsIfBufferGettingFull s with
  | (discardErr, s) =>
    if discardErr < 0 then (.error discardErr, inStream, s)
    else nimbleServerHandleIncomingSteps s t inStream uninitialized

/-- Predicted steps come in, and the steps that are now due are composed. -/
def readIncomingStepsAndCreateAuthoritativeSteps (s : Server E S) (t : ConnectionPtr)
    (inStream : InStream) (uninitialized : Uninitialized S) :
    Result (Except Int (StepId × UInt64) × InStream × Server E S) := do
  match readIncomingSteps s t inStream uninitialized with
  | (.error errorCode, inStream, s) => return (.error errorCode, inStream, s)
  | (.ok waitingFor, inStream, s) =>
    if s.game.debugIsFrozen then return (.ok waitingFor, inStream, s)
    let (advanceCount, s) ← nimbleServerComposeAuthoritativeSteps s
    if advanceCount < 0 then return (.error advanceCount, inStream, s)
    return (.ok waitingFor, inStream, s)

/-! ### send_authoritative_steps.c -/

/-- The ranges to send, and the three numbers of the step header: the last step received
from the client, the buffer delta and the authoritative buffer delta. -/
def stepRangesToSend (s : Server E S) (t : ConnectionPtr) (clientWaitingForStepId : StepId)
    (receiveMask : UInt64) : Except Int (List PendingRange × StepId × Nat × Int8) :=
  let authoritativeSteps := s.game.authoritativeSteps
  -- The step is gone from the buffer. The answer is an empty header.
  if clientWaitingForStepId < E.expectedReadId authoritativeSteps then .ok ([], 0, 0, 0)
  else
    match E.nbsPendingStepsRanges clientWaitingForStepId (E.expectedWriteId authoritativeSteps)
        receiveMask 3 8 with
    | .error err => .error err
    | .ok ranges =>
      -- After what the mask says is missing come the steps the client has not asked for yet, at
      -- most 20 of them.
      let ranges := if E.expectedWriteId authoritativeSteps > clientWaitingForStepId then
          let availableCount :=
            (E.expectedWriteId authoritativeSteps - clientWaitingForStepId).toNat
          ranges ++ [{
            startId := clientWaitingForStepId
            count := if availableCount > 20 then 20 else availableCount }]
        else ranges
      match (s.connection t).assignedParty with
      | none => .ok (ranges, 0, 0, 0)
      | some p =>
        let party := s.party p
        -- The two ids are subtracted as `int` and the difference is cut to eight bits.
        .ok (ranges, party.highestReceivedStepId, party.stepsInBufferCount,
          (party.highestReceivedStepId - E.expectedWriteId authoritativeSteps).toUInt8.toInt8)

/-- The header and the ranges. -/
def nimbleServerSendStepRanges (s : Server E S) (t : ConnectionPtr) (outStream : OutStream)
    (clientWaitingForStepId : StepId) (receiveMask : UInt64) : Int × OutStream :=
  match stepRangesToSend s t clientWaitingForStepId receiveMask with
  | .error err => (err, outStream)
  | .ok (ranges, lastReceivedStepFromClient, bufferDelta, authoritativeBufferDelta) =>
    let (serializeErr, outStream) := E.nimbleSerializeServerOutStepHeader outStream
      lastReceivedStepFromClient bufferDelta authoritativeBufferDelta
    if serializeErr < 0 then (serializeErr, outStream)
    else E.nbsPendingStepsSerializeOutRanges outStream s.game.authoritativeSteps ranges

/-- Steps in, and authoritative steps out. -/
def nimbleServerReqGameStep (s : Server E S) (t : ConnectionPtr) (inStream : InStream)
    (outStream : OutStream) (uninitialized : Uninitialized S) :
    Result (Int × InStream × OutStream × Server E S) := do
  match ← readIncomingStepsAndCreateAuthoritativeSteps s t inStream uninitialized with
  | (.error errorCode, inStream, s) => return (errorCode, inStream, outStream, s)
  | (.ok (clientWaitingForStepId, receiveMask), inStream, s) =>
    let (result, outStream) :=
      nimbleServerSendStepRanges s t outStream clientWaitingForStepId receiveMask
    return (result, inStream, outStream, s)

end NimbleServer
