import NimbleServer.Model.Requests

/-!
# `NimbleServer.Model.Server`: the server's entry points

`game.c` and `server.c`. `nimbleServerInit` takes the memory it runs on: a field it does not
assign keeps what the memory held, for example the transport index of a connection.

`nimbleServerFeed` handles one datagram. `receiveOnConnection` is its first part, which
takes an unused slot into use on the datagram's own index; `feedCommands` is its loop over
the commands. A command consumes at least one octet if flood's reads do what is assumed of
them (`LawfulInStreams`), so the number of octets bounds the number of rounds.
-/

set_option autoImplicit false

namespace NimbleServer

open NimbleServer.Lib

variable {E : External} {S : Setup}

/-! ### Starting a server and a game -/

/-- Slot `0` is initialised before the loop, and only the other slots go on the free list.
The loop has 63 rounds on any input; it is irreducible so that elaboration does not run
it. -/
@[irreducible] def initFreeTransportConnectionList (self : CircularBuffer) :
    Result CircularBuffer :=
  ((List.finRange NIMBLE_NIMBLE_SERVER_MAX_TRANSPORT_CONNECTIONS).drop 1).foldlM
    (fun list c => nimbleServerCircularBufferWrite .transportConnections list
      (UInt8.ofNat c.val))
    (nimbleServerCircularBufferInit self)

/-- What is not assigned here is what the memory held before. -/
def nimbleServerInit (memory : Server E S) : Result (Server E S) := do
  if S.maxConnectionCount > NIMBLE_NIMBLE_SERVER_MAX_TRANSPORT_CONNECTIONS then
    throw .illegalSetup
  if S.maxSingleParticipantStepOctetCount > E.NimbleStepMaxSingleStepOctetCount then
    throw .illegalSetup
  if S.maxParticipantCount > NIMBLE_NIMBLE_SERVER_MAX_TRANSPORT_CONNECTIONS then
    throw .illegalSetup
  let freeTransportConnectionList ←
    initFreeTransportConnectionList memory.freeTransportConnectionList
  return { memory with
    localParties := nimbleServerLocalPartiesInit S
    transportConnections := tabulate NIMBLE_NIMBLE_SERVER_MAX_TRANSPORT_CONNECTIONS fun c =>
      { memory.connection c with
          assignedParty := none
          transportConnectionId := UInt8.ofNat c.val
          isUsed := false }
    freeTransportConnectionList }

/-- A new pool and an empty authoritative buffer. -/
def nimbleServerGameInit (E : External) (S : Setup) (memory : Game E S) : Result (Game E S) := do
  let combinedStepOctetCount := E.nbsStepsOutSerializeCalculateCombinedSize
    S.maxParticipantCount S.maxSingleParticipantStepOctetCount
  let participants ← nimbleServerParticipantsInit E S memory.participants.freeList
  return {
    authoritativeSteps := E.nbsStepsReInit (E.nbsStepsInit combinedStepOctetCount) 0
    participants
    debugIsFrozen := false }

/-- The transport connections keep the parties that are assigned to them. -/
def nimbleServerReInitWithGame (s : Server E S) (stepId : StepId) : Result (Server E S) := do
  let game ← nimbleServerGameInit E S s.game
  return { s with
    game := { game with authoritativeSteps := E.nbsStepsReInit game.authoritativeSteps stepId }
    localParties := nimbleServerLocalPartiesReset s.localParties }

/-! ### Host migration -/

/-- Whether one of the parties lists the participant. -/
def containsParticipantId (parties : List LocalPartyInfo) (searchFor : UInt8) : Bool :=
  parties.any fun party => party.participantIds.contains searchFor

/-- Prepares one party after the other, and stops at the first error. -/
def prepareParties (uninitialized : Uninitialized S) :
    List LocalPartyInfo → Server E S → Result (Int × Server E S)
  | [], s => pure (0, s)
  | info :: infos, s => do
    let (err, s) ← nimbleServerLocalPartiesPrepare s
      (E.expectedWriteId s.game.authoritativeSteps - 1) info uninitialized
    if err < 0 then return (err, s) else prepareParties uninitialized infos s

/-- The parties are reset before the new ones are prepared, but not the participants. At the end
the free list is built from the ids that are not listed. -/
def nimbleServerHostMigration (s : Server E S) (localPartyInfos : List LocalPartyInfo)
    (uninitialized : Uninitialized S) : Result (Int × Server E S) := do
  let s := { s with localParties := nimbleServerLocalPartiesReset s.localParties }
  let (err, s) ← prepareParties uninitialized localPartyInfos s
  if err < 0 then return (err, s)
  let freeList ← (List.finRange S.maxParticipantCount).foldlM
    (fun freeList i =>
      if containsParticipantId localPartyInfos (UInt8.ofNat i.val) then pure freeList
      else nimbleServerCircularBufferWrite .participants freeList (UInt8.ofNat i.val))
    (nimbleServerCircularBufferInit s.game.participants.freeList)
  return (0, s.setParticipants { s.game.participants with freeList })

/-! ### The transport layer's notifications -/

/-- The slot is marked as used. `transportConnectionInit` is not called. -/
def nimbleServerConnectionConnected (s : Server E S) (connectionIndex : ConnectionPtr) :
    Int × Server E S :=
  if (s.connection connectionIndex).isUsed then (-44, s)
  else (0, s.setConnection connectionIndex
    { s.connection connectionIndex with isUsed := true, isInitialized := false })

/-- The party is looked up with the connection's index as its id. -/
def nimbleServerConnectionDisconnected (s : Server E S) (connectionIndex : ConnectionPtr) :
    Result (Int × Server E S) := do
  let p ← nimbleServerLocalPartiesFindParty S (UInt8.ofNat connectionIndex.val)
  if !(s.party p).isUsed then return (-4, s)
  let s := s.setParty p { s.party p with id := 0xff, isUsed := false }
  return (0, s.setConnection connectionIndex { s.connection connectionIndex with
    orderedDatagramInLogic := E.clearHasReceivedInitialDatagram
      (s.connection connectionIndex).orderedDatagramInLogic })

/-! ### Ticking the parties -/

/-- All participants of a party leave. -/
def markReferencesAsLeaving (s : Server E S) (references : List (ParticipantPtr S)) :
    Server E S :=
  references.foldl
    (fun s i => s.setParticipant i (nimbleServerParticipantMarkAsLeaving (s.participant i))) s

/-- The participants are marked before the references are cleared. -/
def destroyParty (s : Server E S) (p : PartyPtr S) : Result (Server E S) :=
  let s := s.setParty p (nimbleServerLocalPartyDestroy (s.party p))
  nimbleServerLocalPartiesRemove
    (markReferencesAsLeaving s (s.party p).participantReferences) p

/-- The number that goes back to the free list is the `id` of the connection. -/
def disconnectTransportConnection (s : Server E S) (t : ConnectionPtr) :
    Result (Server E S) := do
  let freeTransportConnectionList ← nimbleServerCircularBufferWrite .transportConnections
    s.freeTransportConnectionList (s.connection t).id
  return { s with freeTransportConnectionList }.setConnection t
    (transportConnectionDisconnect (s.connection t))

/-- One round of `tickParties`. The connection of a dissolved party is read after the party
was reset. -/
def tickParty (s : Server E S) (p : PartyPtr S) : Result (Server E S) :=
  if (s.party p).isUsed then
    -- A party that gives up is destroyed, and its connection, if it has one, is freed.
    match nimbleServerLocalPartyTick s p with
    | (true, s) => pure s
    | (false, s) => do
      let s ← destroyParty s p
      match (s.party p).transportConnection with
      | none => return s
      | some t => disconnectTransportConnection s t
  else pure s

/-- Every party is ticked, in the order of the slots. -/
def tickParties (s : Server E S) : Result (Server E S) :=
  (List.finRange S.maxConnectionCount).foldlM tickParty s

/-! ### Datagrams -/

/-- Errors that a client can cause. -/
def nimbleServerIsErrorExternal (err : Int) : Bool :=
  err == NimbleServerErrSerialize || err == NimbleServerErrSessionFull ||
    err == NimbleServerErrDatagramFromDisconnectedConnection ||
    err == NimbleServerErrOutOfParticipantMemory

/-- What the environment supplies while one datagram is handled, for each of its commands:
the contents of uninitialised variables, the state the application's callback returns, and
the time. -/
structure Environment (S : Setup) where
  uninitialized : Nat → Uninitialized S
  serializedGameState : Nat → SerializedGameState
  now : Nat → Nat

/-- A connection that is not used is taken into use on the index the datagram came from. The
free list is not consulted. -/
def receiveOnConnection (s : Server E S) (t : ConnectionPtr) : Server E S :=
  if (s.connection t).isUsed then s
  else
    let transportConnection := { s.connection t with
      isUsed := true
      isInitialized := false
      transportIndex := UInt8.ofNat t.val
      connectedFromConnectRequestId := 0
      useDebugStreams := false
      phase := .connected
      id := UInt8.ofNat t.val }
    s.setConnection t (transportConnectionInit transportConnection S.maxGameStateOctetCount)

/-- The `switch` on the command: the result, the rest of the input, the reply and what the
handler itself sent. `none` is a command that is not known. -/
def handleCommand (s : Server E S) (t : ConnectionPtr) (cmd : UInt8) (inStream : InStream)
    (outStream : OutStream) (clientTime : UInt16) (environment : Environment S) (round : Nat) :
    Result (Option (Int × InStream × OutStream × List (List UInt8)) × Server E S) := do
  if cmd = E.NimbleSerializeCmdConnectRequest then
    let (result, inStream, outStream, s) ←
      nimbleServerReqConnect s (UInt8.ofNat t.val) inStream outStream
    return (some (result, inStream, outStream, []), s)
  if cmd = E.NimbleSerializeCmdGameStep then
    let (result, inStream, outStream, s) ←
      nimbleServerReqGameStep s t inStream outStream (environment.uninitialized round)
    return (some (result, inStream, outStream, []), s)
  if cmd = E.NimbleSerializeCmdJoinGameRequest then
    let (result, inStream, outStream, s) ←
      nimbleServerReqGameJoin s t inStream outStream (environment.uninitialized round)
    return (some (result, inStream, outStream, []), s)
  if cmd = E.NimbleSerializeCmdDownloadGameStateRequest then
    let (result, inStream, sent, s) ← nimbleServerReqDownloadGameState s t inStream clientTime
      (environment.uninitialized round) (environment.serializedGameState round)
      (environment.now round)
    return (some (result, inStream, outStream, sent), s)
  return (none, s)

/-- The empty stream of a reply. -/
def replyOutStream (E : External) : OutStream :=
  { E.fldOutStreamInit (E.DATAGRAM_TRANSPORT_MAX_SIZE - 32) with writeDebugInfo := false }

/-- The loop over the commands of a datagram. Returns the result of `nimbleServerFeed` and
the datagrams sent. -/
def feedCommands (t : ConnectionPtr) (clientTime : UInt16) (environment : Environment S) :
    (fuel round : Nat) → InStream → (sent : List (List UInt8)) → Server E S →
      Result (Int × List (List UInt8) × Server E S)
  | _, _, [], sent, s => pure (0, sent, s)
  -- Not in the source: a loop that consumes no octet would not end.
  | 0, _, _ :: _, _, _ => throw .feedDiverged
  | fuel + 1, round, octet :: octets, sent, s =>
    let (cmd, inStream) := readInto E.fldInStreamReadUInt8 (octet :: octets)
      (environment.uninitialized round).cmd
    if cmd = E.NimbleSerializeCmdClientOutBlobStream then
      match nimbleServerReqBlobStream s t inStream clientTime (environment.now round) with
      | (err, inStream, blobsSent, s) =>
        if err < 0 then pure (err, sent ++ blobsSent, s)
        else feedCommands t clientTime environment fuel (round + 1) inStream
          (sent ++ blobsSent) s
    else
      match transportConnectionWriteHeader (s.connection t) (replyOutStream E) clientTime with
      | (err, outStream) =>
        if err < 0 then pure (err, sent, s)
        else do
          match ← handleCommand s t cmd inStream outStream clientTime environment round with
          | (none, s) => return (0, sent, s)
          | (some (result, inStream, outStream, handlerSent), s) =>
            if result < 0 then return (result, sent ++ handlerSent, s)
            -- A handler that has sent its answer itself leaves only the header in the stream, and
            -- the datagram ends here.
            if outStream.octets.length ≤ 4 then
              return (NimbleServerErrSerialize, sent ++ handlerSent, s)
            let s := s.setConnection t (transportConnectionCommitHeader (s.connection t))
            if outStream.octets.length > E.datagramTransportMaxSize then
              return (NimbleServerErrSerialize, sent ++ handlerSent, s)
            feedCommands t clientTime environment fuel (round + 1) inStream
              (sent ++ handlerSent ++ [outStream.octets]) s

/-- A datagram is handled if it comes on the index of its connection and in order. -/
def nimbleServerFeed (s : Server E S) (transportIndex : UInt8) (data : List UInt8)
    (environment : Environment S) : Result (Int × List (List UInt8) × Server E S) :=
  if h : transportIndex.toNat < NIMBLE_NIMBLE_SERVER_MAX_TRANSPORT_CONNECTIONS then
    let t : ConnectionPtr := ⟨transportIndex.toNat, h⟩
    let s := receiveOnConnection s t
    if (s.connection t).transportIndex ≠ transportIndex then
      pure (NimbleServerErrSerialize, [], s)
    else
      match E.orderedDatagramInLogicReceive (s.connection t).orderedDatagramInLogic data with
      | (received, orderedDatagramInLogic) =>
        let s := s.setConnection t { s.connection t with orderedDatagramInLogic }
        match received with
        | .error _ => pure (NimbleServerErrSerialize, [], s)
        | .ok consumed =>
          -- The read of the client time is not checked.
          let (clientTime, inStream) := readInto E.fldInStreamReadUInt16 (data.drop consumed)
            (environment.uninitialized 0).clientTime
          feedCommands t clientTime environment inStream.length 0 inStream [] s
  else pure (NimbleServerErrSerialize, [], s)

end NimbleServer
