import NimbleServer.Model.Composing

/-!
# `NimbleServer.Model.Connections`: transport connections and game state downloads

`transport_connection.c`, `req_connect.c`, `game_state.c`, `req_game_state.c` and
`req_game_state_ack.c`. A transport connection is one slot of a table of 64. A connect
request takes a slot from the free list and writes the sender's transport index into it.

The handlers that send on their own return the datagrams they sent, oldest first. The
serialized state that the application's callback returns and the time of
`monotonicTimeMsNow` are arguments.
-/

set_option autoImplicit false

namespace NimbleServer

open NimbleServer.Lib

variable {E : External} {S : Setup}

/-! ### game_state.c -/

/-- No state yet, and a buffer for one. -/
def nimbleServerGameStateInit (octetCount : Nat) : GameState where
  state := []
  capacity := octetCount
  stepId := 0

/-- The three outcomes: an old state is ignored (0), one that does not fit is refused (-4),
and any other is stored (1). -/
def nimbleServerGameStateSet (state : GameState) (stepId : StepId) (gameState : List UInt8) :
    Int × GameState :=
  if state.state.length ≠ 0 ∧ stepId ≤ state.stepId then (0, state)
  else if state.capacity < gameState.length then (-4, state)
  else (1, { state with state := gameState, stepId })

/-! ### transport_connection.c -/

/-- The transfer that an earlier user of the slot started is left in place. -/
def transportConnectionInit (self : TransportConnection E S) (maxGameStateOctetSize : Nat) :
    TransportConnection E S :=
  { self with
      orderedDatagramOutLogic := E.orderedDatagramOutLogicInit
      orderedDatagramInLogic := E.orderedDatagramInLogicInit
      gameState := nimbleServerGameStateInit maxGameStateOctetSize
      nextBlobStreamOutChannel := 127
      isUsed := true
      phase := .idle
      blobStreamOutClientRequestId := 0
      useDebugStreams := true
      isInitialized := true }

/-- Nothing else of the connection is cleared. -/
def transportConnectionDisconnect (self : TransportConnection E S) : TransportConnection E S :=
  { self with isUsed := false, phase := .disconnected }

/-- The state the client downloads is determined. -/
def transportConnectionSetGameStateTickId (self : TransportConnection E S) :
    TransportConnection E S :=
  { self with phase := .initialStateDetermined }

/-- The result is that of writing the client time. -/
def transportConnectionWriteHeader (self : TransportConnection E S) (outStream : OutStream)
    (clientTime : UInt16) : Int × OutStream :=
  let outStream := E.orderedDatagramOutLogicPrepare self.orderedDatagramOutLogic outStream
  E.fldOutStreamWriteUInt16 outStream clientTime

/-- The number of the datagram that was prepared is used up. -/
def transportConnectionCommitHeader (self : TransportConnection E S) :
    TransportConnection E S :=
  { self with
      orderedDatagramOutLogic := E.orderedDatagramOutLogicCommit self.orderedDatagramOutLogic }

/-! ### req_connect.c -/

/-- The first connection in use that was made by the same request on the same index. -/
def findExistingConnectionRequest (s : Server E S) (transportConnectionIndex : UInt8)
    (connectionRequestId : Nat) : Option ConnectionPtr :=
  (List.finRange NIMBLE_NIMBLE_SERVER_MAX_TRANSPORT_CONNECTIONS).find? fun c =>
    (s.connection c).isUsed && (s.connection c).transportIndex == transportConnectionIndex &&
      (s.connection c).connectedFromConnectRequestId == connectionRequestId

/-- The part of `nimbleServerReqConnect` between decoding the request and writing the
response. Returns the connection to answer with, or an error code. -/
def acceptConnectRequest (s : Server E S) (transportConnectionIndex : UInt8)
    (connectOptions : ConnectRequest) : Result (Except Int ConnectionPtr × Server E S) := do
  if S.applicationVersion ≠ connectOptions.applicationVersion then
    return (.error NimbleServerErrSerializeVersion, s)
  match findExistingConnectionRequest s transportConnectionIndex
      connectOptions.clientRequestId with
  | some c => return (.ok c, s)
  | none =>
    -- A connection in use under the same request is answered again. Otherwise one is taken from
    -- the free list.
    if nimbleServerCircularBufferIsEmpty s.freeTransportConnectionList then
      return (.error NimbleServerErrSerialize, s)
    let (freeTransportIndex, freeTransportConnectionList) ←
      nimbleServerCircularBufferRead .transportConnections s.freeTransportConnectionList
    if h : freeTransportIndex.toNat < NIMBLE_NIMBLE_SERVER_MAX_TRANSPORT_CONNECTIONS then
      let c : ConnectionPtr := ⟨freeTransportIndex.toNat, h⟩
      if (s.connection c).isUsed then throw .transportConnectionUsed
      let transportConnection := { s.connection c with
        isUsed := true
        isInitialized := false
        transportIndex := transportConnectionIndex
        connectedFromConnectRequestId := connectOptions.clientRequestId
        useDebugStreams := connectOptions.useDebugStreams
        phase := .connected
        id := freeTransportIndex }
      return (.ok c, { s with freeTransportConnectionList }.setConnection c
        (transportConnectionInit transportConnection S.maxGameStateOctetCount))
    else throw .connectionOutOfBounds

/-- The answer names the connection by its id. -/
def nimbleServerReqConnect (s : Server E S) (transportConnectionIndex : UInt8)
    (inStream : InStream) (outStream : OutStream) :
    Result (Int × InStream × OutStream × Server E S) := do
  match E.nimbleSerializeServerInConnectRequest inStream with
  | .error _ => return (NimbleServerErrSerializeVersion, inStream, outStream, s)
  | .ok (connectOptions, consumed) =>
    match ← acceptConnectRequest s transportConnectionIndex connectOptions with
    | (.error errorCode, s) => return (errorCode, inStream.drop consumed, outStream, s)
    | (.ok c, s) =>
      let (result, outStream) := E.nimbleSerializeServerOutConnectResponse outStream {
        useDebugStreams := (s.connection c).useDebugStreams
        connectionId := (s.connection c).id
        responseToRequestId := connectOptions.clientRequestId }
      return (result, inStream.drop consumed, outStream, s)

/-! ### req_game_state_ack.c -/

/-- The empty stream of a blob stream part. -/
def blobStreamOutStream (E : External) : OutStream :=
  { E.fldOutStreamInit E.DATAGRAM_TRANSPORT_MAX_SIZE with writeDebugInfo := true }

/-- Sends one datagram for each entry. Stops at an entry that makes the datagram too long. -/
def sendBlobStreamEntries (t : ConnectionPtr) (clientTime : UInt16) :
    List E.BlobStreamOutEntry → (sent : List (List UInt8)) → Server E S →
      Int × List (List UInt8) × Server E S
  | [], sent, s => (0, sent, s)
  | entry :: entries, sent, s =>
    let (_, stream) := transportConnectionWriteHeader (s.connection t)
      (blobStreamOutStream E) clientTime
    let stream := E.nimbleSerializeWriteCommand stream E.NimbleSerializeCmdServerOutBlobStream
    let stream := E.blobStreamLogicOutSendEntry stream entry
      (E.transferId (s.connection t).blobStreamLogicOut)
    -- The number is used up before it is known whether the datagram can be sent.
    let s := s.setConnection t (transportConnectionCommitHeader (s.connection t))
    if stream.octets.length > E.datagramTransportMaxSize then
      (NimbleServerErrSerialize, sent, s)
    else sendBlobStreamEntries t clientTime entries (sent ++ [stream.octets]) s

/-- The transfer says which entries are due at this time. -/
def nimbleServerSendBlobStream (s : Server E S) (t : ConnectionPtr) (clientTime : UInt16)
    (now : Nat) (sent : List (List UInt8)) : Int × List (List UInt8) × Server E S :=
  let (entries, blobStreamLogicOut) :=
    E.blobStreamLogicOutPrepareSend (s.connection t).blobStreamLogicOut now
  sendBlobStreamEntries t clientTime entries sent
    (s.setConnection t { s.connection t with blobStreamLogicOut })

/-- The client acknowledges parts, and the next ones are sent at once. -/
def nimbleServerReqBlobStream (s : Server E S) (t : ConnectionPtr) (inStream : InStream)
    (clientTime : UInt16) (now : Nat) : Int × InStream × List (List UInt8) × Server E S :=
  let (receiveResult, consumed, blobStreamLogicOut) :=
    E.blobStreamLogicOutReceive (s.connection t).blobStreamLogicOut inStream
  let s := s.setConnection t { s.connection t with blobStreamLogicOut }
  if receiveResult < 0 then (receiveResult, inStream.drop consumed, [], s)
  else
    let (result, sent, s) := nimbleServerSendBlobStream s t clientTime now []
    (result, inStream.drop consumed, sent, s)

/-! ### req_game_state.c -/

/-- A request id that differs from the stored one fetches the state from the application,
copies it to the connection and starts a transfer of the copy. The result of
`nimbleServerGameStateSet` is not looked at. -/
def startDownload (self : TransportConnection E S) (downloadClientRequestId : UInt8)
    (serializedGameState : SerializedGameState) : TransportConnection E S :=
  if downloadClientRequestId = self.blobStreamOutClientRequestId then self
  else
    let (_, gameState) := nimbleServerGameStateSet self.gameState serializedGameState.stepId
      serializedGameState.gameState
    transportConnectionSetGameStateTickId { self with
      gameState
      blobStreamLogicOut :=
        E.blobStreamLogicOutInit gameState.state self.nextBlobStreamOutChannel
      nextBlobStreamOutChannel := (self.nextBlobStreamOutChannel + 1) % E.transferIdCount
      blobStreamOutClientRequestId := downloadClientRequestId }

/-- The request id is read without a check of the read. The announcement and the start of the
transfer go into one datagram, which is sent before the parts. -/
def nimbleServerReqDownloadGameState (s : Server E S) (t : ConnectionPtr) (inStream : InStream)
    (clientTime : UInt16) (uninitialized : Uninitialized S)
    (serializedGameState : SerializedGameState) (now : Nat) :
    Result (Int × InStream × List (List UInt8) × Server E S) := do
  let (downloadClientRequestId, inStream) :=
    readInto E.fldInStreamReadUInt8 inStream uninitialized.downloadClientRequestId
  if downloadClientRequestId = 0 then throw .downloadRequestId
  let s := s.setConnection t
    (startDownload (s.connection t) downloadClientRequestId serializedGameState)
  let latestState := (s.connection t).gameState
  let (_, outStream) :=
    transportConnectionWriteHeader (s.connection t) (E.fldOutStreamInit 256) clientTime
  let (err, outStream) := E.nimbleSerializeServerOutGameStateResponse outStream
    latestState.stepId latestState.state.length
    (s.connection t).blobStreamOutClientRequestId
    (E.transferId (s.connection t).blobStreamLogicOut)
  if err < 0 then return (err, inStream, [], s)
  let outStream :=
    E.nimbleSerializeWriteCommand outStream E.NimbleSerializeCmdServerOutBlobStream
  let (err, outStream) :=
    E.blobStreamLogicOutStartTransfer (s.connection t).blobStreamLogicOut outStream
  if err < 0 then return (err, inStream, [], s)
  let s := s.setConnection t (transportConnectionCommitHeader (s.connection t))
  let (result, sent, s) := nimbleServerSendBlobStream s t clientTime now [outStream.octets]
  return (result, inStream, sent, s)

end NimbleServer
