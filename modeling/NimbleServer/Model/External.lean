import Mathlib

/-!
# `NimbleServer.Model.External`: the code the server calls but does not contain

The repository links against libraries whose sources are not part of it. Each of them enters
the model as a field of `External`, under the name the server calls it by:

* `NbsSteps` (nimble-steps): a buffer of steps with consecutive ids.
* nimble-serialize and nimble-steps-serialize: the octet formats of requests and replies.
* ordered-datagram and blob-stream: the datagram sequence and the game state transfer.
* flood: reading from and writing to streams of octets.

Nothing is assumed of these fields here. A result that depends on what a library does takes
that as a hypothesis. The classes and structures at the end of this file, from `LawfulSteps`
on, are the hypotheses this development uses.

A stream is data of its own. An input stream is the list of octets that are still to be
read, and an output stream is what was written so far with the size of its buffer. A reader
returns how many octets it consumed rather than the rest of the stream. A stream position
only moves forward, and this says so by its type.

The source often does not look at the result of a read, and goes on with whatever the
variable held before. `readInto` is such a read: it takes the old contents of the variable.
-/

set_option autoImplicit false

namespace NimbleServer

/-- The number of a simulation step, `uint32_t` in the source. Its arithmetic wraps. -/
abbrev StepId := UInt32

/-! ### Streams -/

/-- The octets of an `FldInStream` that are still to be read. All reads of the server are from
the stream of a datagram, on which `nimbleServerFeed` sets `readDebugInfo`. -/
abbrev InStream := List UInt8

/-- An `FldOutStream`: the octets written so far, the size of its buffer, and whether the
writers add debug info. -/
structure OutStream where
  octets : List UInt8
  capacity : Nat
  writeDebugInfo : Bool
deriving DecidableEq, Repr

/-- A read into a variable that holds `old`: what the variable holds afterwards, and the rest
of the stream. A read that fails leaves the variable untouched. -/
def readInto {α : Type} (read : InStream → Option α × Nat) (inStream : InStream) (old : α) :
    α × InStream :=
  ((read inStream).1.getD old, inStream.drop (read inStream).2)

/-! ### The messages -/

/-- `NimbleSerializeStepType`: what an authoritative step says about one participant. -/
inductive StepType
  | normal
  | stepNotProvidedInTime
  | waitingForReJoin
  | joined
  | left
deriving DecidableEq, Repr

/-- `NimbleSerializeVersion`. -/
structure Version where
  major : UInt16
  minor : UInt16
  patch : UInt16
deriving DecidableEq, Repr

/-- `NimbleSerializeConnectRequest`. -/
structure ConnectRequest where
  applicationVersion : Version
  clientRequestId : Nat
  useDebugStreams : Bool

/-- `NimbleSerializeConnectResponse`. -/
structure ConnectResponse where
  useDebugStreams : Bool
  connectionId : UInt8
  responseToRequestId : Nat

/-- `NimbleSerializeJoinGameType`. -/
inductive JoinGameType
  | noSecret
  | partySecret
deriving DecidableEq, Repr

/-- `NimbleSerializeJoinGameRequest`. `players` holds the local index of each joining
player, so `playerCount` is its length. -/
structure JoinGameRequest where
  nonce : UInt64
  joinGameType : JoinGameType
  partyId : UInt8
  sessionSecret : UInt64
  players : List Nat

/-- The number of players in the request. -/
def JoinGameRequest.playerCount (request : JoinGameRequest) : Nat := request.players.length

/-- `NimbleSerializeJoinGameResponse`. Each participant is its id and local index. -/
structure JoinGameResponse where
  partyId : UInt8
  sessionSecret : UInt64
  participants : List (UInt8 × Nat)

/-- `NimbleSerializeLocalPartyInfo`: the participants of one party of a migrated game. -/
structure LocalPartyInfo where
  participantIds : List UInt8

/-- `NimbleServerSerializedGameState`, as the application's callback fills it in. -/
structure SerializedGameState where
  stepId : StepId
  gameState : List UInt8

/-- `NbsPendingRange`: `count` steps from `startId` on. -/
structure PendingRange where
  startId : StepId
  count : Nat

/-! ### The libraries -/

/-- The functions and constants of the libraries the server links against. A `Nat` beside a
decoded value is the number of octets the decoder consumed. -/
structure External where
  -- `NbsSteps`.
  Steps : Type
  -- `OrderedDatagramInLogic`.
  InLogic : Type
  -- `OrderedDatagramOutLogic`.
  OutLogic : Type
  -- `BlobStreamLogicOut` with the `BlobStreamOut` it sends from.
  BlobStreamLogicOut : Type
  -- `BlobStreamOutEntry`.
  BlobStreamOutEntry : Type
  -- A read returns the value, or `none` if it fails, and how far it moves the position.
  fldInStreamReadUInt8 : InStream → Option UInt8 × Nat
  fldInStreamReadUInt16 : InStream → Option UInt16 × Nat
  -- The size of the buffer is the argument.
  fldOutStreamInit : Nat → OutStream
  -- A write returns a negative value if it fails.
  fldOutStreamWriteUInt8 : OutStream → UInt8 → Int × OutStream
  fldOutStreamWriteUInt16 : OutStream → UInt16 → Int × OutStream
  fldOutStreamWriteOctets : OutStream → List UInt8 → Int × OutStream
  NBS_WINDOW_SIZE : Nat
  NimbleStepMaxSingleStepOctetCount : Nat
  NimbleStepErrCollectionIsEmpty : Int
  nbsStepsInit : Nat → Steps
  nbsStepsReInit : Steps → StepId → Steps
  expectedReadId : Steps → StepId
  expectedWriteId : Steps → StepId
  stepsCount : Steps → Nat
  -- The payloads in the buffer, oldest first. The server never reads this; it is what
  -- the hypotheses about the other fields speak of.
  storedPayloads : Steps → List (List UInt8)
  nbsStepsWrite : Steps → StepId → List UInt8 → Int × Steps
  nbsStepsReadExactStepId : Steps → StepId → Except Int (List UInt8) × Steps
  nbsStepsDiscardCount : Steps → Nat → Int × Steps
  nbsStepsInSerializeSinglePredictedStep : InStream → StepId → Steps → Int × Nat × Steps
  nbsStepsInSerializeHeader : InStream → Except Int (StepId × Nat × Nat)
  nbsPendingStepsInSerializeHeader : InStream → Except Int (StepId × UInt64 × Nat)
  nbsStepsOutSerializeCalculateCombinedSize : Nat → Nat → Nat
  nbsPendingStepsRanges : StepId → StepId → UInt64 → Nat → Nat → Except Int (List PendingRange)
  nbsPendingStepsSerializeOutRanges : OutStream → Steps → List PendingRange → Int × OutStream
  stepTypeOctet : StepType → UInt8
  nimbleSerializeServerOutStepHeader : OutStream → StepId → Nat → Int8 → Int × OutStream
  nimbleSerializeServerInConnectRequest : InStream → Except Int (ConnectRequest × Nat)
  nimbleSerializeServerOutConnectResponse : OutStream → ConnectResponse → Int × OutStream
  nimbleSerializeServerInJoinGameRequest : InStream → Except Int (JoinGameRequest × Nat)
  nimbleSerializeServerOutJoinGameResponse : OutStream → JoinGameResponse → OutStream
  nimbleSerializeServerOutJoinGameOutOfParticipantSlotsResponse : OutStream → UInt64 → OutStream
  nimbleSerializeServerOutGameStateResponse :
    OutStream → StepId → Nat → UInt8 → Nat → Int × OutStream
  nimbleSerializeWriteCommand : OutStream → UInt8 → OutStream
  NimbleSerializeCmdConnectRequest : UInt8
  NimbleSerializeCmdGameStep : UInt8
  NimbleSerializeCmdJoinGameRequest : UInt8
  NimbleSerializeCmdDownloadGameStateRequest : UInt8
  NimbleSerializeCmdClientOutBlobStream : UInt8
  NimbleSerializeCmdServerOutBlobStream : UInt8
  DATAGRAM_TRANSPORT_MAX_SIZE : Nat
  datagramTransportMaxSize : Nat
  orderedDatagramInLogicInit : InLogic
  orderedDatagramInLogicReceive : InLogic → InStream → Except Int Nat × InLogic
  clearHasReceivedInitialDatagram : InLogic → InLogic
  orderedDatagramOutLogicInit : OutLogic
  orderedDatagramOutLogicPrepare : OutLogic → OutStream → OutStream
  orderedDatagramOutLogicCommit : OutLogic → OutLogic
  -- The number of values of `BlobStreamTransferId`.
  transferIdCount : Nat
  blobStreamLogicOutInit : List UInt8 → Nat → BlobStreamLogicOut
  transferId : BlobStreamLogicOut → Nat
  blobStreamLogicOutReceive : BlobStreamLogicOut → InStream → Int × Nat × BlobStreamLogicOut
  blobStreamLogicOutStartTransfer : BlobStreamLogicOut → OutStream → Int × OutStream
  blobStreamLogicOutPrepareSend :
    BlobStreamLogicOut → Nat → List BlobStreamOutEntry × BlobStreamLogicOut
  blobStreamLogicOutSendEntry : OutStream → BlobStreamOutEntry → Nat → OutStream

/-- What the server relies on of the reads of flood. Which octets a number is made of, and
what a failed read consumes, is left open. -/
class LawfulInStreams (E : External) : Prop where
  -- An octet can be read as long as there is one, and moves the position.
  readUInt8_nil : (E.fldInStreamReadUInt8 []).1 = none
  readUInt8_cons : ∀ octet rest, ∃ value consumed, 0 < consumed ∧
    E.fldInStreamReadUInt8 (octet :: rest) = (some value, consumed)
  -- Two octets are enough for 16 bits.
  readUInt16_none : ∀ inStream, (E.fldInStreamReadUInt16 inStream).1 = none →
    inStream.length ≤ 1

/-- The writer added octets to the stream and stayed within its buffer. -/
structure OutStream.Grows (stream stream' : OutStream) : Prop where
  octets : stream.octets <+: stream'.octets
  capacity : stream'.capacity = stream.capacity
  fits : stream.octets.length ≤ stream.capacity → stream'.octets.length ≤ stream.capacity
  writeDebugInfo : stream'.writeDebugInfo = stream.writeDebugInfo

/-- What the server relies on of the writes of flood. Without debug info a write appends its
octets, or it fails and writes nothing. How 16 bits are written is left open. -/
class LawfulOutStreams (E : External) : Prop where
  init_eq : ∀ capacity,
    E.fldOutStreamInit capacity = { octets := [], capacity, writeDebugInfo := false }
  writeOctets_ok : ∀ (stream : OutStream) (octets : List UInt8),
    stream.writeDebugInfo = false → stream.octets.length + octets.length ≤ stream.capacity →
      0 ≤ (E.fldOutStreamWriteOctets stream octets).1 ∧
      (E.fldOutStreamWriteOctets stream octets).2
        = { stream with octets := stream.octets ++ octets }
  writeOctets_full : ∀ (stream : OutStream) (octets : List UInt8),
    stream.writeDebugInfo = false → stream.capacity < stream.octets.length + octets.length →
      (E.fldOutStreamWriteOctets stream octets).1 < 0 ∧
      (E.fldOutStreamWriteOctets stream octets).2 = stream
  writeUInt8_eq : ∀ (stream : OutStream) octet, stream.writeDebugInfo = false →
    E.fldOutStreamWriteUInt8 stream octet = E.fldOutStreamWriteOctets stream [octet]
  writeUInt16_grows : ∀ (stream : OutStream) value,
    stream.Grows (E.fldOutStreamWriteUInt16 stream value).2
  writeUInt16_full : ∀ (stream : OutStream) value,
    (E.fldOutStreamWriteUInt16 stream value).1 < 0 →
      (E.fldOutStreamWriteUInt16 stream value).2 = stream
  writeUInt16_length : ∀ (stream : OutStream) value, stream.writeDebugInfo = false →
    0 ≤ (E.fldOutStreamWriteUInt16 stream value).1 →
      (E.fldOutStreamWriteUInt16 stream value).2.octets.length = stream.octets.length + 2
  -- The result does not depend on the value, and values that differ are told apart.
  writeUInt16_result : ∀ (stream : OutStream) value value',
    (E.fldOutStreamWriteUInt16 stream value).1 = (E.fldOutStreamWriteUInt16 stream value').1
  writeUInt16_value : ∀ (stream : OutStream) value value',
    0 ≤ (E.fldOutStreamWriteUInt16 stream value).1 → value ≠ value' →
      (E.fldOutStreamWriteUInt16 stream value).2.octets.length
          = (E.fldOutStreamWriteUInt16 stream value').2.octets.length ∧
        (E.fldOutStreamWriteUInt16 stream value).2.octets
          ≠ (E.fldOutStreamWriteUInt16 stream value').2.octets

/-- What the server relies on of `NbsSteps`. The buffer holds consecutive ids, from
`expectedReadId` up to `expectedWriteId`. -/
class LawfulSteps (E : External) : Prop where
  -- `NimbleStepErrCollectionIsEmpty` is an error value.
  empty_neg : E.NimbleStepErrCollectionIsEmpty < 0
  -- The ids in the buffer are consecutive.
  writeId_eq : ∀ steps, (E.expectedWriteId steps).toNat
    = (E.expectedReadId steps).toNat + (E.storedPayloads steps).length
  -- `stepsCount` counts them.
  stepsCount_eq : ∀ steps, E.stepsCount steps = (E.storedPayloads steps).length
  -- `nbsStepsReInit` empties the buffer at an id.
  reInit_writeId : ∀ steps id, E.expectedWriteId (E.nbsStepsReInit steps id) = id
  reInit_stored : ∀ steps id, E.storedPayloads (E.nbsStepsReInit steps id) = []
  -- `nbsStepsInSerializeSinglePredictedStep` fails and changes nothing, or ignores an id
  -- below `expectedWriteId`, or stores the id that is equal to it. The length of the payload
  -- is one octet on the wire.
  inSerialize_cases : ∀ stream id steps result consumed steps',
    E.nbsStepsInSerializeSinglePredictedStep stream id steps = (result, consumed, steps') →
      (result < 0 ∧ steps' = steps) ∨
      (result = 0 ∧ id < E.expectedWriteId steps ∧ steps' = steps) ∨
      (result = 1 ∧ id = E.expectedWriteId steps ∧
        E.expectedReadId steps' = E.expectedReadId steps ∧
        ∃ payload : List UInt8, payload.length < 256 ∧
          E.storedPayloads steps' = E.storedPayloads steps ++ [payload])
  -- `nbsStepsReadExactStepId` of a stored id returns its payload and drops everything up to
  -- it.
  readExact_stored : ∀ steps id, E.expectedReadId steps ≤ id → id < E.expectedWriteId steps →
    (E.nbsStepsReadExactStepId steps id).1
        = .ok ((E.storedPayloads steps).getD (id.toNat - (E.expectedReadId steps).toNat) []) ∧
      E.storedPayloads (E.nbsStepsReadExactStepId steps id).2
        = (E.storedPayloads steps).drop (id.toNat - (E.expectedReadId steps).toNat + 1) ∧
      E.expectedWriteId (E.nbsStepsReadExactStepId steps id).2 = E.expectedWriteId steps
  -- Past the last stored id it reports an empty collection, and can drop old steps.
  readExact_missing : ∀ steps id, E.expectedWriteId steps ≤ id →
    (E.nbsStepsReadExactStepId steps id).1 = .error E.NimbleStepErrCollectionIsEmpty ∧
      E.storedPayloads (E.nbsStepsReadExactStepId steps id).2 <:+ E.storedPayloads steps ∧
      E.expectedWriteId (E.nbsStepsReadExactStepId steps id).2 = E.expectedWriteId steps
  -- A successful `nbsStepsWrite` of the expected id stores it.
  write_ok : ∀ steps id octets, id = E.expectedWriteId steps →
    0 ≤ (E.nbsStepsWrite steps id octets).1 →
      E.storedPayloads (E.nbsStepsWrite steps id octets).2 = E.storedPayloads steps ++ [octets] ∧
      E.expectedReadId (E.nbsStepsWrite steps id octets).2 = E.expectedReadId steps
  -- `nbsStepsDiscardCount` drops the oldest steps, at most as many as there are.
  discard_ok : ∀ steps count, count ≤ E.stepsCount steps →
    0 ≤ (E.nbsStepsDiscardCount steps count).1 ∧
      E.storedPayloads (E.nbsStepsDiscardCount steps count).2
        = (E.storedPayloads steps).drop count ∧
      E.expectedWriteId (E.nbsStepsDiscardCount steps count).2 = E.expectedWriteId steps

/-- `nbsStepsReadExactStepId` returns a payload only for an id that is stored. `LawfulSteps`
leaves open what a read below `expectedReadId` does. -/
class ExactSteps (E : External) : Prop where
  readExact_ok : ∀ steps id octets, (E.nbsStepsReadExactStepId steps id).1 = .ok octets →
    E.expectedReadId steps ≤ id ∧ id < E.expectedWriteId steps

/-- What the bounds of the authoritative buffer rest on: how many steps the calls add and
drop. -/
class CountedSteps (E : External) : Prop where
  reInit_count : ∀ steps id, E.stepsCount (E.nbsStepsReInit steps id) = 0
  -- A successful write adds one step.
  write_count : ∀ steps id octets, 0 ≤ (E.nbsStepsWrite steps id octets).1 →
    E.stepsCount (E.nbsStepsWrite steps id octets).2 = E.stepsCount steps + 1
  -- A write that fails adds at most one.
  write_failed : ∀ steps id octets, (E.nbsStepsWrite steps id octets).1 < 0 →
    E.stepsCount (E.nbsStepsWrite steps id octets).2 ≤ E.stepsCount steps + 1
  discard_count : ∀ steps count, count ≤ E.stepsCount steps →
    E.stepsCount (E.nbsStepsDiscardCount steps count).2 = E.stepsCount steps - count

/-- The enumerators of `NimbleSerializeStepType` have different values. -/
class LawfulStepTypes (E : External) : Prop where
  stepTypeOctet_injective : Function.Injective E.stepTypeOctet

/-- What the server relies on of the writers of replies: none of them leaves the buffer of
its stream or touches what was written before. -/
class LawfulWriters (E : External) : Prop where
  outRanges : ∀ (stream : OutStream) steps ranges,
    stream.Grows (E.nbsPendingStepsSerializeOutRanges stream steps ranges).2
  outStepHeader : ∀ (stream : OutStream) stepId bufferDelta authoritativeBufferDelta,
    stream.Grows (E.nimbleSerializeServerOutStepHeader stream stepId bufferDelta
      authoritativeBufferDelta).2
  outConnectResponse : ∀ (stream : OutStream) response,
    stream.Grows (E.nimbleSerializeServerOutConnectResponse stream response).2
  outJoinGameResponse : ∀ (stream : OutStream) response,
    stream.Grows (E.nimbleSerializeServerOutJoinGameResponse stream response)
  outOutOfParticipantSlots : ∀ (stream : OutStream) nonce,
    stream.Grows
      (E.nimbleSerializeServerOutJoinGameOutOfParticipantSlotsResponse stream nonce)
  outGameStateResponse : ∀ (stream : OutStream) stepId octetCount requestId transferId,
    stream.Grows (E.nimbleSerializeServerOutGameStateResponse stream stepId octetCount
      requestId transferId).2
  writeCommand : ∀ (stream : OutStream) cmd,
    stream.Grows (E.nimbleSerializeWriteCommand stream cmd)
  startTransfer : ∀ logic (stream : OutStream),
    stream.Grows (E.blobStreamLogicOutStartTransfer logic stream).2
  sendEntry : ∀ (stream : OutStream) entry transferId,
    stream.Grows (E.blobStreamLogicOutSendEntry stream entry transferId)
  -- The two names of the largest datagram agree, and it has room for a header, also with
  -- debug info.
  maxSize_eq : E.datagramTransportMaxSize = E.DATAGRAM_TRANSPORT_MAX_SIZE
  four_le_maxSize : 4 ≤ E.DATAGRAM_TRANSPORT_MAX_SIZE
  debugHeader_fits : ∀ logic clientTime, 0 ≤ (E.fldOutStreamWriteUInt16
    (E.orderedDatagramOutLogicPrepare logic
      { E.fldOutStreamInit E.DATAGRAM_TRANSPORT_MAX_SIZE with writeDebugInfo := true })
    clientTime).1

/-- What the readers of requests do at the end of a stream, and which error is the server's
own: -4 stands for an illegal participant index, and no library call of a GameStep request
returns it. -/
class LawfulReaders (E : External) : Prop where
  -- A reader fails on an empty stream, with a negative value.
  connectRequest_nil : ∃ code, E.nimbleSerializeServerInConnectRequest [] = .error code
  joinGameRequest_nil : ∃ code,
    code < 0 ∧ E.nimbleSerializeServerInJoinGameRequest [] = .error code
  pendingHeader_nil : ∃ code, code < 0 ∧ E.nbsPendingStepsInSerializeHeader [] = .error code
  stepsHeader_nil : ∃ code,
    code < 0 ∧ code ≠ -4 ∧ E.nbsStepsInSerializeHeader [] = .error code
  -- Composing and answering do not fail with -4.
  write_ne : ∀ steps id octets, (E.nbsStepsWrite steps id octets).1 ≠ -4
  ranges_ne : ∀ waitingFor writeId mask rangeCount stepCount,
    E.nbsPendingStepsRanges waitingFor writeId mask rangeCount stepCount ≠ .error (-4)
  outStepHeader_ne : ∀ stream stepId bufferDelta authoritativeBufferDelta,
    (E.nimbleSerializeServerOutStepHeader stream stepId bufferDelta
      authoritativeBufferDelta).1 ≠ -4
  outRanges_ne : ∀ stream steps ranges,
    (E.nbsPendingStepsSerializeOutRanges stream steps ranges).1 ≠ -4

/-- The ids of transfers: `blobStreamLogicOutInit` sets the id, and nothing that the server does
with the transfer afterwards changes it. -/
class LawfulTransfers (E : External) : Prop where
  -- `BlobStreamTransferId` holds the first id that `transportConnectionInit` sets.
  first_lt : 127 < E.transferIdCount
  init_transferId : ∀ octets id, id < E.transferIdCount →
    E.transferId (E.blobStreamLogicOutInit octets id) = id
  receive_transferId : ∀ logic inStream,
    E.transferId (E.blobStreamLogicOutReceive logic inStream).2.2 = E.transferId logic
  prepareSend_transferId : ∀ logic now,
    E.transferId (E.blobStreamLogicOutPrepareSend logic now).2 = E.transferId logic

/-- The sequence numbers of ordered-datagram: how they are counted, and how a receiver reads
the number of a datagram. -/
structure SequenceNumbers (E : External) where
  -- The numbers wrap here.
  modulus : Nat
  -- The number the next datagram gets.
  number : E.OutLogic → Nat
  -- A number on the wire, and the number at the front of a datagram.
  octets : Nat → List UInt8
  read : List UInt8 → Nat
  number_lt : ∀ logic, number logic < modulus
  octets_length : ∀ n, (octets n).length ≤ 2
  read_octets : ∀ n rest, n < modulus → read (octets n ++ rest) = n
  -- `orderedDatagramOutLogicPrepare` writes the current number when it fits.
  prepare_grows : ∀ logic (stream : OutStream),
    stream.Grows (E.orderedDatagramOutLogicPrepare logic stream)
  prepare_ok : ∀ logic (stream : OutStream),
    stream.octets.length + (octets (number logic)).length ≤ stream.capacity →
      E.orderedDatagramOutLogicPrepare logic stream
        = { stream with octets := stream.octets ++ octets (number logic) }
  -- `orderedDatagramOutLogicCommit` advances it by one.
  number_commit : ∀ logic,
    number (E.orderedDatagramOutLogicCommit logic) = (number logic + 1) % modulus

end NimbleServer
