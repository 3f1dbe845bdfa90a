import NimbleServer.Model.Server

/-!
# `NimbleServer.Model.Update`: the server's periodic update

`nimbleServerUpdate` and `nimbleServerReadFromMultiTransport` of `server.c`. The transport is
a queue: each call of its `receiveFrom` takes the next entry, and an empty queue returns 0.
The octet count of a datagram is the result of the call, so a datagram without octets returns
0 as well.

The loop returns, beside its result, the calls of `nimbleServerFeed` it made and what is left
of the queue. What such a call sent goes to the connection the datagram came from. Whether an
error is external only decides if it is logged.
-/

set_option autoImplicit false

namespace NimbleServer

variable {E : External} {S : Setup}

/-- A datagram that `receiveFrom` writes to the buffer of the loop, with what the environment
supplies while it is handled. -/
structure ReceivedDatagram (E : External) (S : Setup) where
  connectionId : Int
  octets : List UInt8
  environment : Environment S
  -- `CLOG_ASSERT((size_t) octetCountReceived <= sizeof(datagram))`.
  fits : octets.length ≤ E.DATAGRAM_TRANSPORT_MAX_SIZE

/-- What one call of `receiveFrom` takes from the queue. -/
inductive Received (E : External) (S : Setup)
  | datagram (received : ReceivedDatagram E S)
  | failure (code : Int) (negative : code < 0)

/-- A call of `nimbleServerFeed`: the datagram, the result and what was sent back. -/
structure FedDatagram (E : External) (S : Setup) where
  datagram : ReceivedDatagram E S
  errorCode : Int
  sent : List (List UInt8)

/-- The connection id is cast to `uint8_t`. -/
def feedReceived (s : Server E S) (received : ReceivedDatagram E S) :
    Result (FedDatagram E S × Server E S) := do
  let (errorCode, sent, s) ← nimbleServerFeed s (UInt8.ofInt received.connectionId)
    received.octets received.environment
  return ({ datagram := received, errorCode, sent }, s)

/-- The rounds of the loop that remain. Returns its result, the calls of `nimbleServerFeed`
and the rest of the queue. -/
def readDatagrams : (rounds : Nat) → List (Received E S) → Server E S →
    Result (Int × List (FedDatagram E S) × List (Received E S) × Server E S)
  | 0, queue, s => pure (0, [], queue, s)
  | _ + 1, [], s => pure (0, [], [], s)
  | _ + 1, .failure code _ :: queue, s => pure (code, [], queue, s)
  | rounds + 1, .datagram received :: queue, s =>
    if received.octets.length = 0 then pure (0, [], queue, s)
    else do
      let (fed, s) ← feedReceived s received
      if fed.errorCode < 0 then return (fed.errorCode, [fed], queue, s)
      let (result, feds, queue, s) ← readDatagrams rounds queue s
      return (result, fed :: feds, queue, s)

/-- The bound of the loop over the queue. -/
def maximumNumberOfDatagramsPerTick : Nat := 64

/-- At most 64 datagrams are read. The first error ends the loop. -/
def nimbleServerReadFromMultiTransport (s : Server E S) (queue : List (Received E S)) :
    Result (Int × List (FedDatagram E S) × List (Received E S) × Server E S) :=
  readDatagrams maximumNumberOfDatagramsPerTick queue s

/-- `qualityError` is the result of `nimbleServerUpdateQualityTick`. The result of reading the
transport is dropped. -/
def nimbleServerUpdate (s : Server E S) (qualityError : Int) (queue : List (Received E S)) :
    Result (Int × List (FedDatagram E S) × List (Received E S) × Server E S) :=
  if qualityError < 0 then pure (qualityError, [], queue, s)
  else do
    let s ← tickParties s
    let (_, fed, queue, s) ← nimbleServerReadFromMultiTransport s queue
    return (0, fed, queue, s)

end NimbleServer
