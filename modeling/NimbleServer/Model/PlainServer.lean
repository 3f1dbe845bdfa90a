import NimbleServer.Model.Operations
import NimbleServer.Model.PlainExternal

/-!
# `NimbleServer.Model.PlainServer`: memory and requests to compute with

A server in memory that is all zero, and the requests of a client that
wants to join and to send steps. The results that name a concrete run are about these.
-/

set_option autoImplicit false

namespace NimbleServer

open NimbleServer.Lib

/-- An empty circular buffer. -/
def zeroBuffer : CircularBuffer where
  data := Vector.replicate _ 0
  head := 0
  tail := 0
  isFull := false
  head_eq_tail := fun _ => rfl

/-- A transport connection that was never used. -/
def blankConnection (E : External) (S : Setup) : TransportConnection E S where
  id := 0
  transportConnectionId := 0
  transportIndex := 0
  connectedFromConnectRequestId := 0
  assignedParty := none
  orderedDatagramInLogic := E.orderedDatagramInLogicInit
  orderedDatagramOutLogic := E.orderedDatagramOutLogicInit
  blobStreamLogicOut := E.blobStreamLogicOutInit [] 0
  nextBlobStreamOutChannel := 0
  blobStreamOutClientRequestId := 0
  isUsed := false
  useDebugStreams := false
  phase := .idle
  gameState := nimbleServerGameStateInit 0
  isInitialized := false

/-- The memory before `nimbleServerInit`. -/
def blankMemory (E : External) (S : Setup) : Server E S where
  transportConnections := tabulate _ fun _ => blankConnection E S
  localParties := nimbleServerLocalPartiesInit S
  game := {
    authoritativeSteps := E.nbsStepsReInit (E.nbsStepsInit 0) 0
    participants := {
      participants := tabulate _ fun _ => nimbleServerParticipantInit E S 0
      participantCount := 0
      freeList := zeroBuffer
      log := [] }
    debugIsFrozen := false }
  freeTransportConnectionList := zeroBuffer
  sessionSecret := 7

/-- A setup for `count` clients, with a reconnect limit of one tick. -/
def plainSetup (count : Nat) : Setup where
  applicationVersion := { major := 1, minor := 0, patch := 0 }
  maxConnectionCount := count
  maxParticipantCount := count
  maxSingleParticipantStepOctetCount := 20
  maxWaitingForReconnectTicks := 1
  maxGameStateOctetCount := 32

/-- A game at step 0 on a new server. -/
def blankGame (E : External) (S : Setup) : Result (Server E S) := do
  nimbleServerReInitWithGame (← nimbleServerInit (blankMemory E S)) 0

/-- The game on a new server is one that `nimbleServerReInitWithGame` has set up. -/
theorem startsGame_of_blankGame {E : External} {S : Setup} {s : Server E S}
    (h : blankGame E S = .ok s) : StartsGame s := by
  obtain ⟨start, -, hs⟩ := bind_eq_ok.mp h
  exact ⟨start, 0, hs⟩

/-- The memory of a server over `plainExternal`. -/
abbrev zeroMemory (S : Setup) : Server plainExternal S := blankMemory plainExternal S

/-- A game at step 0 on a new server over `plainExternal`. -/
abbrev plainGame (count : Nat) : Result (Server plainExternal (plainSetup count)) :=
  blankGame plainExternal (plainSetup count)

/-- Local variables that hold zero and no pointer. -/
def zeroLocals (S : Setup) : Uninitialized S where
  clientTime := 0
  cmd := 0
  participantCount := 0
  participantIndex := fun _ => 0
  downloadClientRequestId := 0
  party := none
  createdParticipant := none

/-- An application with a game state of three octets, and the same local variables in every
round. -/
def plainEnvironment {S : Setup} (locals : Uninitialized S) : Environment S where
  uninitialized := fun _ => locals
  serializedGameState := fun _ => { stepId := 0, gameState := [1, 2, 3] }
  now := fun _ => 0

/-- A datagram: two octets for the ordering logic, the client time and the commands. -/
def datagram (commands : List UInt8) : List UInt8 := [0, 0, 0, 0] ++ commands

/-- A connect request of a compatible client. -/
def plainConnect (clientRequestId : Nat) : ConnectRequest where
  applicationVersion := { major := 1, minor := 0, patch := 0 }
  clientRequestId := clientRequestId
  useDebugStreams := false

/-- One player joins. -/
def onePlayer : JoinGameRequest where
  nonce := 0
  joinGameType := .noSecret
  partyId := 0
  sessionSecret := 0
  players := [0]

/-- One player returns to a party. -/
def returningPlayer (partyId : UInt8) (sessionSecret : UInt64) : JoinGameRequest where
  nonce := 0
  joinGameType := .partySecret
  partyId := partyId
  sessionSecret := sessionSecret
  players := [0]

/-- The octets of a connect request of a compatible client. -/
def connectOctets (requestId : UInt8) : InStream :=
  natToOctets 2 1 ++ natToOctets 2 0 ++ natToOctets 2 0 ++ [requestId, 0]

/-- The octets of a join request. The type is 0 without a secret and 1 with one. -/
def joinOctets (joinGameType partyId playerCount : UInt8) : InStream :=
  [joinGameType, partyId] ++ natToOctets 8 0 ++ [playerCount]

/-- The octets of a GameStep request: the steps of one participant from `firstStepId` on. -/
def gameStep (firstStepId : Nat) (payloads : List (List UInt8)) : InStream :=
  natToOctets 12 0 ++ [1, 0] ++ natToOctets 4 firstStepId ++ [UInt8.ofNat payloads.length] ++
    payloads.flatMap fun payload => UInt8.ofNat payload.length :: payload

/-- Two clients join. The first sends one step and then nothing, the second plays on for 22
steps, and after that the parties are ticked. -/
def firstClientLost (ticks : Nat) : List (Op (plainSetup 2)) :=
  [.receive 0, .receive 1, .join 0 onePlayer (zeroLocals _),
    .join 1 onePlayer (zeroLocals _), .incomingSteps 0 (gameStep 0 [[7]]) (zeroLocals _)] ++
  ((List.range 22).flatMap fun k =>
    [.incomingSteps 1 (gameStep k (List.replicate 5 [8])) (zeroLocals _), .composeRound]) ++
  List.replicate ticks .tick

/-- Three clients join and play. The first two send one step each and then nothing, and the
third plays on for 22 steps. -/
def twoClientsLost (ticks : Nat) : List (Op (plainSetup 3)) :=
  [.receive 0, .receive 1, .receive 2, .join 0 onePlayer (zeroLocals _),
    .join 1 onePlayer (zeroLocals _), .join 2 onePlayer (zeroLocals _),
    .incomingSteps 0 (gameStep 0 [[7]]) (zeroLocals _),
    .incomingSteps 1 (gameStep 0 [[7]]) (zeroLocals _)] ++
  ((List.range 22).flatMap fun k =>
    [.incomingSteps 2 (gameStep k (List.replicate 5 [8])) (zeroLocals _), .composeRound]) ++
  List.replicate ticks .tick

end NimbleServer
