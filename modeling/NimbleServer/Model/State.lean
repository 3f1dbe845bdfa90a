import NimbleServer.Lib.Ensures
import NimbleServer.Lib.Ring
import NimbleServer.Model.External

/-!
# `NimbleServer.Model.State`: the data of the server

The structs of `src/src/include/nimble-server/`, with the fields the modelled functions read
or write. A pointer into one of the server's arrays is the index of the element it points
to, in the `Fin` type of the array's size, so a pointer that is not null always points at
an element. A null pointer is `none`.

The array sizes come from the setup the server was initialised with. They never change, so
they are parameters of the types and not fields: `participantCapacity` is
`S.maxParticipantCount`, and `capacityCount` is `S.maxConnectionCount`.

Two things are recorded that the source does not store, and that no modelled function reads:

* `Participants.log` is the history of the current game, newest first: who joined, which
  predicted step entered which buffer, and which authoritative step was composed from
  which participants. The source reports the same events as log lines.
* `TransportConnection.isInitialized` says whether `transportConnectionInit` has run since
  the connection last became used.

`Fault` lists the places where the source cannot go on: a `CLOG_ERROR`, a `CLOG_ASSERT` that
fails, a null or wild pointer, an index outside an array. A function that can reach one
returns in `Result`. The one assertion that is not a fault is the closing assertion of
`composeOneAuthoritativeStep`; it is reported in the function's result instead.
-/

set_option autoImplicit false

namespace NimbleServer

open NimbleServer.Lib

/-! ### Faults -/

/-- The two lists of free slots. It labels the fault of a circular buffer with the list the
buffer implements. -/
inductive FreeList
  | participants
  | transportConnections
deriving DecidableEq, Repr

/-- The places where the source cannot go on. -/
inductive Fault
  -- `CLOG_ERROR("overwriting circular buffer")`.
  | circularBufferOverwrite (list : FreeList)
  -- `CLOG_ERROR("buffer was empty")`.
  | circularBufferEmpty (list : FreeList)
  -- `CLOG_ASSERT(maxCount > 0)` and `CLOG_ASSERT(maxCount < ...)`.
  | participantCapacity
  -- `CLOG_ERROR("illegal number of connections")` and its neighbours in
  -- `nimbleServerInit`.
  | illegalSetup
  -- `CLOG_ASSERT(localParticipantCount == 1)`.
  | localParticipantCount
  -- `CLOG_C_ERROR("illegal participant id")`.
  | illegalParticipantId
  -- `CLOG_ERROR("internal error, participant is already used ...")`.
  | participantAlreadyUsed
  -- `CLOG_ERROR("internal error, tried to free an unused participant")`.
  | participantNotUsed
  -- `CLOG_ASSERT(self->participantCount > 0)`.
  | participantCount
  -- `CLOG_C_ERROR("steps for participant is corrupt")`.
  | stepsCorrupt
  -- A used participant whose `inParty` is null.
  | nullParty
  -- `CLOG_C_ERROR("Illegal party id")`.
  | illegalPartyId
  -- The party lookup reads past the parties array.
  | partyOutOfBounds
  -- `CLOG_ASSERT(party->isUsed)`.
  | partyNotUsed
  -- `CLOG_ASSERT(self->partiesCount != 0)`.
  | partiesCount
  -- A pointer that was never assigned is followed.
  | uninitializedPointer
  -- `CLOG_C_ERROR("the transport index from free list was not free")`.
  | transportConnectionUsed
  -- A transport connection index past the array.
  | connectionOutOfBounds
  -- `CLOG_ASSERT(downloadClientRequestId != 0)`.
  | downloadRequestId
  -- The loop of `nimbleServerComposeAuthoritativeSteps` did not end within the window.
  | composeDiverged
  -- The loop of `nimbleServerFeed` went on without consuming an octet.
  | feedDiverged
deriving DecidableEq, Repr

/-- A computation that can stop at a `Fault`. -/
abbrev Result (α : Type) := Except Fault α

/-! ### errors.h -/

/-- A request could not be read, or an answer could not be written. -/
def NimbleServerErrSerialize : Int := -41
/-- The client has another application version. -/
def NimbleServerErrSerializeVersion : Int := -44
/-- All participants are used. -/
def NimbleServerErrSessionFull : Int := -54
/-- The party of the connection is dissolved. -/
def NimbleServerErrDatagramFromDisconnectedConnection : Int := -42
/-- All parties are in use. -/
def NimbleServerErrOutOfParticipantMemory : Int := -43

/-! ### circular_buffer.h -/

/-- The number of cells of a circular buffer. -/
abbrev NIMBLE_SERVER_CIRCULAR_BUFFER_SIZE : Nat := 64

/-- `NimbleServerCircularBuffer`. -/
abbrev CircularBuffer := Ring UInt8 NIMBLE_SERVER_CIRCULAR_BUFFER_SIZE

/-- The number of transport connections of a server. -/
abbrev NIMBLE_NIMBLE_SERVER_MAX_TRANSPORT_CONNECTIONS : Nat := 64

/-- A pointer to a transport connection. -/
abbrev ConnectionPtr := Fin NIMBLE_NIMBLE_SERVER_MAX_TRANSPORT_CONNECTIONS

/-- The index of a connection fits into an octet. -/
theorem toNat_connectionOctet (c : ConnectionPtr) : (UInt8.ofNat c.val).toNat = c.val := by
  have hc := c.isLt
  simp only [NIMBLE_NIMBLE_SERVER_MAX_TRANSPORT_CONNECTIONS] at hc
  exact UInt8.toNat_ofNat_of_lt' (by show c.val < 256; omega)

/-! ### server.h -/

/-- `NimbleServerSetup`. -/
structure Setup where
  applicationVersion : Version
  maxConnectionCount : Nat
  maxParticipantCount : Nat
  maxSingleParticipantStepOctetCount : Nat
  maxWaitingForReconnectTicks : Nat
  maxGameStateOctetCount : Nat

/-- A pointer to a party. -/
abbrev PartyPtr (S : Setup) := Fin S.maxConnectionCount

/-- A pointer to a participant. -/
abbrev ParticipantPtr (S : Setup) := Fin S.maxParticipantCount

/-- What local variables of the source hold before anything is assigned to them. A read that
fails leaves them so. `none` is a pointer that points at nothing. -/
structure Uninitialized (S : Setup) where
  clientTime : UInt16
  cmd : UInt8
  participantCount : UInt8
  -- One value for each round of the loop the variable is declared in.
  participantIndex : Nat → UInt8
  downloadClientRequestId : UInt8
  party : Option (PartyPtr S)
  createdParticipant : Option (ParticipantPtr S)

/-! ### connection_quality.h -/

/-- `NimbleServerConnectionQualityDisconnectReason`. -/
inductive DisconnectReason
  | keep
  | notProvidingStepsInTime
deriving DecidableEq, Repr

/-- `NimbleServerConnectionQuality`. -/
structure ConnectionQuality where
  forcedStepInRowCounter : Nat
  providedStepsInARow : Nat
  addedStepsToBufferCounter : Nat
  hasAddedFirstAcceptedSteps : Bool
deriving DecidableEq, Repr

/-! ### participant.h -/

/-- `NimbleServerParticipantState`. -/
inductive ParticipantState
  | justJoined
  | normal
  | waitingForRejoin
  | leaving
  | destroyed
deriving DecidableEq, Repr

/-- `NimbleServerParticipant`. -/
structure Participant (E : External) (S : Setup) where
  localIndex : Nat
  id : UInt8
  isUsed : Bool
  steps : E.Steps
  inParty : Option (PartyPtr S)
  state : ParticipantState

/-- What happened in the current game. -/
inductive Event (E : External) (S : Setup)
  -- A participant was allocated.
  | joined (participant : ParticipantPtr S)
  -- A predicted step entered a participant's buffer, which is `steps` afterwards.
  | stored (participant : ParticipantPtr S) (stepId : StepId) (steps : E.Steps)
  -- An authoritative step was composed and written to the authoritative buffer.
  -- `participants` are the participants it was composed from.
  | composed (participants : Vector (Participant E S) S.maxParticipantCount) (stepId : StepId)
      (octets : List UInt8)

/-! ### participants.h -/

/-- `NimbleServerParticipants`. -/
structure Participants (E : External) (S : Setup) where
  participants : Vector (Participant E S) S.maxParticipantCount
  participantCount : Nat
  freeList : CircularBuffer
  log : List (Event E S)

/-! ### local_party.h and local_parties.h -/

/-- `NimbleServerLocalPartyState`. -/
inductive LocalPartyState
  | normal
  | waitingForReJoin
  | dissolved
deriving DecidableEq, Repr

/-- `NimbleServerLocalParty`. `participantReferences` has `participantReferenceCount`
elements. `impedingDisconnectCounter` is the one field of `delayedQuality`. -/
structure LocalParty (S : Setup) where
  id : UInt8
  isUsed : Bool
  state : LocalPartyState
  participantReferences : List (ParticipantPtr S)
  transportConnection : Option ConnectionPtr
  waitingForReconnectTimer : Nat
  waitingForReconnectMaxTimer : Nat
  quality : ConnectionQuality
  impedingDisconnectCounter : Nat
  highestReceivedStepId : StepId
  stepsInBufferCount : Nat
deriving DecidableEq

/-- `NimbleServerLocalParties`. -/
structure LocalParties (S : Setup) where
  parties : Vector (LocalParty S) S.maxConnectionCount
  partiesCount : Nat

/-! ### game.h and game_state.h -/

/-- `NimbleServerGame`. -/
structure Game (E : External) (S : Setup) where
  authoritativeSteps : E.Steps
  participants : Participants E S
  debugIsFrozen : Bool

/-- `NimbleServerGameState`. The octet count is the length of `state`. -/
structure GameState where
  state : List UInt8
  capacity : Nat
  stepId : StepId

/-! ### transport_connection.h -/

/-- `NimbleServerTransportConnectionPhase`. -/
inductive TransportConnectionPhase
  | idle
  | waitingForValidConnect
  | connected
  | initialStateDetermined
  | disconnected
deriving DecidableEq, Repr

/-- `NimbleServerTransportConnection`. -/
structure TransportConnection (E : External) (S : Setup) where
  id : UInt8
  transportConnectionId : UInt8
  transportIndex : UInt8
  connectedFromConnectRequestId : Nat
  assignedParty : Option (PartyPtr S)
  orderedDatagramInLogic : E.InLogic
  orderedDatagramOutLogic : E.OutLogic
  blobStreamLogicOut : E.BlobStreamLogicOut
  nextBlobStreamOutChannel : Nat
  blobStreamOutClientRequestId : UInt8
  isUsed : Bool
  useDebugStreams : Bool
  phase : TransportConnectionPhase
  gameState : GameState
  isInitialized : Bool

/-- `NimbleServer`. -/
structure Server (E : External) (S : Setup) where
  transportConnections :
    Vector (TransportConnection E S) NIMBLE_NIMBLE_SERVER_MAX_TRANSPORT_CONNECTIONS
  localParties : LocalParties S
  game : Game E S
  freeTransportConnectionList : CircularBuffer
  sessionSecret : UInt64

/-! ### Following a pointer

Reading and assigning through a pointer, with the lemmas that say what one sees of the
other. Later proofs use these and do not look into the arrays. -/

variable {E : External} {S : Setup}

namespace Participants

/-- The participant a pointer points at. -/
def get (self : Participants E S) (i : ParticipantPtr S) : Participant E S :=
  self.participants[i]

/-- Assign to the participant a pointer points at. -/
def set (self : Participants E S) (i : ParticipantPtr S) (x : Participant E S) :
    Participants E S :=
  { self with participants := self.participants.set i x }

/-- A read after an assignment. -/
theorem get_set (self : Participants E S) (i j : ParticipantPtr S) (x : Participant E S) :
    (self.set i x).get j = if i = j then x else self.get j := by
  unfold get set
  simp [Vector.getElem_set, Fin.ext_iff]

/-- The slot that is assigned to holds the new value. -/
@[simp] theorem get_set_self (self : Participants E S) (i : ParticipantPtr S)
    (x : Participant E S) : (self.set i x).get i = x := by
  rw [get_set, if_pos rfl]

/-- The other slots are left as they are. -/
theorem get_set_ne (self : Participants E S) {i j : ParticipantPtr S} (x : Participant E S)
    (h : i ≠ j) : (self.set i x).get j = self.get j := by
  rw [get_set, if_neg h]

/-- Assigning to a participant does not count it. -/
@[simp] theorem set_participantCount (self : Participants E S) (i : ParticipantPtr S)
    (x : Participant E S) : (self.set i x).participantCount = self.participantCount := rfl

/-- Assigning to a participant does not touch the free list. -/
@[simp] theorem set_freeList (self : Participants E S) (i : ParticipantPtr S)
    (x : Participant E S) : (self.set i x).freeList = self.freeList := rfl

/-- Assigning to a participant is no event. -/
@[simp] theorem set_log (self : Participants E S) (i : ParticipantPtr S)
    (x : Participant E S) : (self.set i x).log = self.log := rfl

/-- The number of used participants. -/
def usedCount (self : Participants E S) : Nat :=
  self.participants.countP (·.isUsed)

end Participants

namespace LocalParties

/-- The party a pointer points at. -/
def get (self : LocalParties S) (p : PartyPtr S) : LocalParty S := self.parties[p]

/-- Assign to the party a pointer points at. -/
def set (self : LocalParties S) (p : PartyPtr S) (x : LocalParty S) : LocalParties S :=
  { self with parties := self.parties.set p x }

/-- A read after an assignment. -/
theorem get_set (self : LocalParties S) (p q : PartyPtr S) (x : LocalParty S) :
    (self.set p x).get q = if p = q then x else self.get q := by
  unfold get set
  simp [Vector.getElem_set, Fin.ext_iff]

/-- The slot that is assigned to holds the new value. -/
@[simp] theorem get_set_self (self : LocalParties S) (p : PartyPtr S) (x : LocalParty S) :
    (self.set p x).get p = x := by
  rw [get_set, if_pos rfl]

/-- Assigning to a party does not count it. -/
@[simp] theorem set_partiesCount (self : LocalParties S) (p : PartyPtr S) (x : LocalParty S) :
    (self.set p x).partiesCount = self.partiesCount := rfl

/-- The number of parties in use. -/
def usedCount (self : LocalParties S) : Nat :=
  self.parties.countP (·.isUsed)

end LocalParties

namespace Server

/-- The party a pointer points at. -/
def party (s : Server E S) (p : PartyPtr S) : LocalParty S := s.localParties.get p

/-- The participant a pointer points at. -/
def participant (s : Server E S) (i : ParticipantPtr S) : Participant E S :=
  s.game.participants.get i

/-- The transport connection a pointer points at. -/
def connection (s : Server E S) (c : ConnectionPtr) : TransportConnection E S :=
  s.transportConnections[c]

/-- Assign to the party a pointer points at. -/
def setParty (s : Server E S) (p : PartyPtr S) (x : LocalParty S) : Server E S :=
  { s with localParties := s.localParties.set p x }

/-- Assign to the participant a pointer points at. -/
def setParticipant (s : Server E S) (i : ParticipantPtr S) (x : Participant E S) :
    Server E S :=
  { s with game := { s.game with participants := s.game.participants.set i x } }

/-- Assign to the participants. -/
def setParticipants (s : Server E S) (x : Participants E S) : Server E S :=
  { s with game := { s.game with participants := x } }

/-- Assign to the transport connection a pointer points at. -/
def setConnection (s : Server E S) (c : ConnectionPtr) (x : TransportConnection E S) :
    Server E S :=
  { s with transportConnections := s.transportConnections.set c x }

/-- A party after an assignment to one of them. -/
theorem party_setParty (s : Server E S) (p q : PartyPtr S) (x : LocalParty S) :
    (s.setParty p x).party q = if p = q then x else s.party q :=
  LocalParties.get_set _ _ _ _

/-- A participant after an assignment to one of them. -/
theorem participant_setParticipant (s : Server E S) (i j : ParticipantPtr S)
    (x : Participant E S) :
    (s.setParticipant i x).participant j = if i = j then x else s.participant j :=
  Participants.get_set _ _ _ _

/-- A connection after an assignment to one of them. -/
theorem connection_setConnection (s : Server E S) (c d : ConnectionPtr)
    (x : TransportConnection E S) :
    (s.setConnection c x).connection d = if c = d then x else s.connection d := by
  unfold connection setConnection
  simp [Vector.getElem_set, Fin.ext_iff]

/-- Assigning to a party changes no participant. -/
@[simp] theorem participant_setParty (s : Server E S) (p : PartyPtr S) (x : LocalParty S)
    (i : ParticipantPtr S) : (s.setParty p x).participant i = s.participant i := rfl

/-- Assigning to a party changes no connection. -/
@[simp] theorem connection_setParty (s : Server E S) (p : PartyPtr S) (x : LocalParty S)
    (c : ConnectionPtr) : (s.setParty p x).connection c = s.connection c := rfl

/-- Assigning to a party changes nothing of the game. -/
@[simp] theorem game_setParty (s : Server E S) (p : PartyPtr S) (x : LocalParty S) :
    (s.setParty p x).game = s.game := rfl

/-- Assigning to a party does not change the list of free connections. -/
@[simp] theorem freeTransportConnectionList_setParty (s : Server E S) (p : PartyPtr S)
    (x : LocalParty S) :
    (s.setParty p x).freeTransportConnectionList = s.freeTransportConnectionList := rfl

/-- Assigning to a participant changes no party. -/
@[simp] theorem party_setParticipant (s : Server E S) (i : ParticipantPtr S)
    (x : Participant E S) (p : PartyPtr S) :
    (s.setParticipant i x).party p = s.party p := rfl

/-- Assigning to a participant changes no connection. -/
@[simp] theorem connection_setParticipant (s : Server E S) (i : ParticipantPtr S)
    (x : Participant E S) (c : ConnectionPtr) :
    (s.setParticipant i x).connection c = s.connection c := rfl

/-- Assigning to a participant does not change the parties or their number. -/
@[simp] theorem localParties_setParticipant (s : Server E S) (i : ParticipantPtr S)
    (x : Participant E S) : (s.setParticipant i x).localParties = s.localParties := rfl

/-- Assigning to a participant does not change the list of free connections. -/
@[simp] theorem freeTransportConnectionList_setParticipant (s : Server E S)
    (i : ParticipantPtr S) (x : Participant E S) :
    (s.setParticipant i x).freeTransportConnectionList = s.freeTransportConnectionList := rfl

/-- Assigning to a connection changes no party. -/
@[simp] theorem party_setConnection (s : Server E S) (c : ConnectionPtr)
    (x : TransportConnection E S) (p : PartyPtr S) :
    (s.setConnection c x).party p = s.party p := rfl

/-- Assigning to a connection changes no participant. -/
@[simp] theorem participant_setConnection (s : Server E S) (c : ConnectionPtr)
    (x : TransportConnection E S) (i : ParticipantPtr S) :
    (s.setConnection c x).participant i = s.participant i := rfl

/-- Assigning to a connection does not change the parties or their number. -/
@[simp] theorem localParties_setConnection (s : Server E S) (c : ConnectionPtr)
    (x : TransportConnection E S) : (s.setConnection c x).localParties = s.localParties := rfl

/-- Assigning to a connection changes nothing of the game. -/
@[simp] theorem game_setConnection (s : Server E S) (c : ConnectionPtr)
    (x : TransportConnection E S) : (s.setConnection c x).game = s.game := rfl

/-- Assigning to a connection does not change the list of free connections. -/
@[simp] theorem freeTransportConnectionList_setConnection (s : Server E S) (c : ConnectionPtr)
    (x : TransportConnection E S) :
    (s.setConnection c x).freeTransportConnectionList = s.freeTransportConnectionList := rfl

end Server

end NimbleServer
