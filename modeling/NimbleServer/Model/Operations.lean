import NimbleServer.Lib.Run
import NimbleServer.Model.Server

/-!
# `NimbleServer.Model.Operations`: the server as a machine

The results of this development are about runs: any number of clients, in any order. `Op`
lists what a run is made of, and `Server.step` applies one operation. An operation is a call
into the server, or a part of one that ends in a state of interest:

* A datagram is `receive`, then one operation for each command in it. A GameStep command is
  `incomingSteps`, then one `composeRound` for each round of the compose loop. So a
  condition on a run can speak about the state in which a single request is handled or a
  single step is composed. `Proofs/Feed.lean` proves that every call of `nimbleServerFeed`
  is such a sequence.
* `tick`, `reInitWithGame`, `hostMigration`, `connectionConnected` and
  `connectionDisconnected` are the other entry points.

`Enabled` says when an operation can come next. A command is handled on a connection that
is used and carries its own index, because `nimbleServerFeed` checks this first. A round is
composed when the loop condition holds.
-/

set_option autoImplicit false

namespace NimbleServer

open NimbleServer.Lib

/-- One step of a run. -/
inductive Op (S : Setup)
  | receive (t : ConnectionPtr)
  | ordered (t : ConnectionPtr) (data : List UInt8)
  | connect (t : ConnectionPtr) (request : ConnectRequest)
  | join (t : ConnectionPtr) (request : JoinGameRequest) (uninitialized : Uninitialized S)
  | incomingSteps (t : ConnectionPtr) (inStream : InStream) (uninitialized : Uninitialized S)
  | composeRound
  | downloadGameState (t : ConnectionPtr) (inStream : InStream) (clientTime : UInt16)
      (uninitialized : Uninitialized S) (serializedGameState : SerializedGameState) (now : Nat)
  | blobStream (t : ConnectionPtr) (inStream : InStream) (clientTime : UInt16) (now : Nat)
  | commitHeader (t : ConnectionPtr)
  | tick
  | reInitWithGame (stepId : StepId)
  | hostMigration (infos : List LocalPartyInfo) (uninitialized : Uninitialized S)
  | connectionConnected (t : ConnectionPtr)
  | connectionDisconnected (t : ConnectionPtr)

variable {E : External} {S : Setup}

/-- The connection is used and carries its own index. -/
def Server.Serving (s : Server E S) (t : ConnectionPtr) : Prop :=
  (s.connection t).isUsed = true ∧ (s.connection t).transportIndex = UInt8.ofNat t.val

/-- The ordering logic takes note of a datagram. -/
def receiveOrdered (s : Server E S) (t : ConnectionPtr) (data : List UInt8) : Server E S :=
  s.setConnection t { s.connection t with
    orderedDatagramInLogic := (E.orderedDatagramInLogicReceive
      (s.connection t).orderedDatagramInLogic data).2 }

namespace Server

/-- The state after one operation. -/
def step (s : Server E S) : Op S → Result (Server E S)
  | .receive t => pure (receiveOnConnection s t)
  | .ordered t data => pure (receiveOrdered s t data)
  | .connect t request =>
    (acceptConnectRequest s (UInt8.ofNat t.val) request).map (·.2)
  | .join t request uninitialized => (joinGame s t request uninitialized).map (·.2)
  | .incomingSteps t inStream uninitialized =>
    pure (readIncomingSteps s t inStream uninitialized).2.2
  | .composeRound => (NimbleServer.composeRound s).map (·.2)
  | .downloadGameState t inStream clientTime uninitialized serializedGameState now =>
    (nimbleServerReqDownloadGameState s t inStream clientTime uninitialized
      serializedGameState now).map (·.2.2.2)
  | .blobStream t inStream clientTime now =>
    pure (nimbleServerReqBlobStream s t inStream clientTime now).2.2.2
  | .commitHeader t =>
    pure (s.setConnection t (transportConnectionCommitHeader (s.connection t)))
  | .tick => tickParties s
  | .reInitWithGame stepId => nimbleServerReInitWithGame s stepId
  | .hostMigration infos uninitialized =>
    (nimbleServerHostMigration s infos uninitialized).map (·.2)
  | .connectionConnected t => pure (nimbleServerConnectionConnected s t).2
  | .connectionDisconnected t => (nimbleServerConnectionDisconnected s t).map (·.2)

/-- When the operation can come next. -/
@[reducible] def Enabled (s : Server E S) : Op S → Prop
  | .ordered t _ => s.Serving t
  | .connect t _ => s.Serving t
  | .join t _ _ => s.Serving t
  | .incomingSteps t _ _ => s.Serving t
  | .composeRound =>
    shouldAdvanceAuthoritative s.game.participants s.game.authoritativeSteps = true
  | .downloadGameState t _ _ _ _ _ => s.Serving t
  | .blobStream t _ _ _ => s.Serving t
  | .commitHeader t => s.Serving t
  | _ => True

end Server

/-- A predicate on operations is decidable if it is so for each kind of operation. -/
@[reducible] def Op.decidableOf (P : Op S → Prop) [∀ t, Decidable (P (.receive t))]
    [∀ t data, Decidable (P (.ordered t data))]
    [∀ t request, Decidable (P (.connect t request))]
    [∀ t request uninitialized, Decidable (P (.join t request uninitialized))]
    [∀ t inStream uninitialized, Decidable (P (.incomingSteps t inStream uninitialized))]
    [Decidable (P .composeRound)]
    [∀ t inStream clientTime uninitialized state now,
      Decidable (P (.downloadGameState t inStream clientTime uninitialized state now))]
    [∀ t inStream clientTime now, Decidable (P (.blobStream t inStream clientTime now))]
    [∀ t, Decidable (P (.commitHeader t))] [Decidable (P .tick)]
    [∀ stepId, Decidable (P (.reInitWithGame stepId))]
    [∀ infos uninitialized, Decidable (P (.hostMigration infos uninitialized))]
    [∀ t, Decidable (P (.connectionConnected t))]
    [∀ t, Decidable (P (.connectionDisconnected t))] : (op : Op S) → Decidable (P op)
  | .receive _ | .ordered _ _ | .connect _ _ | .join _ _ _ | .incomingSteps _ _ _
  | .composeRound | .downloadGameState _ _ _ _ _ _ | .blobStream _ _ _ _ | .commitHeader _
  | .tick | .reInitWithGame _ | .hostMigration _ _ | .connectionConnected _
  | .connectionDisconnected _ => inferInstance

/-- Two comparisons. -/
instance (s : Server E S) (t : ConnectionPtr) : Decidable (s.Serving t) :=
  inferInstanceAs (Decidable (_ ∧ _))

/-- Which operation can come next can be computed. -/
instance (s : Server E S) (op : Op S) : Decidable (s.Enabled op) := Op.decidableOf s.Enabled op

/-- The operations that make up datagrams. -/
@[reducible] def Op.IsDatagram : Op S → Prop
  | .receive _ | .ordered _ _ | .connect _ _ | .join _ _ _ | .incomingSteps _ _ _
  | .composeRound | .downloadGameState _ _ _ _ _ _ | .blobStream _ _ _ _
  | .commitHeader _ => True
  | _ => False

/-- The operations of a running game: datagrams and ticks. -/
def Op.IsPlay (op : Op S) : Prop := op.IsDatagram ∨ op = .tick

/-- A matter of the constructor. -/
instance (op : Op S) : Decidable op.IsDatagram := Op.decidableOf Op.IsDatagram op

/-- Whether the operation is a tick. -/
def Op.isTick : Op S → Bool
  | .tick => true
  | _ => false

/-- `isTick` decides whether an operation is the tick. `Op` has no decidable equality. -/
theorem Op.isTick_iff {op : Op S} : op.isTick = true ↔ op = .tick := by
  cases op <;> simp [isTick]

/-- Decided by the constructor, through `isTick`. -/
instance (op : Op S) : Decidable op.IsPlay :=
  decidable_of_iff (op.IsDatagram ∨ op.isTick = true) (or_congr_right Op.isTick_iff)

/-- The start of a server. -/
def Started (s : Server E S) : Prop :=
  ∃ memory, nimbleServerInit memory = .ok s

/-- The start of a run: a game that `nimbleServerReInitWithGame` sets up on a server,
whatever state the server was in. -/
def StartsGame (s : Server E S) : Prop :=
  ∃ before stepId, nimbleServerReInitWithGame before stepId = .ok s

end NimbleServer
