import NimbleServer.Lib.Trace
import NimbleServer.Model.PlainServer
import NimbleServer.Proofs.Lookup
import NimbleServer.Proofs.OperationRules

/-!
# `NimbleServer.Proofs.Transfers`: blob streams and the downloads that start them

A download request starts a transfer of the game state on its connection, and the client
drives it with blob stream commands. The connection keeps the state of the transfer and the
id of the request that started it. `transportConnectionInit` sets the id to zero and leaves
the transfer as it is, so a slot that is taken into use again still holds the transfer of
its last client.

`transferEvents` records when a connection is initialised and when its transfer is started
or used; `transfer_unused` says that no other step touches a transfer. Of a connection in use
the stored request id is zero until a transfer was started (`RequestIdsTell`). A blob stream
command does not look at it. `transfers_started_iff` says that a use is one of a started
transfer exactly when the stored id is not zero, and `blobStream_without_download` is a first
command that uses a transfer that was never started.
-/

set_option autoImplicit false

namespace NimbleServer

open NimbleServer.Lib

variable {E : External} {S : Setup}

/-! ### The history of transfers -/

/-- What happens to the transfer of a connection. -/
inductive TransferEvent
  -- `transportConnectionInit`
  | connectionInit (c : ConnectionPtr)
  -- `blobStreamLogicOutInit`
  | transferInit (c : ConnectionPtr)
  -- `blobStreamLogicOut` is received on, sent from or reported.
  | transferUse (c : ConnectionPtr)
deriving DecidableEq

/-- The id of a download request, as `nimbleServerReqDownloadGameState` reads it. -/
def downloadRequestId (E : External) (inStream : InStream) (uninitialized : Uninitialized S) :
    UInt8 :=
  (readInto E.fldInStreamReadUInt8 inStream uninitialized.downloadClientRequestId).1

/-- What an operation does to transfers, newest first. A connect request initialises the slot
that it takes into use. A download whose id is the stored one resends, and any other starts a
transfer first. The id 0 is not treated differently here, although the source asserts that it
does not occur. -/
def transferEvents (s : Server E S) : Op S → List TransferEvent
  | .receive t => if (s.connection t).isUsed then [] else [.connectionInit t]
  | .connect t request =>
    match acceptConnectRequest s (UInt8.ofNat t.val) request with
    | .ok (.ok c, _) => if (s.connection c).isUsed then [] else [.connectionInit c]
    | _ => []
  | .downloadGameState t inStream _ uninitialized _ _ =>
    if downloadRequestId E inStream uninitialized
        = (s.connection t).blobStreamOutClientRequestId then [.transferUse t]
    else [.transferUse t, .transferInit t]
  | .blobStream t _ _ _ => [.transferUse t]
  | _ => []

/-- A transfer was started on the connection since it was last initialised. -/
def StartedSinceInit (c : ConnectionPtr) (history : List TransferEvent) : Prop :=
  happenedSince (· = .transferInit c) (· = .connectionInit c) history = true

/-- A use is one of a started transfer. -/
def UsesStarted : TransferEvent → (history : List TransferEvent) → Prop
  | .transferUse c, history => StartedSinceInit c history
  | _, _ => True

/-! ### What a step does to one connection -/

/-- The connection keeps its request id and its transfer, and is not taken into use. -/
structure SameTransfer (x x' : TransportConnection E S) : Prop where
  requestId : x'.blobStreamOutClientRequestId = x.blobStreamOutClientRequestId
  isUsed : x'.isUsed = true → x.isUsed = true
  logic : x'.blobStreamLogicOut = x.blobStreamLogicOut

/-- The connection keeps everything that the answer to a download request is made from. -/
structure SameDownload (x x' : TransportConnection E S) : Prop where
  requestId : x'.blobStreamOutClientRequestId = x.blobStreamOutClientRequestId
  gameState : x'.gameState = x.gameState
  nextBlobStreamOutChannel : x'.nextBlobStreamOutChannel = x.nextBlobStreamOutChannel
  logic : x'.blobStreamLogicOut = x.blobStreamLogicOut

/-- Nothing changed. -/
theorem SameDownload.refl (x : TransportConnection E S) : SameDownload x x :=
  ⟨rfl, rfl, rfl, rfl⟩

/-- One change after the other. -/
theorem SameDownload.trans {x x' x'' : TransportConnection E S} (h : SameDownload x x')
    (h' : SameDownload x' x'') : SameDownload x x'' :=
  ⟨h'.requestId.trans h.requestId, h'.gameState.trans h.gameState,
    h'.nextBlobStreamOutChannel.trans h.nextBlobStreamOutChannel, h'.logic.trans h.logic⟩

/-- The connection after `transportConnectionInit`. -/
structure InitialDownload (x x' : TransportConnection E S) : Prop where
  requestId : x'.blobStreamOutClientRequestId = 0
  nextBlobStreamOutChannel : x'.nextBlobStreamOutChannel = 127
  logic : x'.blobStreamLogicOut = x.blobStreamLogicOut

/-- The events of a step, and what they say about the connection `x` that becomes `x'`. -/
inductive TransferOutcome (c : ConnectionPtr) (x : TransportConnection E S) :
    List TransferEvent → TransportConnection E S → Prop
  | silent {x' : TransportConnection E S} (h : SameTransfer x x') : TransferOutcome c x [] x'
  | taken {x' : TransportConnection E S} (hid : x'.blobStreamOutClientRequestId = 0)
      (hlogic : x'.blobStreamLogicOut = x.blobStreamLogicOut) :
      TransferOutcome c x [.connectionInit c] x'
  | started {x' : TransportConnection E S} (hid : x'.blobStreamOutClientRequestId ≠ 0) :
      TransferOutcome c x [.transferUse c, .transferInit c] x'
  | used {x' : TransportConnection E S}
      (hid : x'.blobStreamOutClientRequestId = x.blobStreamOutClientRequestId)
      (hused : x'.isUsed = x.isUsed) : TransferOutcome c x [.transferUse c] x'
  | other {d : ConnectionPtr} (hdc : d ≠ c) {events : List TransferEvent}
      (hevents : ∀ event ∈ events,
        event = .connectionInit d ∨ event = .transferInit d ∨ event = .transferUse d) :
      TransferOutcome c x events x

/-- A connect request is answered with a connection that is in use, or it takes a slot. -/
theorem acceptConnectRequest_taken {s s' : Server E S} {transportConnectionIndex : UInt8}
    {request : ConnectRequest} {c : ConnectionPtr}
    (h : acceptConnectRequest s transportConnectionIndex request = .ok (.ok c, s')) :
    (s' = s ∧ (s.connection c).isUsed = true) ∨
      ((s.connection c).isUsed = false ∧ ∃ x : TransportConnection E S,
        InitialDownload (s.connection c) x ∧
        ∀ d, s'.connection d = if c = d then x else s.connection d) := by
  unfold acceptConnectRequest nimbleServerCircularBufferIsEmpty nimbleServerCircularBufferRead
    at h
  by_cases hversion : S.applicationVersion ≠ request.applicationVersion
  · rw [if_pos hversion] at h
    cases h
  rw [if_neg hversion] at h
  cases hfind : findExistingConnectionRequest s transportConnectionIndex
      request.clientRequestId with
  | some d =>
    rw [hfind] at h
    cases h
    -- A connection that is found by its request is in use.
    have hmatch := List.find?_some hfind
    simp only [Bool.and_eq_true] at hmatch
    exact .inl ⟨rfl, hmatch.1.1⟩
  | none =>
    rw [hfind] at h
    cases hempty : s.freeTransportConnectionList.isEmpty with
    | true =>
      simp only [hempty, if_true] at h
      cases h
    | false =>
      simp only [hempty, Bool.false_eq_true, if_false, pure_bind] at h
      split at h
      · split at h
        · cases h
        · rename_i hused
          cases h
          refine .inr ⟨Bool.eq_false_iff.mpr hused, _, ?_,
            fun d => Server.connection_setConnection _ _ d _⟩
          exact ⟨rfl, rfl, rfl⟩
      · cases h

/-- Sending on a connection leaves the others alone, and keeps the stored request id. -/
structure SentOn (t c : ConnectionPtr) (x x' : TransportConnection E S) : Prop where
  requestId : x'.blobStreamOutClientRequestId = x.blobStreamOutClientRequestId
  isUsed : x'.isUsed = x.isUsed
  other : t ≠ c → x' = x

/-- A transfer after commands of the client and after parts of it were sent. -/
inductive Driven (logic : E.BlobStreamLogicOut) : E.BlobStreamLogicOut → Prop
  | refl : Driven logic logic
  | receive {logic' : E.BlobStreamLogicOut} (h : Driven logic logic') (inStream : InStream) :
      Driven logic (E.blobStreamLogicOutReceive logic' inStream).2.2
  | prepareSend {logic' : E.BlobStreamLogicOut} (h : Driven logic logic') (now : Nat) :
      Driven logic (E.blobStreamLogicOutPrepareSend logic' now).2

/-- Sending on a connection drives its transfer and keeps the rest of the download. -/
structure SentDownload (t c : ConnectionPtr) (x x' : TransportConnection E S) : Prop
    extends SentOn t c x x' where
  gameState : x'.gameState = x.gameState
  nextBlobStreamOutChannel : x'.nextBlobStreamOutChannel = x.nextBlobStreamOutChannel
  driven : Driven x.blobStreamLogicOut x'.blobStreamLogicOut

/-- Nothing was sent. -/
theorem SentDownload.refl (t c : ConnectionPtr) (x : TransportConnection E S) :
    SentDownload t c x x :=
  ⟨⟨rfl, rfl, fun _ => rfl⟩, rfl, rfl, .refl⟩

/-- Replacing the transfer and the header of the connection that is sent on. -/
theorem SentDownload.setConnection {s : Server E S} {t c : ConnectionPtr}
    {x : TransportConnection E S} (h : SentDownload t c x (s.connection c))
    {orderedDatagramOutLogic : E.OutLogic} {blobStreamLogicOut : E.BlobStreamLogicOut}
    (hdriven : t = c → Driven x.blobStreamLogicOut blobStreamLogicOut) :
    SentDownload t c x ((s.setConnection t { s.connection t with
      orderedDatagramOutLogic, blobStreamLogicOut }).connection c) := by
  rw [Server.connection_setConnection]
  split
  · rename_i htc
    subst htc
    exact ⟨⟨h.requestId, h.isUsed, fun hne => absurd rfl hne⟩, h.gameState,
      h.nextBlobStreamOutChannel, hdriven rfl⟩
  · exact h

/-- None of the three things that sending does to a connection touches the request id, the game
state or the channel. -/
theorem sentDownload_keeps (t c : ConnectionPtr) (x : TransportConnection E S) :
    SendingKeeps t (fun s : Server E S => SentDownload t c x (s.connection c)) where
  commitHeader := fun _ h => h.setConnection fun htc => htc ▸ h.driven
  receive := fun _ inStream h => h.setConnection fun htc => htc ▸ h.driven.receive inStream
  prepareSend := fun _ now h => h.setConnection fun htc => htc ▸ h.driven.prepareSend now

/-- The application does not declare a connection used without initialising it. -/
@[reducible] def Op.InitsConnections : Op S → Prop
  | .connectionConnected _ => False
  | _ => True

/-- It can be evaluated for each operation. -/
instance (op : Op S) : Decidable op.InitsConnections := Op.decidableOf Op.InitsConnections op

/-- The connection after the first part of the operation: a download request with a new id
starts a download. -/
def downloaded (s : Server E S) (c : ConnectionPtr) : Op S → TransportConnection E S
  | .downloadGameState t inStream _ uninitialized state _ =>
    if t = c then startDownload (s.connection c) (downloadRequestId E inStream uninitialized) state
    else s.connection c
  | _ => s.connection c

/-- Everything a step can do to the download of a connection, with the events of the step. -/
inductive DownloadOutcome (s : Server E S) (op : Op S) (c : ConnectionPtr) :
    List TransferEvent → TransportConnection E S → Prop
  | silent {x' : TransportConnection E S} (hop : downloaded s c op = s.connection c)
      (h : SameDownload (s.connection c) x')
      (hused : op.InitsConnections → x'.isUsed = true → (s.connection c).isUsed = true) :
      DownloadOutcome s op c [] x'
  | taken {x' : TransportConnection E S} (h : InitialDownload (s.connection c) x') :
      DownloadOutcome s op c [.connectionInit c] x'
  | started {x' : TransportConnection E S}
      (hid : (downloaded s c op).blobStreamOutClientRequestId ≠ 0)
      (h : SentDownload c c (downloaded s c op) x') :
      DownloadOutcome s op c [.transferUse c, .transferInit c] x'
  | sent {x' : TransportConnection E S} (hop : downloaded s c op = s.connection c)
      (h : SentDownload c c (s.connection c) x') : DownloadOutcome s op c [.transferUse c] x'
  | other {d : ConnectionPtr} (hdc : d ≠ c) (hop : downloaded s c op = s.connection c)
      {events : List TransferEvent}
      (hevents : ∀ event ∈ events,
        event = .connectionInit d ∨ event = .transferInit d ∨ event = .transferUse d) :
      DownloadOutcome s op c events (s.connection c)

namespace DownloadOutcome

variable {s : Server E S} {op : Op S} {c : ConnectionPtr}

/-- What the outcome says about the request id and the transfer. -/
theorem transferOutcome {events : List TransferEvent} {x' : TransportConnection E S}
    (h : DownloadOutcome s op c events x') (hop : op.InitsConnections) :
    TransferOutcome c (s.connection c) events x' := by
  cases h with
  | silent _ h hused => exact .silent ⟨h.requestId, hused hop, h.logic⟩
  | taken h => exact .taken h.requestId h.logic
  | started hid h => exact .started (h.requestId ▸ hid)
  | sent _ h => exact .used h.requestId h.isUsed
  | other hdc _ hevents => exact .other hdc hevents

/-- Nothing happens to the connection. -/
theorem unchanged (hop : downloaded s c op = s.connection c) :
    DownloadOutcome s op c [] (s.connection c) :=
  .silent hop (.refl _) fun _ h => h

/-- Assigning to one connection something that keeps its download. -/
theorem setConnection (hop : downloaded s c op = s.connection c) (t : ConnectionPtr)
    {x : TransportConnection E S} (hx : SameDownload (s.connection t) x)
    (hused : op.InitsConnections → x.isUsed = true → (s.connection t).isUsed = true) :
    DownloadOutcome s op c [] ((s.setConnection t x).connection c) := by
  rw [Server.connection_setConnection]
  split
  · rename_i htc
    subst htc
    exact .silent hop hx hused
  · exact unchanged hop

/-- A slot is taken into use, and `transportConnectionInit` is called on it. -/
theorem initialised (hop : downloaded s c op = s.connection c) {s' : Server E S}
    {t : ConnectionPtr} {x : TransportConnection E S}
    (hx : InitialDownload (s.connection t) x)
    (hs' : ∀ d, s'.connection d = if t = d then x else s.connection d) :
    DownloadOutcome s op c [.connectionInit t] (s'.connection c) := by
  rw [hs']
  split
  · rename_i htc
    subst htc
    exact .taken hx
  · rename_i htc
    refine .other htc hop fun event hmem => ?_
    exact .inl (List.mem_singleton.mp hmem)

end DownloadOutcome

/-- A download resends, or starts a transfer under an id that is not zero. -/
theorem reqDownloadGameState_outcome (s : Server E S) (t : ConnectionPtr) (inStream : InStream)
    (clientTime : UInt16) (uninitialized : Uninitialized S) (state : SerializedGameState)
    (now : Nat) (c : ConnectionPtr) :
    Ensures (nimbleServerReqDownloadGameState s t inStream clientTime uninitialized state now)
      (fun r => DownloadOutcome s
        (.downloadGameState t inStream clientTime uninitialized state now) c
        (transferEvents s (.downloadGameState t inStream clientTime uninitialized state now))
        (r.2.2.2.connection c)) (fun _ => True) := by
  by_cases hzero : downloadRequestId E inStream uninitialized = 0
  · -- The assertion of the source stops here.
    unfold downloadRequestId at hzero
    simp only [nimbleServerReqDownloadGameState, hzero, if_true]
    trivial
  -- After `startDownload` the handler only sends.
  have hsent := (sentDownload_keeps t c ((s.setConnection t (startDownload (s.connection t)
    (downloadRequestId E inStream uninitialized) state)).connection c)).reqDownloadGameState
    inStream clientTime uninitialized state now fun _ => .refl t c _
  refine hsent.mono ?_ fun _ _ => trivial
  intro r hr
  rw [Server.connection_setConnection] at hr
  simp only [transferEvents]
  by_cases htc : t = c
  · subst htc
    rw [if_pos rfl] at hr
    have hop : downloaded s t (.downloadGameState t inStream clientTime uninitialized state now)
        = startDownload (s.connection t) (downloadRequestId E inStream uninitialized) state :=
      if_pos rfl
    by_cases hresend : downloadRequestId E inStream uninitialized
        = (s.connection t).blobStreamOutClientRequestId
    · have hsame : startDownload (s.connection t) (downloadRequestId E inStream uninitialized)
          state = s.connection t := if_pos hresend
      rw [if_pos hresend]
      exact .sent (hop.trans hsame) (hsame ▸ hr)
    · rw [if_neg hresend]
      refine .started ?_ (hop.symm ▸ hr)
      rw [hop, startDownload, if_neg hresend]
      exact hzero
  · -- A download on another connection. Its events are all about that one.
    rw [if_neg htc] at hr
    rw [hr.other htc]
    have hop : downloaded s c (.downloadGameState t inStream clientTime uninitialized state now)
        = s.connection c := if_neg htc
    refine .other htc hop ?_
    split
    · rintro event (_ | ⟨_, ⟨⟩⟩)
      exact .inr (.inr rfl)
    · rintro event (_ | ⟨_, _ | ⟨_, ⟨⟩⟩⟩)
      · exact .inr (.inr rfl)
      · exact .inr (.inl rfl)

/-- Every operation ends in one of these ways, for each connection. -/
theorem step_downloadOutcome (s : Server E S) (op : Op S) (c : ConnectionPtr) :
    Ensures (s.step op) (fun s' => DownloadOutcome s op c (transferEvents s op)
      (s'.connection c)) (fun _ => True) := by
  cases op with
  | receive t =>
    show DownloadOutcome s (.receive t) c
      (if (s.connection t).isUsed then [] else [.connectionInit t])
      ((receiveOnConnection s t).connection c)
    unfold receiveOnConnection
    split
    · exact .unchanged rfl
    · refine .initialised rfl ?_ fun d => Server.connection_setConnection s t d _
      exact ⟨rfl, rfl, rfl⟩
  | ordered t data =>
    refine DownloadOutcome.setConnection rfl t ?_ fun _ h => h
    exact ⟨rfl, rfl, rfl, rfl⟩
  | connect t request =>
    refine Ensures.map (Ensures.of_eq_ok ?_)
    rintro ⟨result, s'⟩ hconnect
    simp only [transferEvents, hconnect]
    cases result with
    -- A request that was refused took no slot.
    | error code =>
      have houtcome := (acceptConnectRequest_ensures s (UInt8.ofNat t.val) request).of_ok hconnect
      cases houtcome with
      | refused code => exact .unchanged rfl
    | ok d =>
      show DownloadOutcome s _ c (if (s.connection d).isUsed then [] else [.connectionInit d]) _
      rcases acceptConnectRequest_taken hconnect with ⟨rfl, hused⟩ | ⟨hfree, x, hx, hs'⟩
      · rw [if_pos hused]
        exact .unchanged rfl
      · rw [hfree]
        exact .initialised rfl hx hs'
  | join t request uninitialized =>
    refine Ensures.map ((joinGame_ensures s t request uninitialized).mono ?_ fun _ _ => trivial)
    rintro ⟨result, s'⟩ hr
    show DownloadOutcome s _ c [] (s'.connection c)
    rcases hr.connection c with heq | ⟨p, -, -, heq⟩
    · rw [heq]
      exact .unchanged rfl
    · rw [heq]
      exact .silent rfl ⟨rfl, rfl, rfl, rfl⟩ fun _ h => h
  | downloadGameState t inStream clientTime uninitialized state now =>
    exact Ensures.map
      (reqDownloadGameState_outcome s t inStream clientTime uninitialized state now c)
  | blobStream t inStream clientTime now =>
    have hsent := (sentDownload_keeps t c (s.connection c)).reqBlobStream inStream clientTime now
      (.refl t c _)
    by_cases htc : t = c
    · subst htc
      exact .sent rfl hsent
    · show DownloadOutcome s _ c [.transferUse t] _
      rw [show (nimbleServerReqBlobStream s t inStream clientTime now).2.2.2.connection c
        = s.connection c from hsent.other htc]
      refine .other htc rfl fun event hmem => ?_
      exact .inr (.inr (List.mem_singleton.mp hmem))
  | commitHeader t =>
    refine DownloadOutcome.setConnection rfl t ?_ fun _ h => h
    exact ⟨rfl, rfl, rfl, rfl⟩
  | tick =>
    have htick : Ensures (tickParties s)
        (fun s' => SameDownload (s.connection c) (s'.connection c) ∧
          ((s'.connection c).isUsed = true → (s.connection c).isUsed = true))
        (fun _ => True) := by
      refine tickParties_ensures ⟨.refl _, id⟩ ?_ fun _ _ _ _ _ => trivial
      intro s1 p s2 hs1 hs2
      rcases hs2.connection c with heq | heq
      · rw [heq]
        exact hs1
      · -- The connection of a dissolved party is no longer used, and keeps all the rest.
        rw [heq]
        exact ⟨hs1.1.trans ⟨rfl, rfl, rfl, rfl⟩, by rintro ⟨⟩⟩
    exact htick.mono (fun _ h => .silent rfl h.1 fun _ => h.2) fun _ h => h
  | incomingSteps _ _ _ | composeRound | reInitWithGame _ | hostMigration _ _ =>
    refine (step_connection_eq s ?_ c).mono (fun s' hs' => ?_) fun _ h => h
    · trivial
    · rw [hs']
      exact .unchanged rfl
  | connectionConnected t =>
    show DownloadOutcome s _ c [] ((nimbleServerConnectionConnected s t).2.connection c)
    unfold nimbleServerConnectionConnected
    split
    · exact .unchanged rfl
    · -- The slot comes into use without `transportConnectionInit`, which `InitsConnections`
      -- excludes.
      refine DownloadOutcome.setConnection rfl t ?_ fun h => h.elim
      exact ⟨rfl, rfl, rfl, rfl⟩
  | connectionDisconnected t =>
    refine Ensures.map ((connectionDisconnected_ensures
      (fun s' => DownloadOutcome s (.connectionDisconnected t) c [] (s'.connection c))
      (.unchanged rfl) t fun p _ _ => ?_).mono (fun _ h => h) (fun _ _ => trivial))
    refine DownloadOutcome.setConnection rfl t ?_ fun _ h => h
    exact ⟨rfl, rfl, rfl, rfl⟩

/-- The same for the transfers, of operations that initialise the connections they take into
use. -/
theorem step_transferOutcome (s : Server E S) {op : Op S} (hop : op.InitsConnections)
    (c : ConnectionPtr) :
    Ensures (s.step op) (fun s' => TransferOutcome c (s.connection c) (transferEvents s op)
      (s'.connection c)) (fun _ => True) :=
  (step_downloadOutcome s op c).mono (fun _ h => h.transferOutcome hop) fun _ h => h

/-- Every change of a transfer is recorded as a use: a step without one leaves the transfer of
the connection as it is, also when the slot is taken into use. -/
theorem transfer_unused {s s' : Server E S} {op : Op S} (hop : op.InitsConnections)
    (hstep : s.step op = .ok s') {c : ConnectionPtr}
    (hunused : .transferUse c ∉ transferEvents s op) :
    (s'.connection c).blobStreamLogicOut = (s.connection c).blobStreamLogicOut := by
  have houtcome := (step_transferOutcome s hop c).of_ok hstep
  generalize transferEvents s op = events, s'.connection c = x' at houtcome hunused ⊢
  cases houtcome with
  | silent h => exact h.logic
  | taken hid hlogic => exact hlogic
  | started hid => exact absurd List.mem_cons_self hunused
  | used hid hused => exact absurd List.mem_cons_self hunused
  | other hdc hevents => rfl

/-! ### Every run -/

/-- Of a connection in use, the stored request id is not zero exactly when a transfer was
started since the connection was initialised. -/
def RequestIdsTell (state : Server E S × List TransferEvent) : Prop :=
  ∀ c, (state.1.connection c).isUsed = true →
    (StartedSinceInit c state.2 ↔ (state.1.connection c).blobStreamOutClientRequestId ≠ 0)

/-- Events of other connections, and uses of this one, do not decide it. -/
theorem startedSinceInit_append {c : ConnectionPtr} {events : List TransferEvent}
    (h : ∀ event ∈ events, event ≠ .transferInit c ∧ event ≠ .connectionInit c)
    (history : List TransferEvent) :
    StartedSinceInit c (events ++ history) ↔ StartedSinceInit c history := by
  unfold StartedSinceInit
  rw [happenedSince_append (fun event hmem => (h event hmem).1)
    (fun event hmem => (h event hmem).2)]

/-- A transfer that was just started. -/
theorem startedSinceInit_transferInit (c : ConnectionPtr) (history : List TransferEvent) :
    StartedSinceInit c (.transferInit c :: history) := by
  refine happenedSince_of_what ?_ history
  rfl

/-- A connection that was just initialised. -/
theorem not_startedSinceInit_connectionInit (c : ConnectionPtr)
    (history : List TransferEvent) : ¬StartedSinceInit c (.connectionInit c :: history) := by
  refine ne_true_of_eq_false (happenedSince_of_reset ?_ ?_ history)
  · rintro ⟨⟩
  · rfl

/-- One step for one connection. -/
theorem TransferOutcome.tells {c : ConnectionPtr} {x x' : TransportConnection E S}
    {events history : List TransferEvent} (h : TransferOutcome c x events x')
    (hx : x.isUsed = true →
      (StartedSinceInit c history ↔ x.blobStreamOutClientRequestId ≠ 0))
    (hused : x'.isUsed = true) :
    StartedSinceInit c (events ++ history) ↔ x'.blobStreamOutClientRequestId ≠ 0 := by
  have huse : ∀ {d : ConnectionPtr},
      ∀ event ∈ [TransferEvent.transferUse d],
        event ≠ .transferInit c ∧ event ≠ .connectionInit c := by
    intro d event hmem
    rw [List.mem_singleton.mp hmem]
    exact ⟨by rintro ⟨⟩, by rintro ⟨⟩⟩
  cases h with
  -- It was in use before, so what was known about its id still holds.
  | silent h =>
    rw [List.nil_append, h.requestId]
    exact hx (h.isUsed hused)
  | taken hid hlogic =>
    have hnot := not_startedSinceInit_connectionInit c history
    exact ⟨fun h => absurd h hnot, fun h => absurd hid h⟩
  -- The start comes before the use in the same operation.
  | started hid =>
    refine ⟨fun _ => hid, fun _ => ?_⟩
    exact (startedSinceInit_append huse _).mpr (startedSinceInit_transferInit c history)
  | used hid hsame =>
    rw [startedSinceInit_append huse, hid]
    exact hx (hsame ▸ hused)
  | @other d hdc _ hevents =>
    rw [startedSinceInit_append fun event hmem => ?_]
    · exact hx hused
    · rcases hevents event hmem with rfl | rfl | rfl
      · exact ⟨by rintro ⟨⟩, fun h => hdc (TransferEvent.connectionInit.inj h)⟩
      · exact ⟨fun h => hdc (TransferEvent.transferInit.inj h), by rintro ⟨⟩⟩
      · exact ⟨by rintro ⟨⟩, by rintro ⟨⟩⟩

/-- The runs of datagrams, ticks and new games. -/
def TransferRun (state : Server E S × List TransferEvent) (op : Op S) : Prop :=
  op.InitsConnections ∧ state.1.Enabled op

/-- The condition can be evaluated along a run. -/
instance (state : Server E S × List TransferEvent) (op : Op S) :
    Decidable (TransferRun state op) :=
  inferInstanceAs (Decidable (_ ∧ _))

/-- One operation keeps it, for all connections. -/
theorem requestIdsTell_step {state : Server E S × List TransferEvent}
    (h : RequestIdsTell state) {op : Op S} (hop : op.InitsConnections) :
    Ensures (recorded Server.step transferEvents state op) RequestIdsTell (fun _ => True) := by
  refine Ensures.of_eq_ok fun state' hstep => ?_
  obtain ⟨s', hs', rfl⟩ := map_eq_ok.mp hstep
  intro c hused
  exact ((step_transferOutcome state.1 hop c).of_ok hs').tells (h c) hused

/-- Before the first datagram no connection is in use. -/
theorem Started.requestIdsTell {start : Server E S} (h : Started start) :
    RequestIdsTell (start, []) := by
  intro c hc
  obtain ⟨memory, hinit⟩ := h
  have hunused := (((nimbleServerInit_ensures memory).of_ok hinit).2.1 c).2.2
  cases hunused.symm.trans hc

/-- It holds along every run from `nimbleServerInit` on. -/
theorem requestIdsTell_reachable {start : Server E S} (hstart : Started start)
    {state : Server E S × List TransferEvent}
    (hrun : Reaches (recorded Server.step transferEvents) TransferRun (start, []) state) :
    RequestIdsTell state :=
  hrun.invariant RequestIdsTell hstart.requestIdsTell
    fun _ _ htells hop => requestIdsTell_step htells hop.1

/-- The transfers that the operation uses were started, as far as the stored request id of
the connection tells. A download that does not resend starts its transfer. -/
@[reducible] def TransferReady (s : Server E S) : Op S → Prop
  | .downloadGameState t inStream _ uninitialized _ _ =>
    downloadRequestId E inStream uninitialized = (s.connection t).blobStreamOutClientRequestId →
      (s.connection t).blobStreamOutClientRequestId ≠ 0
  | .blobStream t _ _ _ => (s.connection t).blobStreamOutClientRequestId ≠ 0
  | _ => True

/-- So can this one. -/
instance (s : Server E S) (op : Op S) : Decidable (TransferReady s op) :=
  Op.decidableOf (TransferReady s) op

/-- Where the stored ids tell, they decide whether the uses of an operation are of started
transfers. -/
theorem eachAllowed_transferEvents_iff {s : Server E S} {history : List TransferEvent}
    (htells : RequestIdsTell (s, history)) {op : Op S} (henabled : s.Enabled op) :
    EachAllowed UsesStarted (transferEvents s op) history ↔ TransferReady s op := by
  cases op with
  | receive t =>
    simp only [transferEvents, TransferReady, iff_true]
    split
    · trivial
    · exact ⟨trivial, trivial⟩
  | connect t request =>
    simp only [transferEvents, TransferReady, iff_true]
    split
    · split
      · trivial
      · exact ⟨trivial, trivial⟩
    · trivial
  | downloadGameState t inStream clientTime uninitialized state now =>
    simp only [transferEvents, TransferReady]
    by_cases hresend : downloadRequestId E inStream uninitialized
        = (s.connection t).blobStreamOutClientRequestId
    · rw [if_pos hresend]
      show StartedSinceInit t history ∧ True ↔ _
      rw [and_true, htells t henabled.1]
      exact ⟨fun h _ => h, fun h => h hresend⟩
    · -- A new download starts the transfer that it then uses.
      rw [if_neg hresend]
      refine ⟨fun _ h => absurd h hresend, fun _ => ?_⟩
      exact ⟨startedSinceInit_transferInit t history, trivial, trivial⟩
  | blobStream t inStream clientTime now =>
    show StartedSinceInit t history ∧ True ↔ _
    rw [and_true]
    exact htells t henabled.1
  | _ => exact ⟨fun _ => trivial, fun _ => trivial⟩

/-- A client asks for the game state with the request id 9. -/
def plainDownload (t : ConnectionPtr) : Op (plainSetup 2) :=
  .downloadGameState t [9] 0 (zeroLocals _) { stepId := 0, gameState := [1, 2, 3] } 0

/-- From `nimbleServerInit` on, in every run of datagrams, ticks and new games, with slots
dissolved and taken into use again: if every operation finds its transfer ready, then every
use in the history was one of a transfer that was started since its connection was
initialised. And in every state of such a run, with or without that condition, the uses of an
operation are of started transfers if and only if it finds its transfer ready. -/
theorem transfers_started_iff {start : Server E S} (hstart : Started start) :
    (∀ s history, Reaches (recorded Server.step transferEvents)
        (fun state op => TransferRun state op ∧ TransferReady state.1 op) (start, [])
        (s, history) → EachAllowed UsesStarted history []) ∧
    ∀ s history op, Reaches (recorded Server.step transferEvents) TransferRun (start, [])
        (s, history) → s.Enabled op →
      (EachAllowed UsesStarted (transferEvents s op) history ↔ TransferReady s op) := by
  constructor
  · intro s history hrun
    refine hrun.eachAllowed ?_
    rintro ⟨s, history⟩ op hrun ⟨⟨-, henabled⟩, hready⟩
    have htells := requestIdsTell_reachable hstart (hrun.mono fun _ _ h => h.1)
    exact (eachAllowed_transferEvents_iff htells henabled).mpr hready
  · intro s history op hrun henabled
    exact eachAllowed_transferEvents_iff (requestIdsTell_reachable hstart hrun) henabled

/-- A client joins, asks for the game state with the id 9 and drives the transfer. -/
theorem transfers_started_iff_download :
    ∃ start s : Server plainExternal (plainSetup 2),
      ∃ history, Started start ∧ Reaches (recorded Server.step transferEvents)
        (fun state op => TransferRun state op ∧ TransferReady state.1 op) (start, [])
        (s, history) ∧
      history.count (.transferUse 0) = 3 ∧ EachAllowed UsesStarted history [] ∧
      EachAllowed UsesStarted (transferEvents s (.blobStream 0 [] 0 0)) history := by
  obtain ⟨start, ⟨s, history⟩, hstart, hrun, hcount, henabled, hready⟩ :=
    exists_run (recorded Server.step transferEvents)
      (fun state op => TransferRun state op ∧ TransferReady state.1 op)
      (fun state => state.2.count (.transferUse 0) = 3 ∧
        state.1.Enabled (.blobStream 0 [] 0 0) ∧ TransferReady state.1 (.blobStream 0 [] 0 0))
      ((nimbleServerInit (zeroMemory (plainSetup 2))).map fun s => (s, []))
      [.reInitWithGame 0, .receive 0, .join 0 onePlayer (zeroLocals _), plainDownload 0,
        .blobStream 0 [] 0 0, plainDownload 0] (by decide +kernel)
  obtain ⟨start, hinit, rfl⟩ := map_eq_ok.mp hstart
  have hall := transfers_started_iff ⟨_, hinit⟩
  refine ⟨start, s, history, ⟨_, hinit⟩, hrun, hcount, hall.1 s history hrun, ?_⟩
  exact (hall.2 s history _ (hrun.mono fun _ _ h => h.1) henabled).mpr hready

/-- The first datagram on index 0 holds a blob stream command. The server receives it on a
transfer that was never started, and sends from it. -/
theorem blobStream_without_download :
    ∃ start s : Server plainExternal (plainSetup 2), Started start ∧
      Reaches (recorded Server.step transferEvents) TransferRun (start, [])
        (s, [.connectionInit 0]) ∧
      s.Enabled (.blobStream 0 [] 0 0) ∧
      ¬EachAllowed UsesStarted (transferEvents s (.blobStream 0 [] 0 0))
        [.connectionInit 0] ∧
      ∃ result sent s', nimbleServerFeed start 0 (datagram [5])
        (plainEnvironment (zeroLocals _)) = .ok (result, sent, s') ∧ sent ≠ [] := by
  obtain ⟨start, ⟨s, history⟩, hstart, hrun, rfl, henabled⟩ :=
    exists_run (recorded Server.step transferEvents) TransferRun
      (fun state => state.2 = [.connectionInit 0] ∧ state.1.Enabled (.blobStream 0 [] 0 0))
      ((nimbleServerInit (zeroMemory (plainSetup 2))).map fun s => (s, []))
      [.receive 0] (by decide +kernel)
  obtain ⟨start, hinit, rfl⟩ := map_eq_ok.mp hstart
  refine ⟨start, s, ⟨_, hinit⟩, hrun, henabled, ?_, ?_⟩
  · rintro ⟨hused, -⟩
    exact not_startedSinceInit_connectionInit 0 [] hused
  · have hfeed : (nimbleServerInit (zeroMemory (plainSetup 2))).toOption.any (fun start =>
        (nimbleServerFeed start 0 (datagram [5])
          (plainEnvironment (zeroLocals _))).toOption.any fun r => !r.2.1.isEmpty) = true := by
      decide +kernel
    rw [hinit] at hfeed
    obtain ⟨⟨result, sent, s'⟩, hok, hsent⟩ := exists_ok_of_any (Option.any_some ▸ hfeed)
    refine ⟨result, sent, s', hok, ?_⟩
    rintro rfl
    cases hsent

end NimbleServer
