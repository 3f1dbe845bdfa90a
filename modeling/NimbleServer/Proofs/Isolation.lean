import NimbleServer.Lib.Isolation
import NimbleServer.Proofs.Downloads

/-!
# `NimbleServer.Proofs.Isolation`: what a client can learn of the others by downloads

Everybody shares the game, and is meant to. The connections are not shared: each slot has its
own ordering of datagrams in both directions, its own copy of the game state and its own
transfer. Here it is proved that the slots are kept apart, over any two runs of any two
servers. What is asked of a connection is a `LineInput`, and what comes back a `LineOutput`.
If a slot gets the same inputs in the same order in both runs, then it gives the same
outputs: the same verdicts on datagrams, the same results and the same octets sent
(`clients_are_isolated`). The runs can differ in everything else: other clients, other games,
and earlier clients of the same slot.

The last holds by a hair. `transportConnectionInit` sets up everything that is looked at later,
except for the transfer of the client before, which stays in place. It is hidden by the
request id: as long as a client asks for a download before it sends commands to the transfer
(`AsksFirst`), it never sees it. The server does not check this: `Proofs/Transfers.lean` has
a client that does not ask, and is served from a transfer that it did not start. `Alike` is
what two slots have in common until the first download.
-/

set_option autoImplicit false

namespace NimbleServer

open NimbleServer.Lib

variable {E : External} {S : Setup}

/-! ### What a connection is asked, and what it answers -/

deriving instance DecidableEq for SerializedGameState

/-- What is asked of a connection. -/
inductive LineInput
  -- The slot is taken into use.
  | init
  | ordered (data : List UInt8)
  -- The request id, and what follows it in the datagram.
  | download (requestId : UInt8) (inStream : InStream) (clientTime : UInt16)
      (state : SerializedGameState) (now : Nat)
  | blobStream (inStream : InStream) (clientTime : UInt16) (now : Nat)
  | commitHeader
  -- `nimbleServerConnectionDisconnected` found a party in use.
  | dropped
deriving DecidableEq

/-- What comes back. -/
inductive LineOutput
  | nothing
  | received (verdict : Except Int Nat)
  | answered (result : Int) (rest : InStream) (sent : List (List UInt8))

/-- What an operation asks of connection `c`, with the answer. A connect request that came on
another connection can take the slot `c` into use. -/
def lineEvent (c : ConnectionPtr) (s : Server E S) : Op S → Option (LineInput × LineOutput)
  | .receive t =>
    if t = c ∧ (s.connection c).isUsed = false then some (.init, .nothing) else none
  | .ordered t data =>
    if t = c then some (.ordered data, .received
      (E.orderedDatagramInLogicReceive (s.connection c).orderedDatagramInLogic data).1)
    else none
  | .connect t request =>
    match acceptConnectRequest s (UInt8.ofNat t.val) request with
    | .ok (_, s') =>
      if (s.connection c).isUsed = false ∧ (s'.connection c).isUsed = true then
        some (.init, .nothing)
      else none
    | .error _ => none
  | .downloadGameState t inStream clientTime uninitialized state now =>
    if t = c then
      let request := readInto E.fldInStreamReadUInt8 inStream uninitialized.downloadClientRequestId
      match nimbleServerReqDownloadGameState s c inStream clientTime uninitialized state now with
      | .ok (result, rest, sent, _) =>
        some (.download request.1 request.2 clientTime state now, .answered result rest sent)
      | .error _ => none
    else none
  | .blobStream t inStream clientTime now =>
    if t = c then
      let answer := nimbleServerReqBlobStream s c inStream clientTime now
      some (.blobStream inStream clientTime now, .answered answer.1 answer.2.1 answer.2.2.1)
    else none
  | .commitHeader t => if t = c then some (.commitHeader, .nothing) else none
  | .connectionDisconnected t =>
    if t = c then
      match nimbleServerConnectionDisconnected s c with
      | .ok (result, _) => if result = 0 then some (.dropped, .nothing) else none
      | .error _ => none
    else none
  | _ => none

/-- The client of `c` asks for a download before it sends commands to the transfer, and the
application does not declare the slot used without initialising it. -/
@[reducible] def AsksFirst (c : ConnectionPtr) (s : Server E S) : Op S → Prop
  | .blobStream t _ _ _ => t = c → (s.connection c).blobStreamOutClientRequestId ≠ 0
  | .connectionConnected t => t ≠ c
  | _ => True

/-- The condition can be evaluated for each operation. -/
instance (c : ConnectionPtr) (s : Server E S) (op : Op S) : Decidable (AsksFirst c s op) :=
  Op.decidableOf (AsksFirst c s) op

/-! ### Two connections that cannot be told apart -/

/-- The two connections answer alike. The transfers are the same once there was a download. -/
structure Alike (x y : TransportConnection E S) : Prop where
  inLogic : x.orderedDatagramInLogic = y.orderedDatagramInLogic
  outLogic : x.orderedDatagramOutLogic = y.orderedDatagramOutLogic
  channel : x.nextBlobStreamOutChannel = y.nextBlobStreamOutChannel
  requestId : x.blobStreamOutClientRequestId = y.blobStreamOutClientRequestId
  gameState : x.gameState = y.gameState
  transfer : x.blobStreamOutClientRequestId ≠ 0 → x.blobStreamLogicOut = y.blobStreamLogicOut

/-- The connection is as `transportConnectionInit` leaves it. -/
structure InitialLine (x : TransportConnection E S) : Prop where
  inLogic : x.orderedDatagramInLogic = E.orderedDatagramInLogicInit
  outLogic : x.orderedDatagramOutLogic = E.orderedDatagramOutLogicInit
  channel : x.nextBlobStreamOutChannel = 127
  requestId : x.blobStreamOutClientRequestId = 0
  gameState : x.gameState = { state := [], capacity := S.maxGameStateOctetCount, stepId := 0 }

/-- The connection keeps everything that it answers from, and is not taken into use. -/
structure SameLine (x x' : TransportConnection E S) : Prop extends SameDownload x x' where
  inLogic : x'.orderedDatagramInLogic = x.orderedDatagramInLogic
  outLogic : x'.orderedDatagramOutLogic = x.orderedDatagramOutLogic
  isUsed : x'.isUsed = true → x.isUsed = true

/-- Nothing happened to the connection. -/
theorem SameLine.refl (x : TransportConnection E S) : SameLine x x :=
  ⟨.refl x, rfl, rfl, id⟩

/-- One change after the other. -/
theorem SameLine.trans {x x' x'' : TransportConnection E S} (h : SameLine x x')
    (h' : SameLine x' x'') : SameLine x x'' :=
  ⟨h.toSameDownload.trans h'.toSameDownload, h'.inLogic.trans h.inLogic,
    h'.outLogic.trans h.outLogic, h.isUsed ∘ h'.isUsed⟩

/-- `transportConnectionInit` sets up all of it. -/
theorem initialLine_init (x : TransportConnection E S) :
    InitialLine (transportConnectionInit x S.maxGameStateOctetCount) :=
  ⟨rfl, rfl, rfl, rfl, rfl⟩

namespace Alike

variable {x y : TransportConnection E S}

/-- It does not matter which of the two is named first. -/
theorem symm (h : Alike x y) : Alike y x where
  inLogic := h.inLogic.symm
  outLogic := h.outLogic.symm
  channel := h.channel.symm
  requestId := h.requestId.symm
  gameState := h.gameState.symm
  transfer := fun hid => (h.transfer (h.requestId ▸ hid)).symm

/-- Two slots that were just taken into use, whoever used them before. -/
theorem init (hx : InitialLine x) (hy : InitialLine y) : Alike x y where
  inLogic := hx.inLogic.trans hy.inLogic.symm
  outLogic := hx.outLogic.trans hy.outLogic.symm
  channel := hx.channel.trans hy.channel.symm
  requestId := hx.requestId.trans hy.requestId.symm
  gameState := hx.gameState.trans hy.gameState.symm
  -- The transfer of the client before is not looked at, since no id is stored.
  transfer := fun hid => absurd hx.requestId hid

/-- A connection that keeps what it answers from stays alike. -/
theorem sameLine (h : Alike x y) {x' : TransportConnection E S} (hx : SameLine x x') :
    Alike x' y where
  inLogic := hx.inLogic.trans h.inLogic
  outLogic := hx.outLogic.trans h.outLogic
  channel := hx.nextBlobStreamOutChannel.trans h.channel
  requestId := hx.requestId.trans h.requestId
  gameState := hx.gameState.trans h.gameState
  transfer := fun hid => hx.logic.trans (h.transfer (hx.requestId ▸ hid))

/-- The same function of the ordering logic on both sides. -/
theorem setInLogic (h : Alike x y) (f : E.InLogic → E.InLogic) :
    Alike { x with orderedDatagramInLogic := f x.orderedDatagramInLogic }
      { y with orderedDatagramInLogic := f y.orderedDatagramInLogic } :=
  { h with inLogic := congrArg f h.inLogic }

/-- Both headers are committed. -/
theorem commitHeader (h : Alike x y) :
    Alike (transportConnectionCommitHeader x) (transportConnectionCommitHeader y) :=
  { h with outLogic := congrArg E.orderedDatagramOutLogicCommit h.outLogic }

/-- The same transfer on both sides. -/
theorem setTransfer (h : Alike x y) (blobStreamLogicOut : E.BlobStreamLogicOut) :
    Alike { x with blobStreamLogicOut } { y with blobStreamLogicOut } :=
  { h with transfer := fun _ => rfl }

/-- The headers are the same octets. -/
theorem writeHeader (h : Alike x y) (outStream : OutStream) (clientTime : UInt16) :
    transportConnectionWriteHeader x outStream clientTime
      = transportConnectionWriteHeader y outStream clientTime := by
  unfold transportConnectionWriteHeader
  rw [h.outLogic]

/-- A new id starts a transfer of the copy, and both connections have the same copy. The
stored id keeps the transfer. -/
theorem startDownload (h : Alike x y) (requestId : UInt8) (state : SerializedGameState) :
    Alike (startDownload x requestId state) (startDownload y requestId state) := by
  unfold NimbleServer.startDownload
  rw [← h.requestId]
  split
  · exact h
  · exact { inLogic := h.inLogic, outLogic := h.outLogic, requestId := rfl
            channel := by simp only [transportConnectionSetGameStateTickId, h.channel]
            gameState := by simp only [transportConnectionSetGameStateTickId, h.gameState]
            transfer := fun _ => by
              simp only [transportConnectionSetGameStateTickId, h.gameState, h.channel] }

end Alike

/-! ### Sending -/

/-- The connections are alike, and there was a download. -/
structure BothStarted (c : ConnectionPtr) (s t : Server E S) : Prop where
  alike : Alike (s.connection c) (t.connection c)
  started : (s.connection c).blobStreamOutClientRequestId ≠ 0

/-- The two handlers return the same result and send the same datagrams. -/
structure SameSent (c : ConnectionPtr) (r r' : Int × List (List UInt8) × Server E S) : Prop where
  result : r.1 = r'.1
  sent : r.2.1 = r'.2.1
  both : BothStarted c r.2.2 r'.2.2

namespace BothStarted

variable {c : ConnectionPtr} {s t : Server E S}

/-- After a download the transfers are the same too. -/
theorem transfer (h : BothStarted c s t) :
    (s.connection c).blobStreamLogicOut = (t.connection c).blobStreamLogicOut :=
  h.alike.transfer h.started

/-- Assigning to the connection on both sides. -/
theorem setConnection {x y : TransportConnection E S} (h : Alike x y)
    (hid : x.blobStreamOutClientRequestId ≠ 0) :
    BothStarted c (s.setConnection c x) (t.setConnection c y) := by
  have hx : (s.setConnection c x).connection c = x := by
    rw [Server.connection_setConnection, if_pos rfl]
  have hy : (t.setConnection c y).connection c = y := by
    rw [Server.connection_setConnection, if_pos rfl]
  exact ⟨by rw [hx, hy]; exact h, by rw [hx]; exact hid⟩

/-- Committing the header on both sides. -/
theorem commitHeader (h : BothStarted c s t) :
    BothStarted c (s.setConnection c (transportConnectionCommitHeader (s.connection c)))
      (t.setConnection c (transportConnectionCommitHeader (t.connection c))) :=
  setConnection h.alike.commitHeader h.started

/-- Assigning the same transfer on both sides. -/
theorem setTransfer (h : BothStarted c s t) (blobStreamLogicOut : E.BlobStreamLogicOut) :
    BothStarted c (s.setConnection c { s.connection c with blobStreamLogicOut })
      (t.setConnection c { t.connection c with blobStreamLogicOut }) :=
  setConnection (h.alike.setTransfer blobStreamLogicOut) h.started

/-- Induction on the entries that remain. The header and the transfer id are read from the
connection again for each entry. -/
theorem sendBlobStreamEntries (clientTime : UInt16) (entries : List E.BlobStreamOutEntry) :
    ∀ (sent : List (List UInt8)) {s t : Server E S}, BothStarted c s t →
      SameSent c (NimbleServer.sendBlobStreamEntries c clientTime entries sent s)
        (NimbleServer.sendBlobStreamEntries c clientTime entries sent t) := by
  induction entries with
  | nil =>
    intro sent s t h
    exact ⟨rfl, rfl, h⟩
  | cons entry entries ih =>
    intro sent s t h
    -- Header and transfer id are now the same terms on both sides, and so is the test for a
    -- failure.
    simp only [NimbleServer.sendBlobStreamEntries, h.alike.writeHeader, h.transfer]
    split
    · exact ⟨rfl, rfl, h.commitHeader⟩
    · exact ih _ h.commitHeader

/-- The entries that are due are decided by the transfer, so they are the same. -/
theorem sendBlobStream (h : BothStarted c s t) (clientTime : UInt16) (now : Nat)
    (sent : List (List UInt8)) :
    SameSent c (nimbleServerSendBlobStream s c clientTime now sent)
      (nimbleServerSendBlobStream t c clientTime now sent) := by
  unfold nimbleServerSendBlobStream
  rw [h.transfer]
  exact sendBlobStreamEntries clientTime _ sent (h.setTransfer _)

end BothStarted

/-- The answers of two handlers to the same request, and the connections after it. -/
structure SameAnswers (c : ConnectionPtr) (r r' : Int × InStream × List (List UInt8) × Server E S) :
    Prop where
  result : r.1 = r'.1
  rest : r.2.1 = r'.2.1
  sent : r.2.2.1 = r'.2.2.1
  alike : Alike (r.2.2.2.connection c) (r'.2.2.2.connection c)

/-- As outputs the two answers are equal. -/
theorem SameAnswers.output {c : ConnectionPtr}
    {r r' : Int × InStream × List (List UInt8) × Server E S} (h : SameAnswers c r r') :
    LineOutput.answered r.1 r.2.1 r.2.2.1 = .answered r'.1 r'.2.1 r'.2.2.1 := by
  rw [h.result, h.rest, h.sent]

/-- A command to the transfer, once it is started, is answered alike. -/
theorem BothStarted.reqBlobStream {c : ConnectionPtr} {s t : Server E S} (h : BothStarted c s t)
    (inStream : InStream) (clientTime : UInt16) (now : Nat) :
    SameAnswers c (nimbleServerReqBlobStream s c inStream clientTime now)
      (nimbleServerReqBlobStream t c inStream clientTime now) := by
  unfold nimbleServerReqBlobStream
  rw [h.transfer]
  have hboth := h.setTransfer
    (E.blobStreamLogicOutReceive (t.connection c).blobStreamLogicOut inStream).2.2
  dsimp only
  split
  · exact ⟨rfl, rfl, rfl, hboth.alike⟩
  · have hsent := hboth.sendBlobStream clientTime now []
    exact ⟨hsent.result, rfl, hsent.sent, hsent.both.alike⟩

/-- So is a download, given the announcement. -/
theorem BothStarted.answerDownload {c : ConnectionPtr} {s t : Server E S}
    (h : BothStarted c s t) (answer : Announcement) (inStream : InStream) (clientTime : UInt16)
    (now : Nat) :
    SameAnswers c (NimbleServer.answerDownload s c answer inStream clientTime now)
      (NimbleServer.answerDownload t c answer inStream clientTime now) := by
  unfold NimbleServer.answerDownload downloadStart downloadResponse
  rw [h.transfer, h.alike.writeHeader]
  dsimp only
  split
  · exact ⟨rfl, rfl, rfl, h.alike⟩
  · split
    · exact ⟨rfl, rfl, rfl, h.alike⟩
    · have hsent := h.commitHeader.sendBlobStream clientTime now
      exact ⟨(hsent _).result, rfl, (hsent _).sent, (hsent _).both.alike⟩

/-- The handler, in terms of what it reads. -/
theorem reqDownloadGameState_of_read {inStream rest : InStream} {uninitialized : Uninitialized S}
    {requestId : UInt8}
    (hread : readInto E.fldInStreamReadUInt8 inStream uninitialized.downloadClientRequestId
      = (requestId, rest)) (hid : requestId ≠ 0) (s : Server E S) (c : ConnectionPtr)
    (clientTime : UInt16) (state : SerializedGameState) (now : Nat) :
    nimbleServerReqDownloadGameState s c inStream clientTime uninitialized state now
      = .ok (answerDownload
          (s.setConnection c (startDownload (s.connection c) requestId state)) c
          (announcement (startDownload (s.connection c) requestId state)) rest clientTime
          now) := by
  have hid' : downloadRequestId E inStream uninitialized ≠ 0 := by
    unfold downloadRequestId
    rw [hread]
    exact hid
  have hanswer := reqDownloadGameState_eq hid' s c state clientTime now
  unfold announced startedDownload downloadRequestId at hanswer
  rw [hread] at hanswer
  exact hanswer

/-- A download starts the transfer if there is none yet, so that nothing is asked of the
transfers before. -/
theorem Alike.answerDownload {c : ConnectionPtr} {s t : Server E S}
    (h : Alike (s.connection c) (t.connection c)) {requestId : UInt8} (hid : requestId ≠ 0)
    (state : SerializedGameState) (inStream : InStream) (clientTime : UInt16) (now : Nat) :
    SameAnswers c
      (NimbleServer.answerDownload
        (s.setConnection c (NimbleServer.startDownload (s.connection c) requestId state)) c
        (announcement (NimbleServer.startDownload (s.connection c) requestId state)) inStream
        clientTime now)
      (NimbleServer.answerDownload
        (t.setConnection c (NimbleServer.startDownload (t.connection c) requestId state)) c
        (announcement (NimbleServer.startDownload (t.connection c) requestId state)) inStream
        clientTime now) := by
  have hstart := h.startDownload requestId state
  -- New or not, the id that is stored afterwards is that of the request, which is not zero.
  have hstored : (NimbleServer.startDownload (s.connection c) requestId
      state).blobStreamOutClientRequestId ≠ 0 := by
    rw [requestId_startDownload]
    exact hid
  have hsame : announcement (NimbleServer.startDownload (t.connection c) requestId state)
      = announcement (NimbleServer.startDownload (s.connection c) requestId state) := by
    unfold announcement
    rw [hstart.gameState, hstart.requestId, hstart.transfer hstored]
  rw [hsame]
  exact (BothStarted.setConnection hstart hstored).answerDownload _ inStream clientTime now

/-! ### What an operation does to a connection -/

/-- Everything an operation can do to connection `c`, with what it asks of it. A connection
that is asked something is in use, except when it is taken into use or reported as lost. -/
inductive LineOutcome (c : ConnectionPtr) (s s' : Server E S) :
    Option (LineInput × LineOutput) → Prop
  | silent (h : SameLine (s.connection c) (s'.connection c)) : LineOutcome c s s' none
  | init (h : InitialLine (s'.connection c)) : LineOutcome c s s' (some (.init, .nothing))
  | ordered (data : List UInt8) (hused : (s.connection c).isUsed = true)
      (h : s'.connection c = { s.connection c with
        orderedDatagramInLogic := (E.orderedDatagramInLogicReceive
          (s.connection c).orderedDatagramInLogic data).2 }) :
      LineOutcome c s s' (some (.ordered data, .received
        (E.orderedDatagramInLogicReceive (s.connection c).orderedDatagramInLogic data).1))
  | download (inStream : InStream) (uninitialized : Uninitialized S) (requestId : UInt8)
      (others : InStream) (clientTime : UInt16) (state : SerializedGameState) (now : Nat)
      (result : Int) (rest : InStream) (sent : List (List UInt8))
      (hused : (s.connection c).isUsed = true)
      (hread : readInto E.fldInStreamReadUInt8 inStream uninitialized.downloadClientRequestId
        = (requestId, others))
      (h : nimbleServerReqDownloadGameState s c inStream clientTime uninitialized state now
        = .ok (result, rest, sent, s')) :
      LineOutcome c s s' (some (.download requestId others clientTime state now,
        .answered result rest sent))
  | blobStream (inStream : InStream) (clientTime : UInt16) (now : Nat) (result : Int)
      (rest : InStream) (sent : List (List UInt8)) (hused : (s.connection c).isUsed = true)
      (hstarted : (s.connection c).blobStreamOutClientRequestId ≠ 0)
      (h : nimbleServerReqBlobStream s c inStream clientTime now = (result, rest, sent, s')) :
      LineOutcome c s s' (some (.blobStream inStream clientTime now,
        .answered result rest sent))
  | commitHeader (hused : (s.connection c).isUsed = true)
      (h : s'.connection c = transportConnectionCommitHeader (s.connection c)) :
      LineOutcome c s s' (some (.commitHeader, .nothing))
  | dropped (h : s'.connection c = { s.connection c with
        orderedDatagramInLogic := E.clearHasReceivedInitialDatagram
          (s.connection c).orderedDatagramInLogic }) :
      LineOutcome c s s' (some (.dropped, .nothing))

namespace LineOutcome

variable {c : ConnectionPtr} {s s' : Server E S}

/-- Nothing was asked of an unchanged connection. -/
theorem unchanged (h : s'.connection c = s.connection c) : LineOutcome c s s' none :=
  .silent (h ▸ .refl _)

/-- Something is assigned to another connection. -/
theorem other {t : ConnectionPtr} (htc : t ≠ c) (x : TransportConnection E S) :
    LineOutcome c s (s.setConnection t x) none := by
  refine .unchanged ?_
  rw [Server.connection_setConnection, if_neg htc]

/-- Something is assigned to a connection that was asked for it. -/
theorem assign {t : ConnectionPtr} {x : TransportConnection E S}
    {event : LineInput × LineOutput}
    (h : t = c → (s.setConnection t x).connection c = x →
      LineOutcome c s (s.setConnection t x) (some event)) :
    LineOutcome c s (s.setConnection t x) (if t = c then some event else none) := by
  by_cases htc : t = c
  · rw [if_pos htc]
    exact h htc (by rw [Server.connection_setConnection, if_pos htc])
  · rw [if_neg htc]
    exact .other htc x

end LineOutcome

/-- Sending on one connection leaves the others alone. -/
theorem connection_keeps {t c : ConnectionPtr} (htc : t ≠ c) (x : TransportConnection E S) :
    SendingKeeps t (fun s : Server E S => s.connection c = x) := by
  have hset : ∀ (s : Server E S) (y : TransportConnection E S), s.connection c = x →
      (s.setConnection t y).connection c = x := by
    intro s y hs
    rw [Server.connection_setConnection, if_neg htc]
    exact hs
  exact ⟨fun s hs => hset s _ hs, fun s _ hs => hset s _ hs, fun s _ hs => hset s _ hs⟩

/-- A connect request can take the slot into use, whoever sent it. -/
theorem acceptConnectRequest_lineOutcome (c : ConnectionPtr) {s s' : Server E S}
    {t : ConnectionPtr} {request : ConnectRequest} {result : Except Int ConnectionPtr}
    (h : acceptConnectRequest s (UInt8.ofNat t.val) request = .ok (result, s')) :
    LineOutcome c s s' (lineEvent c s (.connect t request)) := by
  have houtcome := (acceptConnectRequest_ensures s (UInt8.ofNat t.val) request).of_ok h
  simp only [lineEvent, h]
  -- Nothing is taken into use when the server is as before.
  have hsame : ¬((s.connection c).isUsed = false ∧ (s.connection c).isUsed = true) := by
    rintro ⟨hunused, hused⟩
    cases hunused.symm.trans hused
  cases houtcome with
  | refused code =>
    rw [if_neg hsame]
    exact .unchanged rfl
  | existing d =>
    rw [if_neg hsame]
    exact .unchanged rfl
  | taken d _ _ _ _ hfree =>
    rw [Server.connection_setConnection]
    by_cases hdc : d = c
    · subst hdc
      rw [if_pos rfl, if_pos ⟨hfree, rfl⟩]
      refine .init ?_
      rw [Server.connection_setConnection, if_pos rfl]
      exact initialLine_init _
    · -- Another slot is taken, which is no event for this one.
      rw [if_neg hdc]
      split
      · rename_i hboth
        exact absurd hboth hsame
      · exact .unchanged (by rw [Server.connection_setConnection, if_neg hdc]; rfl)

/-- A datagram takes its slot into use if it was not. -/
theorem receiveOnConnection_lineOutcome (c : ConnectionPtr) (s : Server E S) (t : ConnectionPtr) :
    LineOutcome c s (receiveOnConnection s t) (lineEvent c s (.receive t)) := by
  show LineOutcome c s (receiveOnConnection s t)
    (if t = c ∧ (s.connection c).isUsed = false then _ else none)
  unfold receiveOnConnection
  by_cases htc : t = c
  · subst htc
    cases hused : (s.connection t).isUsed with
    | true =>
      rw [if_pos rfl, if_neg (by rintro ⟨-, ⟨⟩⟩)]
      exact .unchanged rfl
    | false =>
      rw [if_neg Bool.false_ne_true, if_pos ⟨rfl, rfl⟩]
      refine .init ?_
      rw [Server.connection_setConnection, if_pos rfl]
      exact initialLine_init _
  · have hnot : ¬(t = c ∧ (s.connection c).isUsed = false) := fun h => htc h.1
    rw [if_neg hnot]
    split
    · exact .unchanged rfl
    · exact .other htc _

/-- A download is asked of its own connection only. -/
theorem reqDownloadGameState_lineOutcome (c : ConnectionPtr) {s s' : Server E S}
    {t : ConnectionPtr} {inStream rest : InStream} {clientTime : UInt16}
    {uninitialized : Uninitialized S} {state : SerializedGameState} {now : Nat} {result : Int}
    {sent : List (List UInt8)} (hused : (s.connection t).isUsed = true)
    (h : nimbleServerReqDownloadGameState s t inStream clientTime uninitialized state now
      = .ok (result, rest, sent, s')) :
    LineOutcome c s s'
      (lineEvent c s (.downloadGameState t inStream clientTime uninitialized state now)) := by
  show LineOutcome c s s' (if t = c then _ else none)
  by_cases htc : t = c
  · subst htc
    rw [if_pos rfl, h]
    exact .download inStream uninitialized _ _ clientTime state now result rest sent hused rfl h
  · rw [if_neg htc]
    have hstart : ∀ x, (s.setConnection t x).connection c = s.connection c := by
      intro x
      rw [Server.connection_setConnection, if_neg htc]
    exact .unchanged (((connection_keeps htc (s.connection c)).reqDownloadGameState inStream
      clientTime uninitialized state now fun _ => hstart _).of_ok h)

/-- So is a command to a transfer. -/
theorem reqBlobStream_lineOutcome (c : ConnectionPtr) {s : Server E S} {t : ConnectionPtr}
    (inStream : InStream) (clientTime : UInt16) (now : Nat)
    (hused : (s.connection t).isUsed = true)
    (hstarted : t = c → (s.connection c).blobStreamOutClientRequestId ≠ 0) :
    LineOutcome c s (nimbleServerReqBlobStream s t inStream clientTime now).2.2.2
      (lineEvent c s (.blobStream t inStream clientTime now)) := by
  show LineOutcome c s _ (if t = c then _ else none)
  by_cases htc : t = c
  · subst htc
    rw [if_pos rfl]
    exact .blobStream inStream clientTime now _ _ _ hused (hstarted rfl) rfl
  · rw [if_neg htc]
    exact .unchanged
      ((connection_keeps htc (s.connection c)).reqBlobStream inStream clientTime now rfl)

/-- A tick can release the connection, which keeps all the rest. -/
theorem tickParties_sameLine (c : ConnectionPtr) (s : Server E S) :
    Ensures (tickParties s) (fun s' => SameLine (s.connection c) (s'.connection c))
      (fun _ => True) := by
  refine tickParties_ensures (.refl _) ?_ fun _ _ _ _ _ => trivial
  intro s1 p s2 hs1 hs2
  rcases hs2.connection c with heq | heq
  · rw [heq]
    exact hs1
  · rw [heq]
    exact hs1.trans ⟨⟨rfl, rfl, rfl, rfl⟩, rfl, rfl, by rintro ⟨⟩⟩

/-- The report of a lost connection reaches the ordering logic if there is a party to drop. -/
theorem connectionDisconnected_lineOutcome (c : ConnectionPtr) {s s' : Server E S}
    {t : ConnectionPtr} {result : Int}
    (h : nimbleServerConnectionDisconnected s t = .ok (result, s')) :
    LineOutcome c s s' (lineEvent c s (.connectionDisconnected t)) := by
  show LineOutcome c s s' (if t = c then _ else none)
  by_cases htc : t = c
  · subst htc
    rw [if_pos rfl, h]
    rw [connectionDisconnected_eq] at h
    -- The party with the number of the connection was in use, or the call returned an error.
    split at h
    · split at h
      · cases h
        refine .dropped ?_
        rw [connection_dropParty, if_pos rfl]
      · cases h
        exact .unchanged rfl
    · cases h
  · rw [if_neg htc]
    refine .unchanged ?_
    refine (connectionDisconnected_ensures (fun s' => s'.connection c = s.connection c) rfl t
      fun p _ _ => ?_).of_ok h
    rw [connection_dropParty, if_neg htc]

/-- Every operation, with what it asks of the connection. -/
theorem step_lineOutcome (c : ConnectionPtr) (s : Server E S) {op : Op S}
    (henabled : s.Enabled op) (hop : AsksFirst c s op) :
    Ensures (s.step op) (fun s' => LineOutcome c s s' (lineEvent c s op)) (fun _ => True) := by
  cases op with
  | receive t => exact receiveOnConnection_lineOutcome c s t
  | ordered t data =>
    refine LineOutcome.assign ?_
    rintro rfl hassigned
    exact .ordered data henabled.1 hassigned
  | connect t request =>
    refine Ensures.map (Ensures.of_eq_ok ?_)
    rintro ⟨result, s'⟩ hconnect
    exact acceptConnectRequest_lineOutcome c hconnect
  | join t request uninitialized =>
    refine Ensures.map ((joinGame_ensures s t request uninitialized).mono ?_ fun _ _ => trivial)
    rintro ⟨result, s'⟩ hr
    rcases hr.connection c with heq | ⟨p, -, -, heq⟩
    · exact .unchanged heq
    · -- A join changes which party the connection has, and nothing that it answers from.
      refine .silent ?_
      rw [heq]
      exact ⟨⟨rfl, rfl, rfl, rfl⟩, rfl, rfl, id⟩
  | downloadGameState t inStream clientTime uninitialized state now =>
    refine Ensures.map (Ensures.of_eq_ok ?_)
    rintro ⟨result, rest, sent, s'⟩ hdownload
    exact reqDownloadGameState_lineOutcome c henabled.1 hdownload
  | blobStream t inStream clientTime now =>
    exact reqBlobStream_lineOutcome c inStream clientTime now henabled.1 hop
  | commitHeader t =>
    refine LineOutcome.assign ?_
    rintro rfl hassigned
    exact .commitHeader henabled.1 hassigned
  | tick => exact (tickParties_sameLine c s).mono (fun _ h => .silent h) fun _ h => h
  -- These have to do with the game and the parties only.
  | incomingSteps _ _ _ | composeRound | reInitWithGame _ | hostMigration _ _ =>
    refine (step_connection_eq s ?_ c).mono (fun s' hs' => ?_) fun _ h => h
    · trivial
    · exact .unchanged hs'
  | connectionConnected t =>
    have htc : t ≠ c := hop
    show LineOutcome c s (nimbleServerConnectionConnected s t).2 none
    unfold nimbleServerConnectionConnected
    split
    · exact .unchanged rfl
    · exact .other htc _
  | connectionDisconnected t =>
    refine Ensures.map (Ensures.of_eq_ok ?_)
    rintro ⟨result, s'⟩ hdrop
    exact connectionDisconnected_lineOutcome c hdrop

/-! ### Two runs -/

/-- The slot was taken into use at some point of the history. -/
def EverUsed (history : List (LineInput × LineOutput)) : Prop :=
  .init ∈ history.map Prod.fst

/-- It stays so. -/
theorem EverUsed.cons {history : List (LineInput × LineOutput)} (h : EverUsed history)
    (event : LineInput × LineOutput) : EverUsed (event :: history) :=
  List.mem_cons_of_mem _ h

/-- Two servers on which slot `c` has the same history. Before it was taken into use nothing is
known of it. -/
structure Agree (c : ConnectionPtr) (history : List (LineInput × LineOutput))
    (s t : Server E S) : Prop where
  left : (s.connection c).isUsed = true → EverUsed history
  right : (t.connection c).isUsed = true → EverUsed history
  alike : EverUsed history → Alike (s.connection c) (t.connection c)

namespace Agree

variable {c : ConnectionPtr} {history : List (LineInput × LineOutput)} {s s' t t' : Server E S}

/-- The relation is symmetric. -/
theorem symm (h : Agree c history s t) : Agree c history t s :=
  ⟨h.right, h.left, fun hinit => (h.alike hinit).symm⟩

/-- The left server does something that the slot does not notice. -/
theorem silent (h : Agree c history s t) (hs : SameLine (s.connection c) (s'.connection c)) :
    Agree c history s' t :=
  ⟨h.left ∘ hs.isUsed, h.right, fun hinit => (h.alike hinit).sameLine hs⟩

/-- The slot is taken into use on both sides. -/
theorem init (hs : InitialLine (s.connection c)) (ht : InitialLine (t.connection c))
    (output : LineOutput) : Agree c ((.init, output) :: history) s t := by
  have hinit : EverUsed ((.init, output) :: history) := List.mem_cons_self
  exact ⟨fun _ => hinit, fun _ => hinit, fun _ => .init hs ht⟩

/-- The slot is in use and was asked something. -/
theorem asked (hinit : EverUsed history) (h : Alike (s.connection c) (t.connection c))
    (event : LineInput × LineOutput) : Agree c (event :: history) s t :=
  ⟨fun _ => hinit.cons event, fun _ => hinit.cons event, fun _ => h⟩

/-- The transport reports a connection as lost, in use or not. -/
theorem dropped (h : Agree c history s t)
    (hs : s'.connection c = { s.connection c with
      orderedDatagramInLogic := E.clearHasReceivedInitialDatagram
        (s.connection c).orderedDatagramInLogic })
    (ht : t'.connection c = { t.connection c with
      orderedDatagramInLogic := E.clearHasReceivedInitialDatagram
        (t.connection c).orderedDatagramInLogic }) :
    Agree c ((.dropped, .nothing) :: history) s' t' := by
  refine ⟨fun hused => ?_, fun hused => ?_, fun hinit => ?_⟩
  · rw [hs] at hused
    exact (h.left hused).cons _
  · rw [ht] at hused
    exact (h.right hused).cons _
  · -- The report itself does not take the slot into use.
    have hinit' : EverUsed history := by
      rcases List.mem_cons.mp hinit with hhead | htail
      · cases hhead
      · exact htail
    rw [hs, ht]
    exact (h.alike hinit').setInLogic E.clearHasReceivedInitialDatagram

end Agree

/-- The runs that are compared: commands are handled on connections in use, and the client of
`c` asks for a download first. -/
def IsolationRun (c : ConnectionPtr) (state : Server E S × List (LineInput × LineOutput))
    (op : Op S) : Prop :=
  state.1.Enabled op ∧ AsksFirst c state.1 op

/-- Both conditions are decidable. -/
instance (c : ConnectionPtr) (state : Server E S × List (LineInput × LineOutput)) (op : Op S) :
    Decidable (IsolationRun c state op) :=
  inferInstanceAs (Decidable (_ ∧ _))

/-- The same was asked on both sides, so the same was answered. -/
theorem Agree.answer {c : ConnectionPtr} {history : List (LineInput × LineOutput)}
    {s s' t t' : Server E S} (h : Agree c history s t) {input : LineInput}
    {output output' : LineOutput} (hs : LineOutcome c s s' (some (input, output)))
    (ht : LineOutcome c t t' (some (input, output'))) :
    output = output' ∧ Agree c ((input, output) :: history) s' t' := by
  -- The input decides which case `ht` is in.
  cases hs with
  | init hs =>
    cases ht with
    | init ht => exact ⟨rfl, .init hs ht _⟩
  | ordered data hused hs =>
    cases ht with
    | ordered _ _ ht =>
      have halike := h.alike (h.left hused)
      refine ⟨by rw [halike.inLogic], .asked (h.left hused) ?_ _⟩
      rw [hs, ht]
      exact halike.setInLogic fun logic => (E.orderedDatagramInLogicReceive logic data).2
  | download inStream uninitialized requestId others clientTime state now _ _ _ hused hread hs =>
    cases ht with
    | download _ _ _ _ _ _ _ _ _ _ _ hread' ht =>
      have hstep : s.step (.downloadGameState c inStream clientTime uninitialized state now)
          = .ok s' := map_eq_ok.mpr ⟨_, hs, rfl⟩
      -- Both handlers returned, so the id is not zero and the answers are those of
      -- `answerDownload`.
      have hid : requestId ≠ 0 := by
        have hid' := downloadRequestId_ne_zero hstep
        unfold downloadRequestId at hid'
        rw [hread] at hid'
        exact hid'
      have hsame := (h.alike (h.left hused)).answerDownload hid state others clientTime now
      rw [← Except.ok.inj (hs.symm.trans (reqDownloadGameState_of_read hread hid ..)),
        ← Except.ok.inj (ht.symm.trans (reqDownloadGameState_of_read hread' hid ..))] at hsame
      exact ⟨hsame.output, .asked (h.left hused) hsame.alike _⟩
  | blobStream inStream clientTime now result rest sent hused hstarted hs =>
    cases ht with
    | blobStream _ _ _ _ _ _ _ _ ht =>
      have hboth : BothStarted c s t := ⟨h.alike (h.left hused), hstarted⟩
      have hsame := hboth.reqBlobStream inStream clientTime now
      rw [hs, ht] at hsame
      exact ⟨hsame.output, .asked (h.left hused) hsame.alike _⟩
  | commitHeader hused hs =>
    cases ht with
    | commitHeader _ ht =>
      refine ⟨rfl, .asked (h.left hused) ?_ _⟩
      rw [hs, ht]
      exact (h.alike (h.left hused)).commitHeader
  | dropped hs =>
    cases ht with
    | dropped ht => exact ⟨rfl, h.dropped hs ht⟩

/-- The two conditions of the rule for isolation: what a slot does not notice changes nothing
about it, and what is asked of it is answered alike. -/
theorem unwinding (c : ConnectionPtr) :
    Unwinding Server.step (lineEvent (E := E) c) (IsolationRun (S := S) c) (Agree c) where
  symm := Agree.symm
  quiet := by
    intro history s t op s' hagree hquiet hstep
    -- Of all outcomes only `silent` shows nothing.
    have houtcome := (step_lineOutcome c s hquiet.1.1 hquiet.1.2).of_ok hstep
    rw [hquiet.2] at houtcome
    cases houtcome with
    | silent h => exact hagree.silent h
  answer := by
    intro history s t op op' s' t' input output output' hagree hop hstep hshown hop' hstep'
      hshown'
    have hs := (step_lineOutcome c s hop.1 hop.2).of_ok hstep
    have ht := (step_lineOutcome c t hop'.1 hop'.2).of_ok hstep'
    rw [hshown] at hs
    rw [hshown'] at ht
    exact hagree.answer hs ht

/-- The inputs of a run that starts with slot `c` not in use, newest first. -/
def askedOf (c : ConnectionPtr) (ops : List (Op S)) (start : Server E S) :
    Option (List LineInput) :=
  if (start.connection c).isUsed then none
  else (runChecked (observed Server.step (lineEvent c))
    (fun state op => decide (IsolationRun c state op)) (start, []) ops).map
      fun state => state.2.map Prod.fst

/-- A run that was computed is a run. -/
theorem exists_run_of_askedOf {c : ConnectionPtr} {ops : List (Op S)} {start : Server E S}
    {inputs : List LineInput} (h : askedOf c ops start = some inputs) :
    (start.connection c).isUsed = false ∧ ∃ s history,
      Reaches (observed Server.step (lineEvent c)) (IsolationRun c) (start, []) (s, history) ∧
      history.map Prod.fst = inputs := by
  unfold askedOf at h
  split at h
  · cases h
  · rename_i hunused
    obtain ⟨⟨s, history⟩, hrun, hinputs⟩ := Option.map_eq_some_iff.mp h
    exact ⟨Bool.eq_false_iff.mpr hunused, s, history, reaches_of_runChecked ops _ _ hrun,
      hinputs⟩

end NimbleServer
