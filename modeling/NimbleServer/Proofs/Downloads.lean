import NimbleServer.Proofs.Transfers

/-!
# `NimbleServer.Proofs.Downloads`: what a download request is answered with

A client asks for the game state under a request id of its own. A new id fetches the state
from the application, copies it to the connection and starts a transfer of the copy; the id
that is stored resends. The answer announces the step id and the octet count of the copy, the
request id and the transfer id. `reqDownloadGameState_eq` splits the handler there.

The copy is made by `nimbleServerGameStateSet`, which can refuse: an older state is ignored
and one that does not fit is an error. The handler does not look at the result and announces
what the connection held before. `download_delivers_iff` says when the answer is about the
state that the application returned, and `restarted_game_is_not_delivered` is a client that
gets the state of the game before.

Between two requests, nothing but a download with a new id or `transportConnectionInit`
changes what is announced (`SameAnswer`). `download_answers` concludes that a resend
announces the same transfer, and that each new id gets the next transfer id.
-/

set_option autoImplicit false

namespace NimbleServer

open NimbleServer.Lib

variable {E : External} {S : Setup}

/-! ### The answer -/

/-- What the answer to a download request says. -/
structure Announcement where
  stepId : StepId
  octetCount : Nat
  clientRequestId : UInt8
  transferId : Nat
deriving DecidableEq

/-- The announcement is put together from what the connection holds. -/
def announcement (x : TransportConnection E S) : Announcement where
  stepId := x.gameState.stepId
  octetCount := x.gameState.state.length
  clientRequestId := x.blobStreamOutClientRequestId
  transferId := E.transferId x.blobStreamLogicOut

/-- The connection after the request was looked at. -/
def startedDownload (s : Server E S) (t : ConnectionPtr) (inStream : InStream)
    (uninitialized : Uninitialized S) (state : SerializedGameState) : TransportConnection E S :=
  startDownload (s.connection t) (downloadRequestId E inStream uninitialized) state

/-- What the request is answered with. -/
def announced (s : Server E S) (t : ConnectionPtr) (inStream : InStream)
    (uninitialized : Uninitialized S) (state : SerializedGameState) : Announcement :=
  announcement (startedDownload s t inStream uninitialized state)

/-- The announcement is serialized after a header. -/
def downloadResponse (s : Server E S) (t : ConnectionPtr) (answer : Announcement)
    (clientTime : UInt16) : Int × OutStream :=
  E.nimbleSerializeServerOutGameStateResponse
    (transportConnectionWriteHeader (s.connection t) (E.fldOutStreamInit 256) clientTime).2
    answer.stepId answer.octetCount answer.clientRequestId answer.transferId

/-- The start of the transfer is written behind the announcement. -/
def downloadStart (s : Server E S) (t : ConnectionPtr) (answer : Announcement)
    (clientTime : UInt16) : Int × OutStream :=
  E.blobStreamLogicOutStartTransfer (s.connection t).blobStreamLogicOut
    (E.nimbleSerializeWriteCommand (downloadResponse s t answer clientTime).2
      E.NimbleSerializeCmdServerOutBlobStream)

/-- The second part of `nimbleServerReqDownloadGameState`, with the announcement it hands to
the serializer. -/
def answerDownload (s : Server E S) (t : ConnectionPtr) (answer : Announcement)
    (inStream : InStream) (clientTime : UInt16) (now : Nat) :
    Int × InStream × List (List UInt8) × Server E S :=
  let response := downloadResponse s t answer clientTime
  let start := downloadStart s t answer clientTime
  if response.1 < 0 then (response.1, inStream, [], s)
  else if start.1 < 0 then (start.1, inStream, [], s)
  else
    let result := nimbleServerSendBlobStream
      (s.setConnection t (transportConnectionCommitHeader (s.connection t))) t clientTime now
      [start.2.octets]
    (result.1, inStream, result.2.1, result.2.2)

/-- One of the calls that put the answer together fails: the serializer of the response, the
start of the transfer, or the sending of its first parts. -/
def AnswerFails (s : Server E S) (t : ConnectionPtr) (answer : Announcement)
    (clientTime : UInt16) (now : Nat) : Prop :=
  (downloadResponse s t answer clientTime).1 < 0 ∨ (downloadStart s t answer clientTime).1 < 0 ∨
    (nimbleServerSendBlobStream
      (s.setConnection t (transportConnectionCommitHeader (s.connection t))) t clientTime now
      [(downloadStart s t answer clientTime).2.octets]).1 < 0

/-- The result is negative exactly when one of the calls fails. -/
theorem answerDownload_neg_iff (s : Server E S) (t : ConnectionPtr) (answer : Announcement)
    (inStream : InStream) (clientTime : UInt16) (now : Nat) :
    (answerDownload s t answer inStream clientTime now).1 < 0
      ↔ AnswerFails s t answer clientTime now := by
  unfold answerDownload AnswerFails
  dsimp only
  split
  · rename_i hresponse
    exact iff_of_true hresponse (.inl hresponse)
  · -- The calls in the order in which they are made. Each is only made if the ones before it
    -- succeeded.
    rename_i hresponse
    rw [or_iff_right hresponse]
    split
    · rename_i hstart
      exact iff_of_true hstart (.inl hstart)
    · rename_i hstart
      rw [or_iff_right hstart]

/-- The request is handled, and this is the announcement that is written. -/
def Announces (s : Server E S) (t : ConnectionPtr) (inStream : InStream)
    (uninitialized : Uninitialized S) (state : SerializedGameState) (answer : Announcement) :
    Prop :=
  ∀ clientTime now,
    nimbleServerReqDownloadGameState s t inStream clientTime uninitialized state now
      = .ok (answerDownload
          (s.setConnection t (startedDownload s t inStream uninitialized state)) t answer
          (readInto E.fldInStreamReadUInt8 inStream uninitialized.downloadClientRequestId).2
          clientTime now)

/-- A request with an id is answered with the announcement of what the connection then holds. -/
theorem reqDownloadGameState_eq {inStream : InStream} {uninitialized : Uninitialized S}
    (hid : downloadRequestId E inStream uninitialized ≠ 0) (s : Server E S) (t : ConnectionPtr)
    (state : SerializedGameState) :
    Announces s t inStream uninitialized state
      (announced s t inStream uninitialized state) := by
  intro clientTime now
  have hread : (readInto E.fldInStreamReadUInt8 inStream
      uninitialized.downloadClientRequestId).1 ≠ 0 := hid
  -- The handler reads the announcement from the connection it has just written.
  have hconnection : (s.setConnection t
      (startedDownload s t inStream uninitialized state)).connection t
      = startedDownload s t inStream uninitialized state := by
    rw [Server.connection_setConnection, if_pos rfl]
  unfold startedDownload downloadRequestId at hconnection
  simp only [nimbleServerReqDownloadGameState, if_neg hread, hconnection, answerDownload,
    downloadStart, downloadResponse, announced, announcement, startedDownload,
    downloadRequestId]
  split
  · rfl
  · split
    · rfl
    · rfl

/-! ### Which state is delivered -/

/-- The connection announces and transfers the state. -/
structure Delivers (x : TransportConnection E S) (state : SerializedGameState) : Prop where
  stepId : (announcement x).stepId = state.stepId
  octetCount : (announcement x).octetCount = state.gameState.length
  octets : x.gameState.state = state.gameState

/-- The connection takes the state, or already holds an equal one. -/
def TakesState (held : GameState) (state : SerializedGameState) : Prop :=
  ((held.state = [] ∨ held.stepId < state.stepId) ∧ state.gameState.length ≤ held.capacity) ∨
    (held.stepId = state.stepId ∧ held.state = state.gameState)

/-- The three outcomes of `nimbleServerGameStateSet`. -/
theorem gameStateSet_iff (held : GameState) (state : SerializedGameState) :
    ((nimbleServerGameStateSet held state.stepId state.gameState).2.stepId = state.stepId ∧
      (nimbleServerGameStateSet held state.stepId state.gameState).2.state = state.gameState) ↔
    TakesState held state := by
  unfold nimbleServerGameStateSet TakesState
  split
  · -- The state is ignored.
    rename_i hold
    have hnot : ¬((held.state = [] ∨ held.stepId < state.stepId) ∧
        state.gameState.length ≤ held.capacity) := by
      rintro ⟨hempty | hnewer, -⟩
      · exact hold.1 (List.length_eq_zero_iff.mpr hempty)
      · exact UInt32.not_lt.mpr hold.2 hnewer
    rw [or_iff_right hnot]
  · rename_i hnewer
    split
    · -- It does not fit.
      rename_i hlarge
      rw [or_iff_right fun h => Nat.not_le.mpr hlarge h.2]
    · -- Otherwise the copy is made.
      rename_i hfits
      refine ⟨fun _ => .inl ⟨?_, Nat.not_lt.mp hfits⟩, fun _ => ⟨rfl, rfl⟩⟩
      rw [not_and_or, not_not, List.length_eq_zero_iff] at hnewer
      exact hnewer.imp id UInt32.not_le.mp

/-- A new id: the state is offered to the connection, and a transfer of what it then holds
starts. -/
theorem startDownload_of_ne {x : TransportConnection E S} {requestId : UInt8}
    (hnew : requestId ≠ x.blobStreamOutClientRequestId) (state : SerializedGameState) :
    startDownload x requestId state = { x with
      gameState := (nimbleServerGameStateSet x.gameState state.stepId state.gameState).2
      blobStreamLogicOut := E.blobStreamLogicOutInit
        (nimbleServerGameStateSet x.gameState state.stepId state.gameState).2.state
        x.nextBlobStreamOutChannel
      nextBlobStreamOutChannel := (x.nextBlobStreamOutChannel + 1) % E.transferIdCount
      blobStreamOutClientRequestId := requestId
      phase := .initialStateDetermined } :=
  if_neg hnew

/-- The announcement is about the offered state exactly if the connection takes it. -/
theorem delivers_iff {x : TransportConnection E S} {requestId : UInt8}
    (hnew : requestId ≠ x.blobStreamOutClientRequestId) (state : SerializedGameState) :
    Delivers (startDownload x requestId state) state ↔ TakesState x.gameState state := by
  rw [← gameStateSet_iff, startDownload_of_ne hnew]
  constructor
  · rintro ⟨hstepId, -, hoctets⟩
    exact ⟨hstepId, hoctets⟩
  · rintro ⟨hstepId, hoctets⟩
    exact ⟨hstepId, congrArg List.length hoctets, hoctets⟩

/-- A request with a new id is answered, and a transfer of what the connection then holds is
started. The answer is negative or about the state that the application returned, exactly when
one of the calls that put it together fails or the connection takes that state. An answer that
is not negative is about that state exactly when the connection takes it. -/
theorem download_delivers_iff (s : Server E S) (t : ConnectionPtr) (inStream : InStream)
    (uninitialized : Uninitialized S) (hid : downloadRequestId E inStream uninitialized ≠ 0)
    (hnew : downloadRequestId E inStream uninitialized
      ≠ (s.connection t).blobStreamOutClientRequestId)
    (clientTime : UInt16) (state : SerializedGameState) (now : Nat) :
    Announces s t inStream uninitialized state
      (announced s t inStream uninitialized state) ∧
    (startedDownload s t inStream uninitialized state).blobStreamLogicOut
      = E.blobStreamLogicOutInit
          (startedDownload s t inStream uninitialized state).gameState.state
          (s.connection t).nextBlobStreamOutChannel ∧
    ∃ result rest sent s',
      nimbleServerReqDownloadGameState s t inStream clientTime uninitialized state now
        = .ok (result, rest, sent, s') ∧
      (result < 0 ∨ Delivers (startedDownload s t inStream uninitialized state) state ↔
        AnswerFails (s.setConnection t (startedDownload s t inStream uninitialized state)) t
            (announced s t inStream uninitialized state) clientTime now ∨
          TakesState (s.connection t).gameState state) ∧
      (0 ≤ result → (Delivers (startedDownload s t inStream uninitialized state) state ↔
        TakesState (s.connection t).gameState state)) := by
  have hanswer := reqDownloadGameState_eq hid s t state
  have hdelivers := delivers_iff hnew state
  refine ⟨hanswer, ?_, _, _, _, _, hanswer clientTime now, ?_, fun _ => hdelivers⟩
  · unfold startedDownload
    rw [startDownload_of_ne hnew]
  · exact or_congr (answerDownload_neg_iff _ _ _ _ _ _) hdelivers

/-- A client asks for the state of a new game. -/
theorem download_delivers_iff_newGame :
    ∃ start s : Server plainExternal (plainSetup 1), StartsGame start ∧
      Reaches Server.step (fun s op => s.Enabled op) start s ∧
      Delivers (startedDownload s 0 [9] (zeroLocals _) { stepId := 5, gameState := [1, 2] })
        { stepId := 5, gameState := [1, 2] } := by
  obtain ⟨start, s, hstart, hrun, hstored, hempty, hcapacity, hresult⟩ :=
    exists_run Server.step (fun s op => s.Enabled op)
      (fun s : Server plainExternal (plainSetup 1) =>
        (s.connection 0).blobStreamOutClientRequestId = 0 ∧
        (s.connection 0).gameState.state = [] ∧ (s.connection 0).gameState.capacity = 32 ∧
        (nimbleServerReqDownloadGameState s 0 [9] 0 (zeroLocals _)
          { stepId := 5, gameState := [1, 2] } 0).toOption.any (fun r => r.1 == 0) = true)
      (plainGame 1) [.receive 0] (by decide +kernel)
  obtain ⟨-, -, result, rest, sent, s', hok, -, hiff⟩ := download_delivers_iff s 0 [9]
    (zeroLocals _) (by decide) (hstored.symm ▸ by decide) 0
    { stepId := 5, gameState := [1, 2] } 0
  rw [hok] at hresult
  have hzero : result = 0 := eq_of_beq hresult
  -- The connection holds nothing yet and has room for 32 octets.
  have htakes : TakesState (s.connection 0).gameState { stepId := 5, gameState := [1, 2] } :=
    .inl ⟨.inl hempty, hcapacity.symm ▸ by decide⟩
  refine ⟨start, s, startsGame_of_blankGame hstart, hrun, ?_⟩
  exact (hiff (by omega)).mpr htakes

/-- A client downloads the state of step 40. A new game is started at step 0, and at step 3
the client asks again, under another id. It is told that it gets 3 octets for step 40. -/
theorem restarted_game_is_not_delivered :
    ∃ start s : Server plainExternal (plainSetup 1), StartsGame start ∧
      Reaches Server.step (fun s op => s.Enabled op) start s ∧
      ∃ rest sent s', nimbleServerReqDownloadGameState s 0 [10] 0 (zeroLocals _)
          { stepId := 3, gameState := [4] } 0 = .ok (0, rest, sent, s') ∧ sent ≠ [] ∧
        Announces s 0 [10] (zeroLocals _) { stepId := 3, gameState := [4] }
          { stepId := 40, octetCount := 3, clientRequestId := 10, transferId := 128 } := by
  obtain ⟨start, s, hstart, hrun, hanswer, hresult⟩ :=
    exists_run Server.step (fun s op => s.Enabled op)
      (fun s : Server plainExternal (plainSetup 1) =>
        announced s 0 [10] (zeroLocals _) { stepId := 3, gameState := [4] }
          = { stepId := 40, octetCount := 3, clientRequestId := 10, transferId := 128 } ∧
        (nimbleServerReqDownloadGameState s 0 [10] 0 (zeroLocals _)
          { stepId := 3, gameState := [4] } 0).toOption.any
            (fun r => r.1 == 0 && !r.2.2.1.isEmpty) = true)
      (plainGame 1)
      [.receive 0, .downloadGameState 0 [9] 0 (zeroLocals _)
        { stepId := 40, gameState := [1, 2, 3] } 0, .reInitWithGame 0] (by decide +kernel)
  obtain ⟨⟨result, rest, sent, s'⟩, hok, hcheck⟩ := exists_ok_of_any hresult
  simp only [Bool.and_eq_true, beq_iff_eq, Bool.not_eq_true', List.isEmpty_eq_false_iff] at hcheck
  obtain ⟨rfl, hsent⟩ := hcheck
  refine ⟨start, s, startsGame_of_blankGame hstart, hrun, rest, sent, s', hok, hsent, ?_⟩
  rw [← hanswer]
  exact reqDownloadGameState_eq (by decide) s 0 _

/-! ### From one request to the next -/

/-- The two connections answer a resend alike, and their next transfers get the same id. -/
structure SameAnswer (x x' : TransportConnection E S) : Prop where
  announcement : announcement x' = announcement x
  nextBlobStreamOutChannel : x'.nextBlobStreamOutChannel = x.nextBlobStreamOutChannel

/-- One change after the other. -/
theorem SameAnswer.trans {x x' x'' : TransportConnection E S} (h : SameAnswer x x')
    (h' : SameAnswer x' x'') : SameAnswer x x'' :=
  ⟨h'.announcement.trans h.announcement,
    h'.nextBlobStreamOutChannel.trans h.nextBlobStreamOutChannel⟩

/-- The stored id is part of the announcement. -/
theorem SameAnswer.requestId {x x' : TransportConnection E S} (h : SameAnswer x x') :
    x'.blobStreamOutClientRequestId = x.blobStreamOutClientRequestId :=
  congrArg Announcement.clientRequestId h.announcement

/-- Driving a transfer does not change its id. -/
theorem Driven.transferId [LawfulTransfers E] {logic logic' : E.BlobStreamLogicOut}
    (h : Driven logic logic') : E.transferId logic' = E.transferId logic := by
  induction h with
  | refl => rfl
  | receive _ inStream ih => exact (LawfulTransfers.receive_transferId _ inStream).trans ih
  | prepareSend _ now ih => exact (LawfulTransfers.prepareSend_transferId _ now).trans ih

/-- Nothing of the download changed, so the answer is the same, -/
theorem SameDownload.sameAnswer {x x' : TransportConnection E S} (h : SameDownload x x') :
    SameAnswer x x' := by
  refine ⟨?_, h.nextBlobStreamOutChannel⟩
  unfold NimbleServer.announcement
  rw [h.gameState, h.requestId, h.logic]

/-- also if parts of it were sent. -/
theorem SentDownload.sameAnswer [LawfulTransfers E] {t c : ConnectionPtr}
    {x x' : TransportConnection E S} (h : SentDownload t c x x') : SameAnswer x x' := by
  refine ⟨?_, h.nextBlobStreamOutChannel⟩
  unfold NimbleServer.announcement
  rw [h.gameState, h.requestId, h.driven.transferId]

/-- Only a download with a new id and `transportConnectionInit` change what is announced. -/
theorem DownloadOutcome.sameAnswer [LawfulTransfers E] {s : Server E S} {op : Op S}
    {c : ConnectionPtr} {events : List TransferEvent} {x' : TransportConnection E S}
    (h : DownloadOutcome s op c events x') (hinit : .connectionInit c ∉ events) :
    SameAnswer (downloaded s c op) x' := by
  cases h with
  | silent hop h => exact hop ▸ h.sameAnswer
  -- `transportConnectionInit` is excluded, and what a request starts is already in `downloaded`.
  | taken h => exact absurd List.mem_cons_self hinit
  | started hid h => exact h.sameAnswer
  | sent hop h => exact hop ▸ h.sameAnswer
  | other hdc hop => exact hop ▸ ⟨rfl, rfl⟩

/-- The next transfer id follows the one of the transfer that was started last. -/
structure NextFollows (x : TransportConnection E S) : Prop where
  lt : x.nextBlobStreamOutChannel < E.transferIdCount
  transferId_lt : x.blobStreamOutClientRequestId ≠ 0 →
    E.transferId x.blobStreamLogicOut < E.transferIdCount
  next : x.blobStreamOutClientRequestId ≠ 0 →
    x.nextBlobStreamOutChannel = (E.transferId x.blobStreamLogicOut + 1) % E.transferIdCount

/-- There is at least one transfer id. -/
theorem transferIdCount_pos [LawfulTransfers E] : 0 < E.transferIdCount :=
  Nat.zero_lt_of_lt LawfulTransfers.first_lt

/-- A new request gets the next transfer id. -/
theorem transferId_startDownload [LawfulTransfers E] {x : TransportConnection E S}
    (hx : NextFollows x) {requestId : UInt8}
    (hnew : requestId ≠ x.blobStreamOutClientRequestId) (state : SerializedGameState) :
    E.transferId (startDownload x requestId state).blobStreamLogicOut
      = x.nextBlobStreamOutChannel := by
  rw [startDownload_of_ne hnew]
  exact LawfulTransfers.init_transferId _ _ hx.lt

/-- A request keeps it, new or not, -/
theorem NextFollows.startDownload [LawfulTransfers E] {x : TransportConnection E S}
    (hx : NextFollows x) (requestId : UInt8) (state : SerializedGameState) :
    NextFollows (startDownload x requestId state) := by
  by_cases hnew : requestId = x.blobStreamOutClientRequestId
  · rw [show NimbleServer.startDownload x requestId state = x from if_pos hnew]
    exact hx
  · -- The transfer takes the stored number, and the number moves on.
    have hid := transferId_startDownload hx hnew state
    rw [startDownload_of_ne hnew] at hid ⊢
    exact ⟨Nat.mod_lt _ transferIdCount_pos, fun _ => hid.symm ▸ hx.lt, fun _ => by rw [hid]⟩

/-- so does any operation as far as downloads are started, -/
theorem NextFollows.downloaded [LawfulTransfers E] {s : Server E S} {c : ConnectionPtr}
    (h : NextFollows (s.connection c)) (op : Op S) : NextFollows (downloaded s c op) := by
  cases op with
  | downloadGameState t inStream clientTime uninitialized state now =>
    show NextFollows (if t = c then _ else _)
    split
    · exact h.startDownload _ state
    · exact h
  | _ => exact h

/-- and so does whatever keeps the answer. -/
theorem SameAnswer.nextFollows {x x' : TransportConnection E S} (h : SameAnswer x x')
    (hx : NextFollows x) : NextFollows x' := by
  have htransfer : E.transferId x'.blobStreamLogicOut = E.transferId x.blobStreamLogicOut :=
    congrArg Announcement.transferId h.announcement
  refine ⟨h.nextBlobStreamOutChannel ▸ hx.lt, fun hne => ?_, fun hne => ?_⟩
  · rw [htransfer]
    exact hx.transferId_lt (h.requestId ▸ hne)
  · rw [h.nextBlobStreamOutChannel, htransfer]
    exact hx.next (h.requestId ▸ hne)

/-- No transfer was started yet. -/
theorem InitialDownload.nextFollows [LawfulTransfers E] {x x' : TransportConnection E S}
    (h : InitialDownload x x') : NextFollows x' :=
  ⟨h.nextBlobStreamOutChannel ▸ LawfulTransfers.first_lt, fun hne => absurd h.requestId hne,
    fun hne => absurd h.requestId hne⟩

/-- `transportConnectionInit` establishes it, whatever the slot held before. -/
theorem nextFollows_of_init [LawfulTransfers E] {s s' : Server E S} {op : Op S}
    {c : ConnectionPtr} (hinit : .connectionInit c ∈ transferEvents s op)
    (hstep : s.step op = .ok s') : NextFollows (s'.connection c) := by
  have houtcome := (step_downloadOutcome s op c).of_ok hstep
  generalize transferEvents s op = events, s'.connection c = x' at houtcome hinit
  cases houtcome with
  | silent => cases hinit
  | taken h => exact h.nextFollows
  | started => simp at hinit
  | sent => simp at hinit
  -- The events of another connection do not initialise this one.
  | other hdc _ hevents =>
    rcases hevents _ hinit with h | h | h
    · exact absurd (TransferEvent.connectionInit.inj h).symm hdc
    · cases h
    · cases h

/-- Every step keeps it. -/
theorem nextFollows_step [LawfulTransfers E] {s s' : Server E S} {op : Op S}
    {c : ConnectionPtr} (h : NextFollows (s.connection c)) (hstep : s.step op = .ok s') :
    NextFollows (s'.connection c) := by
  by_cases hinit : .connectionInit c ∈ transferEvents s op
  · exact nextFollows_of_init hinit hstep
  · exact (((step_downloadOutcome s op c).of_ok hstep).sameAnswer hinit).nextFollows
      (h.downloaded op)

/-- Download requests on the connection have this id. -/
@[reducible] def Op.RequestsOnly (E : External) (t : ConnectionPtr) (requestId : UInt8) :
    Op S → Prop
  | .downloadGameState c inStream _ uninitialized _ _ =>
    c = t → downloadRequestId E inStream uninitialized = requestId
  | _ => True

/-- The condition can be evaluated for each operation. -/
instance (t : ConnectionPtr) (requestId : UInt8) (op : Op S) :
    Decidable (op.RequestsOnly E t requestId) :=
  Op.decidableOf (Op.RequestsOnly E t requestId) op

/-- A resend starts nothing. -/
theorem downloaded_eq_self {s : Server E S} {t : ConnectionPtr} {op : Op S}
    (hop : op.RequestsOnly E t (s.connection t).blobStreamOutClientRequestId) :
    downloaded s t op = s.connection t := by
  cases op with
  | downloadGameState c inStream clientTime uninitialized state now =>
    show (if c = t then _ else _) = _
    split
    · rename_i hct
      exact if_pos (hop hct)
    · rfl
  | _ => rfl

/-- The steps between two requests. -/
def BetweenRequests (t : ConnectionPtr) (requestId : UInt8) (s : Server E S) (op : Op S) : Prop :=
  .connectionInit t ∉ transferEvents s op ∧ op.RequestsOnly E t requestId

/-- Both parts are decidable. -/
instance (t : ConnectionPtr) (requestId : UInt8) (s : Server E S) (op : Op S) :
    Decidable (BetweenRequests t requestId s op) :=
  inferInstanceAs (Decidable (_ ∧ _))

/-- One step between two requests. -/
theorem betweenRequests_step [LawfulTransfers E] {t : ConnectionPtr} {s : Server E S}
    {x : TransportConnection E S} (h : SameAnswer x (s.connection t)) {op : Op S}
    (hop : BetweenRequests t x.blobStreamOutClientRequestId s op) :
    Ensures (s.step op) (fun s' => SameAnswer x (s'.connection t)) (fun _ => True) := by
  refine (step_downloadOutcome s op t).mono (fun s' houtcome => ?_) fun _ h => h
  -- The only request that can come is a resend, which starts nothing.
  have hsame := houtcome.sameAnswer hop.1
  rw [downloaded_eq_self (h.requestId ▸ hop.2)] at hsame
  exact h.trans hsame

/-- Whatever happens between two requests, the second finds what the first left. -/
theorem sameAnswer_between [LawfulTransfers E] {t : ConnectionPtr} {s s' : Server E S}
    (hrun : Reaches Server.step
      (BetweenRequests t (s.connection t).blobStreamOutClientRequestId) s s') :
    SameAnswer (s.connection t) (s'.connection t) :=
  hrun.invariant (fun s' => SameAnswer (s.connection t) (s'.connection t)) ⟨rfl, rfl⟩
    fun _ _ h hop => betweenRequests_step h hop

/-- A run of any operations. -/
theorem nextFollows_run [LawfulTransfers E] {c : ConnectionPtr} {start s : Server E S}
    (hrun : Reaches Server.step (fun _ _ => True) start s)
    (h : NextFollows (start.connection c)) : NextFollows (s.connection c) :=
  hrun.invariant (fun s => NextFollows (s.connection c)) h fun _ _ h _ =>
    Ensures.of_eq_ok fun _ hstep => nextFollows_step h hstep

/-- The next transfer id is another one, also when it wraps around. -/
theorem add_one_mod_ne {n count : Nat} (hcount : 1 < count) (hn : n < count) :
    (n + 1) % count ≠ n := by
  by_cases hlast : n + 1 = count
  · rw [hlast, Nat.mod_self]
    omega
  · rw [Nat.mod_eq_of_lt (by omega)]
    omega

/-- A request that was handled has an id: the source stops at zero. -/
theorem downloadRequestId_ne_zero {s s' : Server E S} {t : ConnectionPtr} {inStream : InStream}
    {clientTime : UInt16} {uninitialized : Uninitialized S} {state : SerializedGameState}
    {now : Nat}
    (h : s.step (.downloadGameState t inStream clientTime uninitialized state now) = .ok s') :
    downloadRequestId E inStream uninitialized ≠ 0 := by
  intro hzero
  unfold downloadRequestId at hzero
  simp only [Server.step, nimbleServerReqDownloadGameState, hzero, if_true] at h
  cases h

/-- After a request the connection stores its id. -/
theorem requestId_startDownload (x : TransportConnection E S) (requestId : UInt8)
    (state : SerializedGameState) :
    (startDownload x requestId state).blobStreamOutClientRequestId = requestId := by
  by_cases hnew : requestId = x.blobStreamOutClientRequestId
  · rw [startDownload, if_pos hnew]
    exact hnew.symm
  · rw [startDownload_of_ne hnew]

/-- A handled request leaves behind what it announced. -/
theorem sameAnswer_request [LawfulTransfers E] {s s' : Server E S} {t : ConnectionPtr}
    {inStream : InStream} {clientTime : UInt16} {uninitialized : Uninitialized S}
    {state : SerializedGameState} {now : Nat}
    (h : s.step (.downloadGameState t inStream clientTime uninitialized state now) = .ok s') :
    SameAnswer (startedDownload s t inStream uninitialized state) (s'.connection t) := by
  have hdownloaded : downloaded s t
      (.downloadGameState t inStream clientTime uninitialized state now)
      = startedDownload s t inStream uninitialized state := if_pos rfl
  rw [← hdownloaded]
  refine ((step_downloadOutcome s _ t).of_ok h).sameAnswer ?_
  simp only [transferEvents]
  split
  · simp
  · simp

/-- Take a connection after `transportConnectionInit`, after any run, at a download request.
Then let anything happen except another initialisation of the connection and requests with
other ids. A further request with the same id is answered with the same announcement. One with
another id gets the next transfer id, which is a different one. -/
theorem download_answers [LawfulTransfers E] {t : ConnectionPtr} {s start s0 s1 s2 : Server E S}
    {op : Op S} (hinit : .connectionInit t ∈ transferEvents s op) (hstart : s.step op = .ok start)
    (hbefore : Reaches Server.step (fun _ _ => True) start s0) {inStream : InStream}
    {clientTime : UInt16} {uninitialized : Uninitialized S} {state : SerializedGameState}
    {now : Nat}
    (hfirst : s0.step (.downloadGameState t inStream clientTime uninitialized state now)
      = .ok s1)
    (hrun : Reaches Server.step
      (BetweenRequests t (downloadRequestId E inStream uninitialized)) s1 s2)
    (inStream' : InStream) (uninitialized' : Uninitialized S) (state' : SerializedGameState)
    (hid : downloadRequestId E inStream' uninitialized' ≠ 0) :
    Announces s0 t inStream uninitialized state
      (announced s0 t inStream uninitialized state) ∧
    Announces s2 t inStream' uninitialized' state'
      (announced s2 t inStream' uninitialized' state') ∧
    (downloadRequestId E inStream' uninitialized' = downloadRequestId E inStream uninitialized →
      announced s2 t inStream' uninitialized' state'
        = announced s0 t inStream uninitialized state) ∧
    (downloadRequestId E inStream' uninitialized' ≠ downloadRequestId E inStream uninitialized →
      (announced s2 t inStream' uninitialized' state').transferId
        = ((announced s0 t inStream uninitialized state).transferId + 1) % E.transferIdCount ∧
      (announced s2 t inStream' uninitialized' state').transferId
        ≠ (announced s0 t inStream uninitialized state).transferId) := by
  have hne := downloadRequestId_ne_zero hfirst
  have hrequest : (startedDownload s0 t inStream uninitialized state).blobStreamOutClientRequestId
      = downloadRequestId E inStream uninitialized := requestId_startDownload _ _ _
  -- From the initialisation of the connection on, the next id follows the last transfer.
  have hfollows : NextFollows (startedDownload s0 t inStream uninitialized state) :=
    (nextFollows_run hbefore (nextFollows_of_init hinit hstart)).startDownload _ _
  -- The second request finds what the first one announced.
  have hleft := sameAnswer_request hfirst
  have hbetween := sameAnswer_between ((hleft.requestId.trans hrequest).symm ▸ hrun)
  have hfound := hleft.trans hbetween
  have hstored := hfound.requestId.trans hrequest
  refine ⟨reqDownloadGameState_eq hne s0 t state, reqDownloadGameState_eq hid s2 t state',
    fun hsame => ?_, fun hother => ?_⟩
  · have hresend : startedDownload s2 t inStream' uninitialized' state' = s2.connection t :=
      if_pos (hsame.trans hstored.symm)
    unfold announced
    rw [hresend]
    exact hfound.announcement
  · have htransfer : (announced s2 t inStream' uninitialized' state').transferId
        = ((announced s0 t inStream uninitialized state).transferId + 1) % E.transferIdCount :=
      calc (announced s2 t inStream' uninitialized' state').transferId
          = (s2.connection t).nextBlobStreamOutChannel :=
            transferId_startDownload (hfound.nextFollows hfollows) (hstored.symm ▸ hother) state'
        _ = (startedDownload s0 t inStream uninitialized state).nextBlobStreamOutChannel :=
            hfound.nextBlobStreamOutChannel
        _ = _ := hfollows.next (hrequest.symm ▸ hne)
    have hlt : (announced s0 t inStream uninitialized state).transferId < E.transferIdCount :=
      hfollows.transferId_lt (hrequest.symm ▸ hne)
    -- The first transfer id of a connection is 127, so there are at least two.
    have hcount : 127 < E.transferIdCount := LawfulTransfers.first_lt
    exact ⟨htransfer, htransfer ▸ add_one_mod_ne (by omega) hlt⟩

/-- A client asks for the state, joins, drives the transfer and asks again with the same id,
although the application now has another state. Asked with a new id, the server starts the
next transfer. -/
theorem download_answers_resend :
    ∃ (s0 s2 : Server plainExternal (plainSetup 2)) (answer answer' : Announcement),
      Announces s0 0 [9] (zeroLocals _) { stepId := 0, gameState := [1, 2, 3] } answer ∧
      Announces s2 0 [9] (zeroLocals _) { stepId := 7, gameState := [4] } answer ∧
      Announces s2 0 [10] (zeroLocals _) { stepId := 7, gameState := [4] } answer' ∧
      answer'.transferId = (answer.transferId + 1) % 65536 := by
  have hrun : ((plainGame 2).toOption.any fun s =>
      decide (.connectionInit 0 ∈ transferEvents s (.receive 0)) &&
        (s.step (.receive 0)).toOption.any fun start =>
          (start.step (plainDownload 0)).toOption.any fun s1 =>
            (runChecked Server.step (fun s op => decide (BetweenRequests 0 9 s op)) s1
              [.join 0 onePlayer (zeroLocals _), .blobStream 0 [] 0 0, plainDownload 0]).isSome)
      = true := by
    decide +kernel
  obtain ⟨s, -, hrun⟩ := exists_ok_of_any hrun
  rw [Bool.and_eq_true, decide_eq_true_eq] at hrun
  obtain ⟨s0, hstart, hdownload⟩ := exists_ok_of_any hrun.2
  obtain ⟨s1, hfirst, hsome⟩ := exists_ok_of_any hdownload
  obtain ⟨s2, hs2⟩ := Option.isSome_iff_exists.mp hsome
  have hbetween := reaches_of_runChecked _ s1 s2 hs2
  obtain ⟨hanswer, hanswer', hsame, -⟩ := download_answers hrun.1 hstart .refl hfirst hbetween
    [9] (zeroLocals _) { stepId := 7, gameState := [4] } (by decide)
  obtain ⟨-, hother, -, hnext⟩ := download_answers hrun.1 hstart .refl hfirst hbetween
    [10] (zeroLocals _) { stepId := 7, gameState := [4] } (by decide)
  exact ⟨s0, s2, _, _, hanswer, hsame rfl ▸ hanswer', hother, (hnext (by decide)).1⟩

end NimbleServer
