import NimbleServer.Lib.Numbered
import NimbleServer.Model.PlainServer
import NimbleServer.Proofs.Feed

/-!
# `NimbleServer.Proofs.SequenceNumbers`: outgoing datagrams are numbered without a gap

Every datagram of a connection starts with a sequence number. It is written by
`orderedDatagramOutLogicPrepare` and advanced by `orderedDatagramOutLogicCommit`, and the two
calls are far apart: `nimbleServerFeed` prepares the header of a reply before it knows
whether there will be one, and the handlers of downloads and blob streams prepare, commit and
send headers of their own meanwhile.

`Sends Q i s sent s'` says what a part of a call did on connection `i`: it sent the datagrams
`sent`, numbered from where `s` stood, and left the numbers of the other connections alone.

* A blob stream part and a game state response commit one header and send one datagram.
* A handler that returns a reply sends nothing itself (`Replied.reply`), so the header of the
  reply is still the current one.
* The download handler sends on its own and returns no reply (`Replied.own`). The stale
  header in its stream has at most four octets, so `nimbleServerFeed` does not send it.
-/

set_option autoImplicit false

namespace NimbleServer

open NimbleServer.Lib

variable {E : External} {S : Setup}

/-! ### Streams -/

namespace OutStream.Grows

variable {a b c : OutStream}

/-- Nothing is written. -/
theorem refl (a : OutStream) : a.Grows a := ⟨List.prefix_rfl, rfl, fun h => h, rfl⟩

/-- One writer after the other. -/
theorem trans (h : a.Grows b) (h' : b.Grows c) : a.Grows c where
  octets := h.octets.trans h'.octets
  capacity := h'.capacity.trans h.capacity
  fits := by
    intro ha
    have hb : b.octets.length ≤ b.capacity := h.capacity ▸ h.fits ha
    exact h.capacity ▸ h'.fits hb
  writeDebugInfo := h'.writeDebugInfo.trans h.writeDebugInfo

end OutStream.Grows

/-- A stream without octets over a buffer of `size` octets. -/
structure OutStream.IsEmpty (stream : OutStream) (size : Nat) : Prop where
  octets : stream.octets = []
  capacity : stream.capacity = size

section Init

variable (E) [hstreams : LawfulOutStreams E]

/-- A new stream is empty. -/
theorem isEmpty_init (size : Nat) : (E.fldOutStreamInit size).IsEmpty size := by
  rw [hstreams.init_eq]
  exact ⟨rfl, rfl⟩

/-- So is that of a reply, which leaves 32 octets of a datagram unused. -/
theorem isEmpty_replyOutStream :
    (replyOutStream E).IsEmpty (E.DATAGRAM_TRANSPORT_MAX_SIZE - 32) := by
  unfold replyOutStream
  rw [hstreams.init_eq]
  exact ⟨rfl, rfl⟩

/-- So is that of a blob stream part, which has the whole datagram. -/
theorem isEmpty_blobStreamOutStream :
    (blobStreamOutStream E).IsEmpty E.DATAGRAM_TRANSPORT_MAX_SIZE := by
  unfold blobStreamOutStream
  rw [hstreams.init_eq]
  exact ⟨rfl, rfl⟩

end Init

namespace SequenceNumbers

variable (Q : SequenceNumbers E)

/-- The stream starts with the number `n` and has not left its buffer of `size` octets. -/
structure Headed (n size : Nat) (stream : OutStream) : Prop where
  number : Q.octets n <+: stream.octets
  capacity : stream.capacity = size
  fits : stream.octets.length ≤ size

variable {Q}

/-- What is written later comes after the number. -/
theorem Headed.grows {n size : Nat} {a b : OutStream} (h : Q.Headed n size a)
    (hgrows : a.Grows b) : Q.Headed n size b where
  number := h.number.trans hgrows.octets
  capacity := hgrows.capacity.trans h.capacity
  fits := h.capacity ▸ hgrows.fits (h.capacity.symm ▸ h.fits)

/-- The number a receiver reads. -/
theorem Headed.read {n size : Nat} {stream : OutStream} (h : Q.Headed n size stream)
    (hn : n < Q.modulus) : Q.read stream.octets = n := by
  obtain ⟨rest, hrest⟩ := h.number
  rw [← hrest]
  exact Q.read_octets n rest hn

variable (Q)

/-- The number is written to an empty stream that has room for it. -/
theorem prepare_isEmpty (logic : E.OutLogic) {stream : OutStream} {size : Nat}
    (hempty : stream.IsEmpty size) (hroom : 2 ≤ size) :
    E.orderedDatagramOutLogicPrepare logic stream
      = { stream with octets := Q.octets (Q.number logic) } := by
  have hlength := Q.octets_length (Q.number logic)
  have hfits : stream.octets.length + (Q.octets (Q.number logic)).length ≤ stream.capacity := by
    rw [hempty.octets, hempty.capacity]
    simp only [List.length_nil]
    omega
  rw [Q.prepare_ok logic stream hfits, hempty.octets]
  rfl

variable [hstreams : LawfulOutStreams E]

/-- A header starts with the sequence number. -/
theorem writeHeader (c : TransportConnection E S) {stream : OutStream} {size : Nat}
    (hempty : stream.IsEmpty size) (hroom : 2 ≤ size) (clientTime : UInt16) :
    Q.Headed (Q.number c.orderedDatagramOutLogic) size
      (transportConnectionWriteHeader c stream clientTime).2 := by
  have hlength := Q.octets_length (Q.number c.orderedDatagramOutLogic)
  have hprepared : Q.Headed (Q.number c.orderedDatagramOutLogic) size
      (E.orderedDatagramOutLogicPrepare c.orderedDatagramOutLogic stream) := by
    rw [Q.prepare_isEmpty _ hempty hroom]
    exact ⟨List.prefix_rfl, hempty.capacity, hlength.trans hroom⟩
  exact hprepared.grows (hstreams.writeUInt16_grows _ _)

include Q in
/-- Without debug info a header has at most four octets: the sequence number and the client
time. -/
theorem length_writeHeader (c : TransportConnection E S) {stream : OutStream} {size : Nat}
    (hempty : stream.IsEmpty size) (hroom : 2 ≤ size) (hdebug : stream.writeDebugInfo = false)
    (clientTime : UInt16) :
    (transportConnectionWriteHeader c stream clientTime).2.octets.length ≤ 4 := by
  have hlength := Q.octets_length (Q.number c.orderedDatagramOutLogic)
  have hprepare := Q.prepare_isEmpty c.orderedDatagramOutLogic hempty hroom
  unfold transportConnectionWriteHeader
  rw [hprepare]
  dsimp only
  -- The client time takes two octets, or none if it does not fit.
  by_cases htime : (E.fldOutStreamWriteUInt16
      { stream with octets := Q.octets (Q.number c.orderedDatagramOutLogic) } clientTime).1 < 0
  · rw [hstreams.writeUInt16_full _ _ htime]
    exact hlength.trans (by decide)
  · have hwritten := hstreams.writeUInt16_length
      { stream with octets := Q.octets (Q.number c.orderedDatagramOutLogic) } clientTime hdebug
      (Int.not_lt.mp htime)
    rw [hwritten]
    exact Nat.add_le_add_right hlength 2

include Q in
/-- A header is complete only in a buffer that has room for the number. -/
theorem two_le_of_writeHeader {c : TransportConnection E S} {stream : OutStream} {size : Nat}
    (hempty : stream.IsEmpty size) (hdebug : stream.writeDebugInfo = false)
    {clientTime : UInt16} (h : 0 ≤ (transportConnectionWriteHeader c stream clientTime).1) :
    2 ≤ size := by
  have hprepare := Q.prepare_grows c.orderedDatagramOutLogic stream
  have hwritten := hstreams.writeUInt16_length
    (E.orderedDatagramOutLogicPrepare c.orderedDatagramOutLogic stream) clientTime
    (hprepare.writeDebugInfo.trans hdebug) h
  -- The client time alone takes two octets, and the stream started empty.
  have hfits := (hprepare.trans (hstreams.writeUInt16_grows _ clientTime)).fits
    (by rw [hempty.octets]; exact Nat.zero_le _)
  rw [hempty.capacity] at hfits
  omega

/-- The header of a reply, which has the size of a reply's buffer to itself. -/
theorem writesHeader {s : Server E S} {t : ConnectionPtr} {clientTime : UInt16}
    {outStream : OutStream} (h : WritesHeader s t clientTime outStream) :
    Q.Headed (Q.number (s.connection t).orderedDatagramOutLogic)
        (E.DATAGRAM_TRANSPORT_MAX_SIZE - 32) outStream ∧ outStream.octets.length ≤ 4 := by
  have hempty := isEmpty_replyOutStream E
  have hroom := Q.two_le_of_writeHeader hempty rfl h.ok
  rw [← h.stream]
  exact ⟨Q.writeHeader _ hempty hroom clientTime,
    Q.length_writeHeader _ hempty hroom rfl clientTime⟩

end SequenceNumbers

/-! ### What a part of a call sends -/

/-- The number of the next datagram on the connection. -/
def SequenceNumbers.next (Q : SequenceNumbers E) (s : Server E S) (i : ConnectionPtr) : Nat :=
  Q.number (s.connection i).orderedDatagramOutLogic

/-- On connection `i` the datagrams `sent` were sent, with consecutive numbers. A connection
that is in use stays so, and the others keep their numbers. -/
structure Sends (Q : SequenceNumbers E) (i : ConnectionPtr) (s : Server E S)
    (sent : List (List UInt8)) (s' : Server E S) : Prop where
  numbered : Numbered Q.modulus Q.read (Q.next s i) sent (Q.next s' i)
  isUsed : ∀ c, (s.connection c).isUsed = true → (s'.connection c).isUsed = true
  others : ∀ c, c ≠ i → (s.connection c).isUsed = true →
    (s'.connection c).orderedDatagramOutLogic = (s.connection c).orderedDatagramOutLogic

namespace Sends

variable {Q : SequenceNumbers E} {i : ConnectionPtr} {s s' s'' : Server E S}

/-- One part of a call after the other. -/
theorem trans {sent sent' : List (List UInt8)} (h : Sends Q i s sent s')
    (h' : Sends Q i s' sent' s'') : Sends Q i s (sent ++ sent') s'' where
  numbered := h.numbered.append h'.numbered
  isUsed := fun c hc => h'.isUsed c (h.isUsed c hc)
  others := fun c hne hc => (h'.others c hne (h.isUsed c hc)).trans (h.others c hne hc)

/-- Nothing was sent, and no connection that is in use changed its number. -/
theorem silent (hi : (s.connection i).isUsed = true)
    (h : ∀ c, (s.connection c).isUsed = true → (s'.connection c).isUsed = true ∧
      (s'.connection c).orderedDatagramOutLogic = (s.connection c).orderedDatagramOutLogic) :
    Sends Q i s [] s' where
  numbered := by
    have hnext : Q.next s' i = Q.next s i := congrArg Q.number (h i hi).2
    rw [hnext]
    exact .nil (Q.number_lt _)
  isUsed := fun c hc => (h c hc).1
  others := fun c _ hc => (h c hc).2

/-- A part that does nothing. -/
theorem refl (hi : (s.connection i).isUsed = true) : Sends Q i s [] s :=
  silent hi fun _ hc => ⟨hc, rfl⟩

/-- The connections are the same. -/
theorem of_connection_eq (hi : (s.connection i).isUsed = true)
    (h : ∀ c, s'.connection c = s.connection c) : Sends Q i s [] s' := by
  refine silent hi ?_
  intro c hc
  rw [h c]
  exact ⟨hc, rfl⟩

/-- Assigning to the connection something that keeps its number. -/
theorem setConnection (hi : (s.connection i).isUsed = true) {x : TransportConnection E S}
    (hused : x.isUsed = (s.connection i).isUsed)
    (hlogic : x.orderedDatagramOutLogic = (s.connection i).orderedDatagramOutLogic) :
    Sends Q i s [] (s.setConnection i x) := by
  refine silent hi ?_
  intro c hc
  rw [Server.connection_setConnection]
  split
  · rename_i hic
    subst hic
    exact ⟨hused.trans hc, hlogic⟩
  · exact ⟨hc, rfl⟩

/-- A header is committed and the datagram it was written to is sent. -/
theorem commitHeader {capacity : Nat} {stream : OutStream}
    (h : Q.Headed (Q.next s i) capacity stream) :
    Sends Q i s [stream.octets]
      (s.setConnection i (transportConnectionCommitHeader (s.connection i))) where
  numbered := by
    refine .single (Q.number_lt _) (h.read (Q.number_lt _)) ?_
    unfold SequenceNumbers.next
    rw [Server.connection_setConnection, if_pos rfl]
    exact Q.number_commit _
  isUsed := by
    intro c hc
    rw [Server.connection_setConnection]
    split
    · rename_i hic
      exact hic ▸ hc
    · exact hc
  others := by
    intro c hne _
    rw [Server.connection_setConnection, if_neg hne.symm]

end Sends

section Handlers

variable (Q : SequenceNumbers E) [hwriters : LawfulWriters E] [hstreams : LawfulOutStreams E]

/-! ### Blob streams and downloads -/

/-- The datagram of one blob stream part. -/
def blobStreamPart (s : Server E S) (i : ConnectionPtr) (clientTime : UInt16)
    (entry : E.BlobStreamOutEntry) : OutStream :=
  E.blobStreamLogicOutSendEntry
    (E.nimbleSerializeWriteCommand (transportConnectionWriteHeader (s.connection i)
      (blobStreamOutStream E) clientTime).2
      E.NimbleSerializeCmdServerOutBlobStream)
    entry (E.transferId (s.connection i).blobStreamLogicOut)

omit hstreams in
/-- It is its header and what is written after that. -/
theorem blobStreamPart_grows (s : Server E S) (i : ConnectionPtr) (clientTime : UInt16)
    (entry : E.BlobStreamOutEntry) :
    (transportConnectionWriteHeader (s.connection i)
      (blobStreamOutStream E) clientTime).2.Grows
        (blobStreamPart s i clientTime entry) :=
  (hwriters.writeCommand _ _).trans (hwriters.sendEntry _ _ _)

/-- Its number is the current one. -/
theorem blobStreamPart_headed (s : Server E S) (i : ConnectionPtr) (clientTime : UInt16)
    (entry : E.BlobStreamOutEntry) :
    Q.Headed (Q.next s i) E.DATAGRAM_TRANSPORT_MAX_SIZE
      (blobStreamPart s i clientTime entry) := by
  have hroom : 2 ≤ E.DATAGRAM_TRANSPORT_MAX_SIZE := by
    have := hwriters.four_le_maxSize
    omega
  exact (Q.writeHeader (s.connection i) (isEmpty_blobStreamOutStream E) hroom clientTime).grows
    (blobStreamPart_grows s i clientTime entry)

include Q in
/-- Every part fits into a datagram, so it is sent. -/
theorem sendBlobStreamEntries_cons (s : Server E S) (i : ConnectionPtr) (clientTime : UInt16)
    (entry : E.BlobStreamOutEntry) (entries : List E.BlobStreamOutEntry)
    (sent : List (List UInt8)) :
    sendBlobStreamEntries i clientTime (entry :: entries) sent s
      = sendBlobStreamEntries i clientTime entries
        (sent ++ [(blobStreamPart s i clientTime entry).octets])
        (s.setConnection i (transportConnectionCommitHeader (s.connection i))) := by
  have hfits : ¬(blobStreamPart s i clientTime entry).octets.length
      > E.datagramTransportMaxSize := by
    rw [hwriters.maxSize_eq]
    exact Nat.not_lt.mpr (blobStreamPart_headed Q s i clientTime entry).fits
  exact if_neg hfits

/-- Every entry is one datagram. Induction on the entries that remain. -/
theorem sendBlobStreamEntries_sends (i : ConnectionPtr) (clientTime : UInt16) :
    ∀ (entries : List E.BlobStreamOutEntry) (sent : List (List UInt8)) (s : Server E S),
      (s.connection i).isUsed = true →
      ∃ more, (sendBlobStreamEntries i clientTime entries sent s).2.1 = sent ++ more ∧
        Sends Q i s more (sendBlobStreamEntries i clientTime entries sent s).2.2 := by
  intro entries
  induction entries with
  | nil =>
    intro sent s hi
    exact ⟨[], (List.append_nil sent).symm, .refl hi⟩
  | cons entry entries ih =>
    intro sent s hi
    have hsent := Sends.commitHeader (blobStreamPart_headed Q s i clientTime entry)
    rw [sendBlobStreamEntries_cons Q]
    obtain ⟨more, hmore, hsends⟩ := ih
      (sent ++ [(blobStreamPart s i clientTime entry).octets]) _ (hsent.isUsed i hi)
    refine ⟨_ :: more, ?_, hsent.trans hsends⟩
    rw [hmore, List.append_assoc]
    rfl

/-- The parts that are due are sent, and the stream's own state is no number. -/
theorem sendBlobStream_sends (i : ConnectionPtr) (clientTime : UInt16) (now : Nat)
    (sent : List (List UInt8)) {s : Server E S} (hi : (s.connection i).isUsed = true) :
    ∃ more, (nimbleServerSendBlobStream s i clientTime now sent).2.1 = sent ++ more ∧
      Sends Q i s more (nimbleServerSendBlobStream s i clientTime now sent).2.2 := by
  unfold nimbleServerSendBlobStream
  have hset : Sends Q i s [] (s.setConnection i { s.connection i with
      blobStreamLogicOut :=
        (E.blobStreamLogicOutPrepareSend (s.connection i).blobStreamLogicOut now).2 }) :=
    .setConnection hi rfl rfl
  obtain ⟨more, hmore, hsends⟩ := sendBlobStreamEntries_sends Q i clientTime
    (E.blobStreamLogicOutPrepareSend (s.connection i).blobStreamLogicOut now).1 sent _
    (hset.isUsed i hi)
  exact ⟨more, hmore, hset.trans hsends⟩

/-- A datagram is sent, and the blob stream parts follow it. -/
theorem commitAndSendBlobStream {i : ConnectionPtr} (clientTime : UInt16) (now : Nat)
    {s : Server E S} (hi : (s.connection i).isUsed = true) {size : Nat} {stream : OutStream}
    (h : Q.Headed (Q.next s i) size stream) :
    Sends Q i s
      (nimbleServerSendBlobStream (s.setConnection i (transportConnectionCommitHeader
        (s.connection i))) i clientTime now [stream.octets]).2.1
      (nimbleServerSendBlobStream (s.setConnection i (transportConnectionCommitHeader
        (s.connection i))) i clientTime now [stream.octets]).2.2 := by
  have hsent := Sends.commitHeader h
  obtain ⟨more, hmore, hsends⟩ :=
    sendBlobStream_sends Q i clientTime now [stream.octets] (hsent.isUsed i hi)
  rw [hmore]
  exact hsent.trans hsends

/-- The handler of a blob stream command sends parts and no reply. -/
theorem reqBlobStream_sends (i : ConnectionPtr) (inStream : InStream) (clientTime : UInt16)
    (now : Nat) {s : Server E S} (hi : (s.connection i).isUsed = true) :
    Sends Q i s (nimbleServerReqBlobStream s i inStream clientTime now).2.2.1
      (nimbleServerReqBlobStream s i inStream clientTime now).2.2.2 := by
  rcases hreceive : E.blobStreamLogicOutReceive (s.connection i).blobStreamLogicOut inStream with
    ⟨result, consumed, logic⟩
  have hset : Sends Q i s []
      (s.setConnection i { s.connection i with blobStreamLogicOut := logic }) :=
    .setConnection hi rfl rfl
  simp only [nimbleServerReqBlobStream, hreceive]
  split
  · exact hset
  · obtain ⟨more, hmore, hsends⟩ :=
      sendBlobStream_sends Q i clientTime now [] (hset.isUsed i hi)
    rw [hmore]
    exact hset.trans hsends

/-- The game state response is one datagram, and the blob stream parts follow it. -/
theorem reqDownloadGameState_sends (i : ConnectionPtr) (inStream : InStream)
    (clientTime : UInt16) (uninitialized : Uninitialized S) (state : SerializedGameState)
    (now : Nat) {s : Server E S} (hi : (s.connection i).isUsed = true) :
    Ensures (nimbleServerReqDownloadGameState s i inStream clientTime uninitialized state now)
      (fun r => Sends Q i s r.2.2.1 r.2.2.2) (fun _ => True) := by
  simp only [nimbleServerReqDownloadGameState]
  split
  · trivial
  · have hlogic : (startDownload (s.connection i) (readInto E.fldInStreamReadUInt8 inStream
        uninitialized.downloadClientRequestId).1 state).orderedDatagramOutLogic
        = (s.connection i).orderedDatagramOutLogic := by
      unfold startDownload
      split
      · rfl
      · rfl
    have hstart : Sends Q i s [] (s.setConnection i (startDownload (s.connection i)
        (readInto E.fldInStreamReadUInt8 inStream
          uninitialized.downloadClientRequestId).1 state)) :=
      .setConnection hi (SameSlots.startDownload _ _ _).isUsed hlogic
    split
    · exact hstart
    · split
      · exact hstart
      · -- The header is written to a buffer of 256 octets, and three writers follow it.
        have hheader := Q.writeHeader ((s.setConnection i (startDownload (s.connection i)
          (readInto E.fldInStreamReadUInt8 inStream uninitialized.downloadClientRequestId).1
          state)).connection i) (isEmpty_init E 256) (by decide) clientTime
        exact hstart.trans (commitAndSendBlobStream Q clientTime now (hstart.isUsed i hi)
          (((hheader.grows (hwriters.outGameStateResponse _ _ _ _ _)).grows
            (hwriters.writeCommand _ _)).grows (hwriters.startTransfer _ _)))

/-! ### The handlers that return a reply -/

/-- How the handler of a command ends, for the sequence numbers. -/
inductive Replied (i : ConnectionPtr) (s : Server E S) (outStream : OutStream) :
    Option (Int × InStream × OutStream × List (List UInt8)) × Server E S → Prop
  | unknown : Replied i s outStream (none, s)
  | reply {s' : Server E S} (code : Int) (rest : InStream) {reply : OutStream}
      (hsends : Sends Q i s [] s') (hgrows : outStream.Grows reply) :
      Replied i s outStream (some (code, rest, reply, []), s')
  | own {s' : Server E S} (code : Int) (rest : InStream) {sent : List (List UInt8)}
      (hsends : Sends Q i s sent s') :
      Replied i s outStream (some (code, rest, outStream, sent), s')

variable {i : ConnectionPtr} {s : Server E S} (hi : (s.connection i).isUsed = true)
include hi

omit hstreams in
/-- A connect request can take a slot into use, but none that is in use. -/
theorem reqConnect_sends (inStream : InStream) (outStream : OutStream) :
    Ensures (nimbleServerReqConnect s (UInt8.ofNat i.val) inStream outStream)
      (fun r => Sends Q i s [] r.2.2.2 ∧ outStream.Grows r.2.2.1) (fun _ => True) := by
  unfold nimbleServerReqConnect
  split
  · exact ⟨.refl hi, .refl outStream⟩
  · rename_i request consumed _
    refine Ensures.bind_of (fun r => Sends Q i s [] r.2) ?_ ?_
    · refine (acceptConnectRequest_ensures s _ request).mono ?_ fun _ _ => trivial
      intro r hr
      cases hr with
      | refused code => exact .refl hi
      | existing c => exact .refl hi
      | taken c hversion hfind hempty hfront hfree =>
        -- The slot that is taken was not in use, so the number it loses is nobody's.
        refine .silent hi fun d hd => ?_
        rw [Server.connection_setConnection, if_neg]
        · exact ⟨hd, rfl⟩
        · rintro rfl
          exact Bool.eq_false_iff.mp hfree hd
    · rintro ⟨result, s1⟩ hs1
      cases result with
      | error code => exact ⟨hs1, .refl outStream⟩
      | ok c => exact ⟨hs1, hwriters.outConnectResponse _ _⟩

omit hstreams in
/-- A join changes no number. -/
theorem reqGameJoin_sends (inStream : InStream) (outStream : OutStream)
    (uninitialized : Uninitialized S) :
    Ensures (nimbleServerReqGameJoin s i inStream outStream uninitialized)
      (fun r => Sends Q i s [] r.2.2.2 ∧ outStream.Grows r.2.2.1) (fun _ => True) := by
  unfold nimbleServerReqGameJoin
  split
  · exact ⟨.refl hi, .refl outStream⟩
  · rename_i request consumed _
    refine Ensures.bind_of (fun r => Sends Q i s [] r.2) ?_ ?_
    · refine (joinGame_ensures s i request uninitialized).mono ?_ fun _ _ => trivial
      rintro ⟨result, s1⟩ hr
      -- At most the party that a connection is assigned to changes.
      refine .silent hi fun c hc => ?_
      rcases hr.connection c with heq | ⟨p, -, -, heq⟩
      · rw [heq]
        exact ⟨hc, rfl⟩
      · rw [heq]
        exact ⟨hc, rfl⟩
    · rintro ⟨result, s1⟩ hs1
      cases result with
      | error code => exact ⟨hs1, hwriters.outOutOfParticipantSlots _ _⟩
      | ok p => exact ⟨hs1, hwriters.outJoinGameResponse _ _⟩

omit hi hstreams in
/-- The reply to a GameStep request is added to its stream. -/
theorem sendStepRanges_grows (s : Server E S) (outStream : OutStream) (stepId : StepId)
    (receiveMask : UInt64) :
    outStream.Grows (nimbleServerSendStepRanges s i outStream stepId receiveMask).2 := by
  unfold nimbleServerSendStepRanges
  split
  · exact .refl outStream
  · rename_i ranges lastReceived bufferDelta authoritativeBufferDelta _
    have hheader := hwriters.outStepHeader outStream lastReceived bufferDelta
      authoritativeBufferDelta
    dsimp only
    split
    · exact hheader
    · exact hheader.trans (hwriters.outRanges _ _ _)

omit hstreams in
/-- A GameStep request changes no number. -/
theorem reqGameStep_sends (inStream : InStream) (outStream : OutStream)
    (uninitialized : Uninitialized S) :
    Ensures (nimbleServerReqGameStep s i inStream outStream uninitialized)
      (fun r => Sends Q i s [] r.2.2.2 ∧ outStream.Grows r.2.2.1) (fun _ => True) := by
  unfold nimbleServerReqGameStep
  have hcompose : Ensures (readIncomingStepsAndCreateAuthoritativeSteps s i inStream
      uninitialized) (fun r => SameParties s r.2.2) (fun _ => True) :=
    (SameParties.of_readIncomingStepsAndCreateAuthoritativeSteps s i inStream
      uninitialized).mono (fun _ h => h) fun _ _ => trivial
  refine hcompose.bind ?_
  rintro ⟨result, rest, s1⟩ hs1
  have hsends : Sends Q i s [] s1 := .of_connection_eq hi hs1.connection
  cases result with
  | error code => exact ⟨hsends, .refl outStream⟩
  | ok waitingFor => exact ⟨hsends, sendStepRanges_grows s1 outStream _ _⟩

/-- The `switch` on the command. -/
theorem handleCommand_replied (cmd : UInt8) (inStream : InStream) (outStream : OutStream)
    (clientTime : UInt16) (environment : Environment S) (round : Nat) :
    Ensures (handleCommand s i cmd inStream outStream clientTime environment round)
      (Replied Q i s outStream) (fun _ => True) := by
  refine handleCommand_ensures ?_ ?_ ?_ ?_ .unknown cmd
  · exact (reqConnect_sends Q hi inStream outStream).mono
      (fun _ hr => .reply _ _ hr.1 hr.2) fun _ h => h
  · exact (reqGameStep_sends Q hi inStream outStream _).mono
      (fun _ hr => .reply _ _ hr.1 hr.2) fun _ h => h
  · exact (reqGameJoin_sends Q hi inStream outStream _).mono
      (fun _ hr => .reply _ _ hr.1 hr.2) fun _ h => h
  · exact (reqDownloadGameState_sends Q i inStream clientTime _ _ _ hi).mono
      (fun _ hr => .own _ _ hr) fun _ h => h

omit hi

/-! ### Datagrams -/

/-- What was sent before a command keeps its numbers, and a reply that is sent takes the next
one. -/
theorem Replied.keeps {s : Server E S} {outStream : OutStream} {clientTime : UInt16}
    (hheader : WritesHeader s i clientTime outStream)
    {r : Option (Int × InStream × OutStream × List (List UInt8)) × Server E S}
    (hr : Replied Q i s outStream r) {start : Server E S} {sent more : List (List UInt8)}
    (hmore : Sends Q i start more s) :
    ReplyKeeps i (fun sent' s' => ∃ more, sent' = sent ++ more ∧ Sends Q i start more s')
      (sent ++ more) r := by
  have hheaded := Q.writesHeader hheader
  cases hr with
  | unknown => exact ⟨more, rfl, hmore⟩
  | @reply s1 code rest reply hsends hgrows =>
    have hreply := hheaded.1.grows hgrows
    -- The handler has sent nothing, so the number in the header is still the next one.
    have hnext : Q.next s1 i = Q.next s i := by
      simpa [Nat.mod_eq_of_lt (Q.number_lt _), SequenceNumbers.next]
        using hsends.numbered.next_eq
    -- The buffer is smaller than the largest datagram, so the reply is sent.
    have hfits : ¬reply.octets.length > E.datagramTransportMaxSize := by
      have := hreply.fits
      rw [hwriters.maxSize_eq]
      omega
    have hsent : Q.Headed (Q.next s1 i) (E.DATAGRAM_TRANSPORT_MAX_SIZE - 32) reply := by
      rw [hnext]
      exact hreply
    refine ⟨⟨more ++ [], by rw [List.append_assoc], hmore.trans hsends⟩, fun _ _ => ?_⟩
    rw [if_neg hfits, List.append_nil, List.append_assoc]
    exact ⟨_, rfl, hmore.trans (hsends.trans (.commitHeader hsent))⟩
  | @own s1 code rest handlerSent hsends =>
    refine ⟨⟨_, List.append_assoc _ _ _, hmore.trans hsends⟩, fun _ hlong => ?_⟩
    -- The header in the stream of the reply is stale, and it is not sent.
    exact absurd hheaded.2 (Nat.not_le.mpr hlong)

/-- The loop over the commands. -/
theorem feedCommands_sends (clientTime : UInt16) (environment : Environment S)
    (fuel round : Nat) (inStream : InStream) (sent : List (List UInt8)) (s : Server E S)
    (hi : (s.connection i).isUsed = true) :
    Ensures (feedCommands i clientTime environment fuel round inStream sent s)
      (fun r => ∃ more, r.2.1 = sent ++ more ∧ Sends Q i s more r.2.2) (fun _ => True) := by
  refine feedCommands_ensures
    (fun sent' s' => ∃ more, sent' = sent ++ more ∧ Sends Q i s more s') trivial ?_ ?_ fuel
    round inStream sent s ⟨[], (List.append_nil sent).symm, .refl hi⟩
  · rintro round inStream _ s1 ⟨more, rfl, hmore⟩
    exact ⟨_, List.append_assoc _ _ _, hmore.trans
      (reqBlobStream_sends Q i inStream clientTime (environment.now round) (hmore.isUsed i hi))⟩
  · rintro round cmd inStream _ s1 outStream ⟨more, rfl, hmore⟩ hheader
    exact (handleCommand_replied Q (hmore.isUsed i hi) cmd inStream outStream clientTime
      environment round).mono (fun r hr => hr.keeps Q hheader hmore) fun _ h => h

/-- What a datagram sends goes out on the connection it came on, after that connection was
taken into use. -/
theorem nimbleServerFeed_sends (s : Server E S) (transportIndex : UInt8)
    (hlt : transportIndex.toNat < NIMBLE_NIMBLE_SERVER_MAX_TRANSPORT_CONNECTIONS)
    (data : List UInt8) (environment : Environment S) :
    Ensures (nimbleServerFeed s transportIndex data environment)
      (fun r => Sends Q ⟨transportIndex.toNat, hlt⟩
        (receiveOnConnection s ⟨transportIndex.toNat, hlt⟩) r.2.1 r.2.2) (fun _ => True) := by
  have hused := receiveOnConnection_isUsed s ⟨transportIndex.toNat, hlt⟩
  unfold nimbleServerFeed
  rw [dif_pos hlt]
  dsimp only
  split
  · exact .refl hused
  · have hordered : Sends Q ⟨transportIndex.toNat, hlt⟩
        (receiveOnConnection s ⟨transportIndex.toNat, hlt⟩) []
        (receiveOrdered (receiveOnConnection s ⟨transportIndex.toNat, hlt⟩)
          ⟨transportIndex.toNat, hlt⟩ data) :=
      .setConnection hused rfl rfl
    split
    · exact hordered
    · refine (feedCommands_sends Q _ environment _ 0 _ [] _ (hordered.isUsed _ hused)).mono ?_
        fun _ h => h
      rintro r ⟨more, hmore, hsends⟩
      rw [hmore]
      exact hordered.trans hsends

end Handlers

/-! ### Runs -/

/-- A call into the server: a datagram on some connection, or one of the other entry
points. -/
inductive Call (S : Setup)
  | feed (transportIndex : UInt8) (data : List UInt8) (environment : Environment S)
  | other (op : Op S) (hop : ¬op.IsDatagram)

/-- One call. Beside the server, the datagrams that were sent from the header of connection
`t` are collected. -/
def callStep (t : ConnectionPtr) (state : Server E S × List (List UInt8)) :
    Call S → Result (Server E S × List (List UInt8))
  | .feed transportIndex data environment =>
    (nimbleServerFeed state.1 transportIndex data environment).map fun r =>
      (r.2.2, if transportIndex.toNat = t.val then state.2 ++ r.2.1 else state.2)
  | .other op _ => (state.1.step op).map fun s => (s, state.2)

/-- A connection that is in use is not taken into use again. -/
theorem receiveOnConnection_of_isUsed {s : Server E S} {t : ConnectionPtr}
    (h : (s.connection t).isUsed = true) : receiveOnConnection s t = s :=
  if_pos h

/-- Only the slot of the datagram is taken into use. -/
theorem connection_receiveOnConnection (s : Server E S) {c t : ConnectionPtr} (h : c ≠ t) :
    (receiveOnConnection s t).connection c = s.connection c := by
  unfold receiveOnConnection
  split
  · rfl
  · rw [Server.connection_setConnection, if_neg h.symm]

/-- A datagram that comes while connection `t` is not in use leaves it so. -/
def Call.LeavesUnused (t : ConnectionPtr) (s : Server E S) : Call S → Prop
  | .feed transportIndex data environment =>
    transportIndex.toNat ≠ t.val ∧
      ∀ r, nimbleServerFeed s transportIndex data environment = .ok r →
        r.2.2.connection t = s.connection t
  | .other _ _ => True

/-- The call is not one that initialises connection `t`. A connection that is in use is not
initialised. One that is not in use is initialised by a datagram on its own index, and by a
connect request on another one that takes its slot. -/
def DoesNotInit (t : ConnectionPtr) (state : Server E S × List (List UInt8))
    (call : Call S) : Prop :=
  (state.1.connection t).isUsed = true ∨ call.LeavesUnused t state.1

/-- Assigning to a connection something that keeps its number. -/
theorem orderedDatagramOutLogic_setConnection {s : Server E S} {t : ConnectionPtr}
    {x : TransportConnection E S}
    (hx : x.orderedDatagramOutLogic = (s.connection t).orderedDatagramOutLogic)
    (c : ConnectionPtr) :
    ((s.setConnection t x).connection c).orderedDatagramOutLogic
      = (s.connection c).orderedDatagramOutLogic := by
  rw [Server.connection_setConnection]
  split
  · rename_i htc
    subst htc
    exact hx
  · rfl

/-- Only datagrams use sequence numbers. -/
theorem step_orderedDatagramOutLogic (s : Server E S) {op : Op S} (hop : ¬op.IsDatagram)
    (c : ConnectionPtr) :
    Ensures (s.step op) (fun s' => (s'.connection c).orderedDatagramOutLogic
      = (s.connection c).orderedDatagramOutLogic) (fun _ => True) := by
  cases op with
  | tick =>
    refine tickParties_ensures rfl ?_ fun _ _ _ _ _ => trivial
    intro s1 p s2 hs1 hs2
    -- A tick can release a connection, which keeps its number.
    rcases hs2.connection c with heq | heq
    · rw [heq]
      exact hs1
    · rw [heq]
      exact hs1
  | reInitWithGame _ | hostMigration _ _ =>
    refine (step_connection_eq s ?_ c).mono (fun s' hs' => ?_) fun _ h => h
    · trivial
    · rw [hs']
  | connectionConnected t =>
    show ((nimbleServerConnectionConnected s t).2.connection c).orderedDatagramOutLogic = _
    unfold nimbleServerConnectionConnected
    split
    · rfl
    · refine orderedDatagramOutLogic_setConnection ?_ c
      rfl
  | connectionDisconnected t =>
    refine Ensures.map ((connectionDisconnected_ensures
      (fun s' => (s'.connection c).orderedDatagramOutLogic
        = (s.connection c).orderedDatagramOutLogic) rfl t fun p _ _ => ?_).mono
      (fun _ h => h) (fun _ _ => trivial))
    refine orderedDatagramOutLogic_setConnection ?_ c
    rfl
  | receive _ | ordered _ _ | connect _ _ | join _ _ _ | incomingSteps _ _ _ | composeRound
  | downloadGameState _ _ _ _ _ _ | blobStream _ _ _ _ | commitHeader _ =>
    exact absurd trivial hop

/-- What a call sends from the header of the connection continues its numbers. -/
theorem callStep_numbered (Q : SequenceNumbers E) [LawfulWriters E] [LawfulOutStreams E]
    {t : ConnectionPtr} {first : Nat} {state : Server E S × List (List UInt8)}
    (h : Numbered Q.modulus Q.read first state.2 (Q.next state.1 t)) {call : Call S}
    (hcall : DoesNotInit t state call) :
    Ensures (callStep t state call)
      (fun state' => Numbered Q.modulus Q.read first state'.2 (Q.next state'.1 t))
      (fun _ => True) := by
  obtain ⟨s, sent⟩ := state
  have hkeep : ∀ s' : Server E S, (s'.connection t).orderedDatagramOutLogic
      = (s.connection t).orderedDatagramOutLogic →
      Numbered Q.modulus Q.read first sent (Q.next s' t) := by
    intro s' hs'
    have hnext : Q.next s' t = Q.next s t := congrArg Q.number hs'
    rw [hnext]
    exact h
  cases call with
  | other op hop =>
    exact Ensures.map ((step_orderedDatagramOutLogic s hop t).mono hkeep fun _ h => h)
  | feed transportIndex data environment =>
    refine Ensures.map (.of_eq_ok ?_)
    rintro ⟨code, datagrams, s'⟩ hfeed
    dsimp only
    rcases hcall with hused | ⟨hother, hleaves⟩
    · by_cases hlt : transportIndex.toNat < NIMBLE_NIMBLE_SERVER_MAX_TRANSPORT_CONNECTIONS
      · have hsends := (nimbleServerFeed_sends Q s transportIndex hlt data environment).of_ok
          hfeed
        by_cases ht : transportIndex.toNat = t.val
        · -- The connection's own datagram: it was in use, so it is not initialised.
          have htt : (⟨transportIndex.toNat, hlt⟩ : ConnectionPtr) = t := Fin.ext ht
          rw [if_pos ht]
          rw [htt, receiveOnConnection_of_isUsed hused] at hsends
          exact h.append hsends.numbered
        · -- The datagram of another connection, which leaves the numbers of this one alone.
          have htt : t ≠ ⟨transportIndex.toNat, hlt⟩ := by
            rintro rfl
            exact ht rfl
          rw [if_neg ht]
          have hreceive := connection_receiveOnConnection s htt
          refine hkeep s' ?_
          rw [hsends.others t htt (hreceive ▸ hused), hreceive]
      · -- There is no connection with this index, and nothing is fed.
        have hne : transportIndex.toNat ≠ t.val := by
          intro heq
          exact hlt (heq ▸ t.isLt)
        rw [if_neg hne]
        unfold nimbleServerFeed at hfeed
        rw [dif_neg hlt] at hfeed
        cases hfeed
        exact h
    · -- The connection is not in use, and the call leaves it so.
      rw [if_neg hother]
      exact hkeep s' (congrArg TransportConnection.orderedDatagramOutLogic (hleaves _ hfeed))

/-- A connection that a datagram takes into use starts at the initial number. -/
theorem orderedDatagramOutLogic_receiveOnConnection {s : Server E S} {t : ConnectionPtr}
    (h : (s.connection t).isUsed = false) :
    ((receiveOnConnection s t).connection t).orderedDatagramOutLogic
      = E.orderedDatagramOutLogicInit := by
  unfold receiveOnConnection
  rw [if_neg (Bool.eq_false_iff.mp h), Server.connection_setConnection, if_pos rfl]
  rfl

/-- In every run in which connection `t` is not initialised again, the datagrams sent from
its header carry consecutive sequence numbers, from the initial one on. Up to the point where
the numbers wrap, none is used twice. -/
theorem sequence_numbers_gapless (Q : SequenceNumbers E) [LawfulWriters E]
    [LawfulOutStreams E] {t : ConnectionPtr} {start s : Server E S} {sent : List (List UInt8)}
    (hinit : (start.connection t).orderedDatagramOutLogic = E.orderedDatagramOutLogicInit)
    (hrun : Reaches (callStep t) (DoesNotInit t) (start, []) (s, sent)) :
    sent.map Q.read
        = consecutive Q.modulus (Q.number E.orderedDatagramOutLogicInit) sent.length ∧
      (sent.length ≤ Q.modulus → (sent.map Q.read).Nodup) := by
  have hstart : Numbered Q.modulus Q.read (Q.number E.orderedDatagramOutLogicInit) []
      (Q.next start t) := by
    unfold SequenceNumbers.next
    rw [hinit]
    exact .nil (Q.number_lt _)
  have hnumbered := hrun.invariant
    (fun state => Numbered Q.modulus Q.read (Q.number E.orderedDatagramOutLogicInit) state.2
      (Q.next state.1 t)) hstart fun _ _ h hcall => callStep_numbered Q h hcall
  refine ⟨hnumbered.numbers, fun hlength => ?_⟩
  rw [hnumbered.numbers]
  exact consecutive_nodup _ hlength

/-- A client joins, sends a step and asks for the game state in one datagram, and then
acknowledges a blob stream part, with a tick before that. Five datagrams are sent. -/
theorem sequence_numbers_gapless_mixed :
    ∃ (start s : Server plainExternal (plainSetup 1)) (sent : List (List UInt8)),
      (start.connection 0).orderedDatagramOutLogic = plainExternal.orderedDatagramOutLogicInit ∧
      Reaches (callStep 0) (DoesNotInit 0) (start, []) (s, sent) ∧
      sent.length = 5 ∧ sent.map plainSequenceNumbers.read = [0, 1, 2, 3, 4] := by
  obtain ⟨game, hgame, hunused⟩ := map_eq_ok.mp
    (show (plainGame 1).map (fun game => (game.connection 0).isUsed) = .ok false by
      decide +kernel)
  have hinit := orderedDatagramOutLogic_receiveOnConnection hunused
  obtain ⟨start, ⟨s, sent⟩, hstart, hrun, hlength⟩ :=
    exists_run (callStep 0) (fun state _ => (state.1.connection 0).isUsed = true)
      (fun state : Server plainExternal (plainSetup 1) × List (List UInt8) =>
        state.2.length = 5)
      ((plainGame 1).map fun game => (receiveOnConnection game 0, []))
      [.feed 0 (datagram (3 :: joinOctets 0 0 1)) (plainEnvironment (zeroLocals _)),
        .feed 0 (datagram (2 :: gameStep 0 [[7]] ++ [4, 9])) (plainEnvironment (zeroLocals _)),
        .other .tick (by decide),
        .feed 0 (datagram [5]) (plainEnvironment (zeroLocals _))]
      (by decide +kernel)
  rw [hgame] at hstart
  cases hstart
  have hrun' : Reaches (callStep 0) (DoesNotInit 0) (receiveOnConnection game 0, [])
      (s, sent) := hrun.mono fun _ _ h => .inl h
  have hnumbers := (sequence_numbers_gapless plainSequenceNumbers hinit hrun').1
  rw [hlength] at hnumbers
  exact ⟨receiveOnConnection game 0, s, sent, hinit, hrun', hlength, hnumbers⟩

end NimbleServer
