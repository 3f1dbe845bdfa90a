import NimbleServer.Proofs.CompleteRequests
import NimbleServer.Proofs.SequenceNumbers

/-!
# `NimbleServer.Proofs.Determinism`: what a datagram does with variables nobody assigned

`nimbleServerFeed` depends on the server and the datagram, and on what some local variables
held before. `datagramDefined` walks over a datagram as `nimbleServerFeed` does and asks of
each command that is reached whether it is complete (`commandDefined`). A datagram that ends
before its client time can have one command, which is then the last octet; what is left to
ask is that no blob stream part is sent, because the client time is part of it.

* `feedCommands_of_defined`: where the walk succeeds, two runs that differ only in the
  variables do the same. Each command is handled in the same way, and the next one starts
  from the same state.
* `commandsDefined_of_eq`: at the first command for which it does not succeed, `zeroLocals`
  and `otherLocals` lead to different results. The commands before it have the same effect,
  and the difference is still there at the end: the run stops, or it returns another value.
-/

set_option autoImplicit false

namespace NimbleServer

open NimbleServer.Lib

variable {E : External} {S : Setup}

/-! ### One command of a datagram -/

/-- The last command of a datagram: the value that is returned is an error of its handler,
that of a reply that is not sent, or 0. -/
theorem afterCommand_last (t : ConnectionPtr) (clientTime : UInt16)
    (environment : Environment S) (fuel round : Nat) (sent : List (List UInt8)) (code : Int)
    (outStream : OutStream) (handlerSent : List (List UInt8)) (s : Server E S) :
    Ensures (afterCommand t clientTime environment fuel round sent
        (some (code, [], outStream, handlerSent), s))
      (fun r => r.1 = code ∨ r.1 = NimbleServerErrSerialize ∨ r.1 = 0) (fun _ => False) := by
  simp only [afterCommand]
  split
  · exact .inl rfl
  split
  · exact .inr (.inl rfl)
  split
  · exact .inr (.inl rfl)
  · rw [feedCommands_nil]
    exact .inr (.inr rfl)

section AfterCommand

variable {t : ConnectionPtr} {clientTime : UInt16} {environment : Environment S}
  {fuel round : Nat} {sent : List (List UInt8)} {code : Int} {rest : InStream}
  {reply : OutStream} {handlerSent : List (List UInt8)} {s : Server E S}

/-- What is left of the datagram is read only when the reply is sent. -/
theorem afterCommand_congr {environment' : Environment S}
    (h : ¬(code < 0 ∨ reply.octets.length ≤ 4 ∨
        reply.octets.length > E.datagramTransportMaxSize) →
      feedCommands t clientTime environment fuel (round + 1) rest
          (sent ++ handlerSent ++ [reply.octets])
          (s.setConnection t (transportConnectionCommitHeader (s.connection t)))
        = feedCommands t clientTime environment' fuel (round + 1) rest
          (sent ++ handlerSent ++ [reply.octets])
          (s.setConnection t (transportConnectionCommitHeader (s.connection t)))) :
    afterCommand t clientTime environment fuel round sent
        (some (code, rest, reply, handlerSent), s)
      = afterCommand t clientTime environment' fuel round sent
        (some (code, rest, reply, handlerSent), s) := by
  by_cases hsent : code < 0 ∨ reply.octets.length ≤ 4 ∨
      reply.octets.length > E.datagramTransportMaxSize
  · simp only [afterCommand]
    by_cases hcode : code < 0
    · rw [if_pos hcode, if_pos hcode]
    rw [if_neg hcode, if_neg hcode]
    by_cases hshort : reply.octets.length ≤ 4
    · rw [if_pos hshort, if_pos hshort]
    rw [if_neg hshort, if_neg hshort]
    -- Only the last of the three checks is left.
    have hlong := (hsent.resolve_left hcode).resolve_left hshort
    rw [if_pos hlong, if_pos hlong]
  · rw [afterCommand_sent hsent, afterCommand_sent hsent]
    exact h hsent

end AfterCommand

/-- Whether a header can be written does not depend on the client time. -/
theorem writeHeader_fst [hstreams : LawfulOutStreams E] (c : TransportConnection E S)
    (outStream : OutStream) (clientTime clientTime' : UInt16) :
    (transportConnectionWriteHeader c outStream clientTime).1
      = (transportConnectionWriteHeader c outStream clientTime').1 :=
  hstreams.writeUInt16_result _ _ _

/-- The header of a reply can be written. -/
def headerWritten (s : Server E S) (t : ConnectionPtr) : Bool :=
  decide (0 ≤ (transportConnectionWriteHeader (s.connection t) (replyOutStream E) 0).1)

/-- It can be written for every client time. -/
theorem writeHeader_of_headerWritten [LawfulOutStreams E] {s : Server E S} {t : ConnectionPtr}
    (h : headerWritten s t = true) (clientTime : UInt16) :
    0 ≤ (transportConnectionWriteHeader (s.connection t) (replyOutStream E) clientTime).1 := by
  rw [writeHeader_fst _ _ clientTime 0]
  exact of_decide_eq_true h

/-- So there is a stream with it. -/
theorem exists_header [LawfulOutStreams E] {s : Server E S} {t : ConnectionPtr}
    (h : headerWritten s t = true) (clientTime : UInt16) :
    ∃ outStream, WritesHeader s t clientTime outStream :=
  ⟨_, writeHeader_of_headerWritten h clientTime, rfl⟩

/-- Otherwise it can be written for none. -/
theorem writeHeader_of_headerWritten_false [LawfulOutStreams E] {s : Server E S}
    {t : ConnectionPtr} (h : headerWritten s t = false) (clientTime : UInt16) :
    (transportConnectionWriteHeader (s.connection t) (replyOutStream E) clientTime).1 < 0 := by
  rw [writeHeader_fst _ _ clientTime 0]
  exact Int.not_le.mp (of_decide_eq_false h)

/-- The octet `cmd` is the next command, whatever the variable for it held, and `inStream` is
what follows it. -/
def NextCommand (E : External) (octets : InStream) (cmd : UInt8) (inStream : InStream) : Prop :=
  ∃ consumed, E.fldInStreamReadUInt8 octets = (some cmd, consumed) ∧
    octets.drop consumed = inStream

/-- As long as there are octets there is a command, and what follows it is shorter. -/
theorem exists_nextCommand [hreads : LawfulInStreams E] {octets : InStream} (h : octets ≠ []) :
    ∃ cmd inStream, NextCommand E octets cmd inStream ∧ inStream.length < octets.length := by
  obtain ⟨octet, rest, rfl⟩ := List.exists_cons_of_ne_nil h
  obtain ⟨cmd, consumed, hconsumed, hread⟩ := hreads.readUInt8_cons octet rest
  refine ⟨cmd, _, ⟨consumed, hread, rfl⟩, ?_⟩
  rw [List.length_drop, List.length_cons]
  omega

/-- The command is read in every environment. -/
theorem NextCommand.reads [hreads : LawfulInStreams E] {octets inStream : InStream}
    {cmd : UInt8} (h : NextCommand E octets cmd inStream) (environment : Environment S)
    (round : Nat) : ReadsCommand E environment round octets cmd inStream := by
  obtain ⟨consumed, hread, rfl⟩ := h
  refine ⟨?_, readInto_of_some hread _⟩
  rintro rfl
  have hnil := hreads.readUInt8_nil
  rw [hread] at hnil
  cases hnil

/-- Without a header, two runs end with the same code. -/
theorem feedCommands_of_headerWritten_false [LawfulInStreams E] [LawfulOutStreams E]
    {s : Server E S} {t : ConnectionPtr} (h : headerWritten s t = false)
    {octets inStream : InStream} {cmd : UInt8} (hcmd : NextCommand E octets cmd inStream)
    (hblob : cmd ≠ E.NimbleSerializeCmdClientOutBlobStream) (clientTime clientTime' : UInt16)
    (environment environment' : Environment S) (fuel round : Nat) (sent : List (List UInt8)) :
    feedCommands t clientTime environment (fuel + 1) round octets sent s
      = feedCommands t clientTime' environment' (fuel + 1) round octets sent s := by
  rw [feedCommands_noHeader (hcmd.reads environment round) hblob
      (writeHeader_of_headerWritten_false h clientTime),
    feedCommands_noHeader (hcmd.reads environment' round) hblob
      (writeHeader_of_headerWritten_false h clientTime'),
    writeHeader_fst _ _ clientTime clientTime']

/-! ### A pointer that is assigned is followed -/

/-- Finding or creating the party follows no pointer of the handler. -/
theorem joinLocalParty_pointer (s : Server E S) (t : ConnectionPtr)
    (request : JoinGameRequest) :
    Ensures (joinLocalParty s t request) (fun _ => True)
      (fun fault => fault ≠ .uninitializedPointer) := by
  unfold joinLocalParty
  refine Ensures.bind_of (fun _ => True) ((findPartyForTransport_ensures s _).mono
    (fun _ _ => trivial) ?_) ?_
  · rintro fault ⟨rfl, -⟩
    decide
  · intro found _
    cases found with
    | some p => trivial
    | none =>
      dsimp only
      split
      · unfold nimbleServerLocalPartiesFindParty
        split
        · show Ensures (ite _ _ _) _ _
          split
          · trivial
          · trivial
        · exact (by decide : Fault.illegalPartyId ≠ .uninitializedPointer)
      · refine Ensures.bind_of (fun _ => True) ((nimbleServerLocalPartiesCreate_ensures s t
          request.players _).mono (fun _ _ => trivial) ?_) ?_
        · intro fault hfault
          cases hfault <;> decide
        · rintro ⟨result, s1⟩ _
          cases result with
          | error code => trivial
          | ok p => trivial

/-- A join with a pointer that points at a party does not stop at it. -/
theorem joinGame_pointer (s : Server E S) (t : ConnectionPtr) (request : JoinGameRequest)
    {uninitialized : Uninitialized S} {q : PartyPtr S} (h : uninitialized.party = some q) :
    Ensures (joinGame s t request uninitialized) (fun _ => True)
      (fun fault => fault ≠ .uninitializedPointer) := by
  unfold joinGame nimbleServerReadAndJoinParticipants
  refine (joinLocalParty_pointer s t request).bind ?_
  rintro ⟨result, s1⟩ _
  cases result with
  | error code => trivial
  | ok party =>
    cases party with
    | some p => trivial
    | none =>
      rw [h]
      trivial

/-- Nor does a connect request, -/
theorem reqConnect_pointer (s : Server E S) (transportIndex : UInt8) (inStream : InStream)
    (outStream : OutStream) :
    Ensures (nimbleServerReqConnect s transportIndex inStream outStream) (fun _ => True)
      (fun fault => fault ≠ .uninitializedPointer) := by
  unfold nimbleServerReqConnect
  split
  · trivial
  · rename_i request consumed _
    refine Ensures.bind_of (fun _ => True) ((acceptConnectRequest_ensures s _ request).mono
      (fun _ _ => trivial) ?_) ?_
    · intro fault hfault
      cases hfault <;> decide
    · rintro ⟨result, s1⟩ _
      cases result with
      | error code => trivial
      | ok c => trivial

/-- a GameStep request, -/
theorem reqGameStep_pointer (s : Server E S) (t : ConnectionPtr) (inStream : InStream)
    (outStream : OutStream) (uninitialized : Uninitialized S) :
    Ensures (nimbleServerReqGameStep s t inStream outStream uninitialized) (fun _ => True)
      (fun fault => fault ≠ .uninitializedPointer) := by
  unfold nimbleServerReqGameStep
  refine Ensures.bind_of (fun _ => True)
    ((SameParties.of_readIncomingStepsAndCreateAuthoritativeSteps s t inStream _).mono
      (fun _ _ => trivial) ?_) ?_
  · rintro fault ((rfl | rfl | rfl | rfl | rfl | rfl) | rfl) <;> decide
  · rintro ⟨result, rest, s1⟩ _
    cases result with
    | error code => trivial
    | ok waitingFor => trivial

/-- a join request -/
theorem reqGameJoin_pointer (s : Server E S) (t : ConnectionPtr) (inStream : InStream)
    (outStream : OutStream) {uninitialized : Uninitialized S} {q : PartyPtr S}
    (h : uninitialized.party = some q) :
    Ensures (nimbleServerReqGameJoin s t inStream outStream uninitialized) (fun _ => True)
      (fun fault => fault ≠ .uninitializedPointer) := by
  unfold nimbleServerReqGameJoin
  split
  · trivial
  · rename_i request consumed _
    refine (joinGame_pointer s t request h).bind ?_
    rintro ⟨result, s1⟩ _
    cases result with
    | error code => trivial
    | ok p => trivial

/-- or any command. -/
theorem handleCommand_pointer (s : Server E S) (t : ConnectionPtr) (cmd : UInt8)
    (inStream : InStream) (outStream : OutStream) (clientTime : UInt16)
    {environment : Environment S} {round : Nat} {q : PartyPtr S}
    (h : (environment.uninitialized round).party = some q) :
    Ensures (handleCommand s t cmd inStream outStream clientTime environment round)
      (fun _ => True) (fun fault => fault ≠ .uninitializedPointer) := by
  refine handleCommand_ensures (reqConnect_pointer s _ inStream outStream)
    (reqGameStep_pointer s t inStream outStream _)
    (reqGameJoin_pointer s t inStream outStream h) ?_ trivial cmd
  refine (SameSlots.reqDownloadGameState s t inStream clientTime _ _ _).mono
    (fun _ _ => trivial) ?_
  rintro fault rfl
  decide

/-- Everything keeps the invariant that says nothing. -/
theorem replyKeeps_true (t : ConnectionPtr) (sent : List (List UInt8))
    (r : Option (Int × InStream × OutStream × List (List UInt8)) × Server E S) :
    ReplyKeeps t (fun _ _ => True) sent r := by
  rcases r with ⟨_ | ⟨code, rest, reply, handlerSent⟩, s⟩
  · trivial
  · exact ⟨trivial, fun _ _ => trivial⟩

/-- Where the pointer of the join handler points at a party in every round, no datagram
follows it to nowhere. -/
theorem feedCommands_pointer (t : ConnectionPtr) (clientTime : UInt16)
    {environment : Environment S} {q : PartyPtr S}
    (h : ∀ round, (environment.uninitialized round).party = some q) (fuel round : Nat)
    (inStream : InStream) (sent : List (List UInt8)) (s : Server E S) :
    Ensures (feedCommands t clientTime environment fuel round inStream sent s)
      (fun _ => True) (fun fault => fault ≠ .uninitializedPointer) := by
  refine feedCommands_ensures (fun _ _ => True) (by decide) (fun _ _ _ _ _ => trivial) ?_ fuel
    round inStream sent s trivial
  intro round cmd inStream sent s outStream _ _
  exact (handleCommand_pointer s t cmd inStream outStream clientTime (h round)).mono
    (fun r _ => replyKeeps_true t sent r) fun _ h => h

/-! ### Commands that read what was not assigned -/

/-- All variables hold zero, in every round. -/
def Environment.zeroed (environment : Environment S) : Environment S :=
  environment.withLocals fun _ => zeroLocals S

/-- All variables hold something else. -/
def Environment.other (environment : Environment S) (party : Option (PartyPtr S)) :
    Environment S :=
  environment.withLocals fun _ => otherLocals party

section Undefined

variable [LawfulInStreams E] {s : Server E S} {t : ConnectionPtr} {inStream : InStream}
  {cmd : UInt8}

/-- A GameStep request that is not complete returns -4 with one content of the variables, and
something else with the other. -/
theorem gameStep_of_undefined [LawfulReaders E] (hbounded : ReferencesBounded s)
    (h : gameStepComplete s t inStream = false)
    (hconnect : cmd ≠ E.NimbleSerializeCmdConnectRequest)
    (hcmd : cmd = E.NimbleSerializeCmdGameStep) (environment : Environment S)
    (party : Option (PartyPtr S)) (outStream outStream' : OutStream)
    (clientTime clientTime' : UInt16) (fuel round : Nat) (sent : List (List UInt8)) :
    handleCommand s t cmd inStream outStream clientTime environment.zeroed round
        >>= afterCommand t clientTime environment.zeroed fuel round sent
      ≠ handleCommand s t cmd inStream outStream' clientTime' (environment.other party) round
        >>= afterCommand t clientTime' (environment.other party) fuel round sent := by
  -- One run returns -4 at once. The other can go on, but not to another command.
  obtain ⟨⟨rest, s', hother⟩, hzero⟩ :=
    reqGameStep_of_incomplete hbounded h outStream outStream' party
  have hright : handleCommand s t cmd inStream outStream' clientTime'
      (environment.other party) round >>= afterCommand t clientTime' (environment.other party)
        fuel round sent = .ok (-4, sent ++ [], s') := by
    unfold handleCommand
    rw [if_neg hconnect, if_pos hcmd]
    show (nimbleServerReqGameStep s t inStream outStream' (otherLocals party) >>= _) >>= _ = _
    rw [hother]
    rfl
  have hleft : Ensures (handleCommand s t cmd inStream outStream clientTime environment.zeroed
      round >>= afterCommand t clientTime environment.zeroed fuel round sent)
      (fun r => r.1 ≠ -4) (fun _ => True) := by
    unfold handleCommand
    rw [if_neg hconnect, if_pos hcmd]
    refine Ensures.bind_of (fun r => ∃ code rest reply s1, r = (some (code, rest, reply, []), s1)
      ∧ code ≠ -4 ∧ (0 ≤ code → rest = [])) (hzero.bind ?_) ?_
    · rintro ⟨code, rest, reply, s1⟩ ⟨hcode, hrest⟩
      exact ⟨code, rest, reply, s1, rfl, hcode, hrest⟩
    · rintro _ ⟨code, rest, reply, s1, rfl, hcode, hrest⟩
      by_cases hneg : code < 0
      · simp only [afterCommand, if_pos hneg]
        exact hcode
      · -- Nothing is left of the datagram, so it ends after this reply.
        obtain rfl := hrest (by omega)
        refine (afterCommand_last t clientTime environment.zeroed fuel round sent code reply []
          s1).mono ?_ fun _ h => h.elim
        rintro r (h | h | h)
        · rw [h]
          exact hcode
        · rw [h]
          decide
        · rw [h]
          decide
  intro heq
  exact hleft.of_ok (heq.trans hright) rfl

omit [LawfulInStreams E] in
/-- A join request that is answered without a party stops the run where the pointer points at
nothing, and not where it points at a party. -/
theorem join_of_undefined (h : joinAssigned s t inStream = false)
    (hconnect : cmd ≠ E.NimbleSerializeCmdConnectRequest)
    (hstep : cmd ≠ E.NimbleSerializeCmdGameStep)
    (hcmd : cmd = E.NimbleSerializeCmdJoinGameRequest) (environment : Environment S) :
    ∃ party, ∀ (outStream outStream' : OutStream) (clientTime clientTime' : UInt16)
      (fuel round : Nat) (sent : List (List UInt8)),
      handleCommand s t cmd inStream outStream clientTime environment.zeroed round
          >>= afterCommand t clientTime environment.zeroed fuel round sent
        ≠ handleCommand s t cmd inStream outStream' clientTime' (environment.other party) round
          >>= afterCommand t clientTime' (environment.other party) fuel round sent := by
  obtain ⟨request, consumed, p, hrequest, -, hjoin⟩ := joinLocalParty_of_unassigned h
  refine ⟨some p, ?_⟩
  intro outStream outStream' clientTime clientTime' fuel round sent heq
  -- In `zeroLocals` the pointer points at nothing.
  have hleft : handleCommand s t cmd inStream outStream clientTime environment.zeroed round
      >>= afterCommand t clientTime environment.zeroed fuel round sent
      = .error .uninitializedPointer := by
    unfold handleCommand nimbleServerReqGameJoin joinGame nimbleServerReadAndJoinParticipants
    rw [if_neg hconnect, if_neg hstep, if_pos hcmd, hrequest]
    dsimp only
    rw [hjoin]
    rfl
  have hright : Ensures (handleCommand s t cmd inStream outStream' clientTime'
      (environment.other (some p)) round >>= afterCommand t clientTime'
        (environment.other (some p)) fuel round sent)
      (fun _ => True) (fun fault => fault ≠ .uninitializedPointer) := by
    refine (handleCommand_pointer s t cmd inStream outStream' clientTime'
      (show ((environment.other (some p)).uninitialized round).party = some p from rfl)).bind ?_
    intro r _
    exact afterCommand_ensures (fun _ _ => True)
      (fun inStream sent s _ => feedCommands_pointer t clientTime' (fun _ => rfl) fuel _ inStream
        sent s) (replyKeeps_true t sent r)
  exact hright.of_error (heq.symm.trans hleft) rfl

/-- A download request without its id stops the run where the variable holds 0, and not where
it holds 1. -/
theorem download_of_undefined (h : (E.fldInStreamReadUInt8 inStream).1 = none)
    (hconnect : cmd ≠ E.NimbleSerializeCmdConnectRequest)
    (hstep : cmd ≠ E.NimbleSerializeCmdGameStep)
    (hjoin : cmd ≠ E.NimbleSerializeCmdJoinGameRequest)
    (hcmd : cmd = E.NimbleSerializeCmdDownloadGameStateRequest) (environment : Environment S)
    (party : Option (PartyPtr S)) (outStream outStream' : OutStream)
    (clientTime clientTime' : UInt16) (fuel round : Nat) (sent : List (List UInt8)) :
    handleCommand s t cmd inStream outStream clientTime environment.zeroed round
        >>= afterCommand t clientTime environment.zeroed fuel round sent
      ≠ handleCommand s t cmd inStream outStream' clientTime' (environment.other party) round
        >>= afterCommand t clientTime' (environment.other party) fuel round sent := by
  have hread : ∀ old, readInto E.fldInStreamReadUInt8 inStream old = (old, []) :=
    fun old => (readInto_of_none h old).2
  have hzero : nimbleServerReqDownloadGameState s t inStream clientTime (zeroLocals S)
      (environment.serializedGameState round) (environment.now round)
      = .error .downloadRequestId := by
    unfold nimbleServerReqDownloadGameState
    rw [hread]
    rfl
  have hleft : handleCommand s t cmd inStream outStream clientTime environment.zeroed round
      >>= afterCommand t clientTime environment.zeroed fuel round sent
      = .error .downloadRequestId := by
    unfold handleCommand
    rw [if_neg hconnect, if_neg hstep, if_neg hjoin, if_pos hcmd]
    show (nimbleServerReqDownloadGameState s t inStream clientTime (zeroLocals S)
      (environment.serializedGameState round) (environment.now round) >>= _) >>= _ = _
    rw [hzero]
    rfl
  have hended : Ensures (nimbleServerReqDownloadGameState s t inStream clientTime'
      (otherLocals party) (environment.serializedGameState round) (environment.now round))
      (fun r => r.2.1 = []) (fun _ => False) := by
    simp only [nimbleServerReqDownloadGameState, hread]
    -- The request id is 1 here, which the source's assertion accepts.
    split
    · rename_i hid
      exact absurd hid (show ¬(1 : UInt8) = 0 by decide)
    split
    · rfl
    split
    · rfl
    · rfl
  obtain ⟨⟨code, rest, handlerSent, s1⟩, hdownload, rfl⟩ := hended.exists_ok
  have hright : handleCommand s t cmd inStream outStream' clientTime' (environment.other party)
      round = .ok (some (code, [], outStream', handlerSent), s1) := by
    unfold handleCommand
    rw [if_neg hconnect, if_neg hstep, if_neg hjoin, if_pos hcmd]
    show (nimbleServerReqDownloadGameState s t inStream clientTime' (otherLocals party)
      (environment.serializedGameState round) (environment.now round) >>= _) = _
    rw [hdownload]
    rfl
  intro heq
  rw [hright] at heq
  exact (afterCommand_last t clientTime' (environment.other party) fuel round sent code outStream'
    handlerSent s1).of_error (heq.symm.trans hleft)

/-- Where a command reads what was not assigned, the two contents of the variables lead to
different results of the datagram. -/
theorem feedCommands_of_undefined [LawfulReaders E] [LawfulOutStreams E]
    (hbounded : ReferencesBounded s) {octets : InStream}
    (hnext : NextCommand E octets cmd inStream)
    (hblob : cmd ≠ E.NimbleSerializeCmdClientOutBlobStream) (hwritten : headerWritten s t = true)
    (h : commandDefined s t cmd inStream = false) (environment : Environment S) :
    ∃ party, ∀ (clientTime clientTime' : UInt16) (fuel round : Nat) (sent : List (List UInt8)),
      feedCommands t clientTime environment.zeroed (fuel + 1) round octets sent s
        ≠ feedCommands t clientTime' (environment.other party) (fuel + 1) round octets sent
          s := by
  -- Both runs come to the handler of the command, each with a header of its own.
  suffices hhandled : ∃ party, ∀ (outStream outStream' : OutStream)
      (clientTime clientTime' : UInt16) (fuel round : Nat) (sent : List (List UInt8)),
      handleCommand s t cmd inStream outStream clientTime environment.zeroed round
          >>= afterCommand t clientTime environment.zeroed fuel round sent
        ≠ handleCommand s t cmd inStream outStream' clientTime' (environment.other party) round
          >>= afterCommand t clientTime' (environment.other party) fuel round sent by
    obtain ⟨party, hparty⟩ := hhandled
    refine ⟨party, ?_⟩
    intro clientTime clientTime' fuel round sent
    obtain ⟨outStream, hheader⟩ := exists_header hwritten clientTime
    obtain ⟨outStream', hheader'⟩ := exists_header hwritten clientTime'
    rw [feedCommands_command (hnext.reads _ round) hblob hheader,
      feedCommands_command (hnext.reads _ round) hblob hheader']
    exact hparty outStream outStream' clientTime clientTime' fuel round sent
  unfold commandDefined at h
  by_cases hconnect : cmd = E.NimbleSerializeCmdConnectRequest
  · rw [if_pos hconnect] at h
    cases h
  rw [if_neg hconnect] at h
  by_cases hstep : cmd = E.NimbleSerializeCmdGameStep
  · rw [if_pos hstep] at h
    exact ⟨none, fun _ _ _ _ _ _ _ =>
      gameStep_of_undefined hbounded h hconnect hstep environment none _ _ _ _ _ _ _⟩
  rw [if_neg hstep] at h
  -- Only for a join the second content depends on the server: it is the party that was named.
  by_cases hjoin : cmd = E.NimbleSerializeCmdJoinGameRequest
  · rw [if_pos hjoin] at h
    exact join_of_undefined h hconnect hstep hjoin environment
  rw [if_neg hjoin] at h
  by_cases hdownload : cmd = E.NimbleSerializeCmdDownloadGameStateRequest
  · rw [if_pos hdownload] at h
    have hmissing : (E.fldInStreamReadUInt8 inStream).1 = none := by simpa using h
    exact ⟨none, fun _ _ _ _ _ _ _ => download_of_undefined hmissing hconnect hstep hjoin
      hdownload environment none _ _ _ _ _ _ _⟩
  · rw [if_neg hdownload] at h
    cases h

end Undefined

/-! ### The walk over the commands -/

/-- Every command that is reached reads only what is there. -/
def commandsDefined (t : ConnectionPtr) (clientTime : UInt16) (environment : Environment S) :
    (fuel round : Nat) → InStream → Server E S → Bool
  | 0, _, _, _ => true
  | fuel + 1, round, octets, s =>
    match E.fldInStreamReadUInt8 octets with
    -- Nothing is left of the datagram.
    | (none, _) => true
    | (some cmd, consumed) =>
      if cmd = E.NimbleSerializeCmdClientOutBlobStream then
        match nimbleServerReqBlobStream s t (octets.drop consumed) clientTime
            (environment.now round) with
        | (err, inStream, _, s) =>
          if err < 0 then true
          else commandsDefined t clientTime environment fuel (round + 1) inStream s
      else
        match transportConnectionWriteHeader (s.connection t) (replyOutStream E) clientTime with
        | (err, outStream) =>
          if err < 0 then true
          else
            commandDefined s t cmd (octets.drop consumed) &&
              -- The next command is reached when the reply to this one is sent.
              match handleCommand s t cmd (octets.drop consumed) outStream clientTime
                  environment.zeroed round with
              | .ok (some (result, inStream, outStream, _), s) =>
                if result < 0 ∨ outStream.octets.length ≤ 4 ∨
                    outStream.octets.length > E.datagramTransportMaxSize then true
                else commandsDefined t clientTime environment fuel (round + 1) inStream
                  (s.setConnection t (transportConnectionCommitHeader (s.connection t)))
              | _ => true

/-- The walk after a command. -/
def nextDefined (t : ConnectionPtr) (clientTime : UInt16) (environment : Environment S)
    (fuel round : Nat) :
    Result (Option (Int × InStream × OutStream × List (List UInt8)) × Server E S) → Bool
  | .ok (some (result, inStream, outStream, _), s) =>
    if result < 0 ∨ outStream.octets.length ≤ 4 ∨
        outStream.octets.length > E.datagramTransportMaxSize then true
    else commandsDefined t clientTime environment fuel (round + 1) inStream
      (s.setConnection t (transportConnectionCommitHeader (s.connection t)))
  | _ => true

section Walk

variable {t : ConnectionPtr} {clientTime : UInt16} {environment : Environment S}

/-- The walk at a blob stream command, -/
theorem commandsDefined_blobStream {fuel round : Nat} {cmd : UInt8}
    {octets inStream : InStream} {s : Server E S} (hnext : NextCommand E octets cmd inStream)
    (hcmd : cmd = E.NimbleSerializeCmdClientOutBlobStream) {err : Int} {rest : InStream}
    {blobsSent : List (List UInt8)} {s1 : Server E S}
    (hhandler : nimbleServerReqBlobStream s t inStream clientTime (environment.now round)
      = (err, rest, blobsSent, s1)) :
    commandsDefined t clientTime environment (fuel + 1) round octets s
      = if err < 0 then true
        else commandsDefined t clientTime environment fuel (round + 1) rest s1 := by
  obtain ⟨consumed, hread, rfl⟩ := hnext
  rw [commandsDefined, hread]
  dsimp only
  rw [if_pos hcmd, hhandler]

/-- at a command whose reply gets no header, -/
theorem commandsDefined_noHeader {fuel round : Nat} {cmd : UInt8} {octets inStream : InStream}
    {s : Server E S} (hnext : NextCommand E octets cmd inStream)
    (hblob : cmd ≠ E.NimbleSerializeCmdClientOutBlobStream)
    (hheader : (transportConnectionWriteHeader (s.connection t) (replyOutStream E)
      clientTime).1 < 0) :
    commandsDefined t clientTime environment (fuel + 1) round octets s = true := by
  obtain ⟨consumed, hread, rfl⟩ := hnext
  rw [commandsDefined, hread]
  dsimp only
  rw [if_neg hblob, if_pos hheader]

/-- at any other command -/
theorem commandsDefined_command {fuel round : Nat} {cmd : UInt8} {octets inStream : InStream}
    {s : Server E S} {outStream : OutStream} (hnext : NextCommand E octets cmd inStream)
    (hblob : cmd ≠ E.NimbleSerializeCmdClientOutBlobStream)
    (hheader : WritesHeader s t clientTime outStream) :
    commandsDefined t clientTime environment (fuel + 1) round octets s
      = (commandDefined s t cmd inStream && nextDefined t clientTime environment fuel round
        (handleCommand s t cmd inStream outStream clientTime environment.zeroed round)) := by
  obtain ⟨consumed, hread, rfl⟩ := hnext
  obtain ⟨hok, rfl⟩ := hheader
  rw [commandsDefined, hread]
  dsimp only
  rw [if_neg hblob, if_neg (Int.not_lt.mpr hok)]
  rfl

/-- and at the end of the datagram. -/
theorem commandsDefined_nil [hreads : LawfulInStreams E] (fuel round : Nat) (s : Server E S) :
    commandsDefined t clientTime environment fuel round [] s = true := by
  cases fuel with
  | zero => rfl
  | succ fuel =>
    rcases hread : E.fldInStreamReadUInt8 [] with ⟨value, consumed⟩
    have hnil := hreads.readUInt8_nil
    rw [hread] at hnil
    obtain rfl : value = none := hnil
    rw [commandsDefined, hread]

variable [LawfulInStreams E] [LawfulOutStreams E]

/-- Two runs over such commands do the same. Induction on the bound of the loop. -/
theorem feedCommands_of_defined (locals locals' : Nat → Uninitialized S) (fuel : Nat) :
    ∀ (round : Nat) (octets : InStream) (sent : List (List UInt8)) (s : Server E S),
      commandsDefined t clientTime environment fuel round octets s = true →
      feedCommands t clientTime (environment.withLocals locals) fuel round octets sent s
        = feedCommands t clientTime (environment.withLocals locals') fuel round octets sent
          s := by
  induction fuel with
  | zero =>
    intro round octets sent s _
    cases octets with
    | nil => rfl
    | cons octet octets => rfl
  | succ fuel ih =>
    intro round octets sent s h
    by_cases hoctets : octets = []
    · rw [hoctets, feedCommands_nil, feedCommands_nil]
    obtain ⟨cmd, inStream, hnext, -⟩ := exists_nextCommand (E := E) hoctets
    have hread := fun locals => hnext.reads (environment.withLocals locals) round
    by_cases hblob : cmd = E.NimbleSerializeCmdClientOutBlobStream
    · rcases hresult : nimbleServerReqBlobStream s t inStream clientTime
        (environment.now round) with ⟨err, rest, blobsSent, s1⟩
      rw [commandsDefined_blobStream hnext hblob hresult] at h
      rw [feedCommands_blobStream (hread locals) hblob hresult,
        feedCommands_blobStream (hread locals') hblob hresult]
      by_cases herr : err < 0
      · rw [if_pos herr, if_pos herr]
      · rw [if_neg herr] at h
        rw [if_neg herr, if_neg herr]
        exact ih _ _ _ _ h
    cases hwritten : headerWritten s t with
    | false => exact feedCommands_of_headerWritten_false hwritten hnext hblob _ _ _ _ _ _ _
    | true =>
      -- Both runs are compared with the one in which all variables are zero.
      obtain ⟨outStream, hheader⟩ := exists_header hwritten clientTime
      rw [commandsDefined_command hnext hblob hheader, Bool.and_eq_true] at h
      rw [feedCommands_command (hread locals) hblob hheader,
        feedCommands_command (hread locals') hblob hheader,
        handleCommand_of_defined h.1 outStream clientTime environment round locals
          fun _ => zeroLocals S,
        handleCommand_of_defined h.1 outStream clientTime environment round locals'
          fun _ => zeroLocals S]
      have hafter := h.2
      cases hresult : handleCommand s t cmd inStream outStream clientTime
          (environment.withLocals fun _ => zeroLocals S) round with
      | error fault => rfl
      | ok r =>
        have hresult' : handleCommand s t cmd inStream outStream clientTime
            environment.zeroed round = .ok r := hresult
        rw [hresult'] at hafter
        obtain ⟨result, s1⟩ := r
        cases result with
        | none => rfl
        | some r =>
          obtain ⟨code, rest, reply, handlerSent⟩ := r
          refine afterCommand_congr fun hsent => ih _ _ _ _ ?_
          rw [nextDefined, if_neg hsent] at hafter
          exact hafter

/-- Where the two contents of the variables lead to the same result, every command that is
reached is defined. Induction on the bound of the loop; the commands before the one that is
looked at are defined, so both runs reach it in the same state. -/
theorem commandsDefined_of_eq [LawfulReaders E] {start : Server E S}
    (hstart : ReferencesBounded start) (fuel : Nat) :
    ∀ (round : Nat) (octets : InStream) (sent : List (List UInt8)) (s : Server E S),
      Handled start t s →
      (∀ party, feedCommands t clientTime environment.zeroed fuel round octets sent s
        = feedCommands t clientTime (environment.other party) fuel round octets sent s) →
      commandsDefined t clientTime environment fuel round octets s = true := by
  induction fuel with
  | zero =>
    intro round octets sent s _ _
    rfl
  | succ fuel ih =>
    intro round octets sent s hs heq
    by_cases hoctets : octets = []
    · rw [hoctets, commandsDefined_nil]
    obtain ⟨cmd, inStream, hnext, -⟩ := exists_nextCommand (E := E) hoctets
    have hread := fun environment : Environment S => hnext.reads environment round
    by_cases hblob : cmd = E.NimbleSerializeCmdClientOutBlobStream
    · have hs1 := hs.reqBlobStream inStream clientTime (environment.now round)
      rcases hresult : nimbleServerReqBlobStream s t inStream clientTime
        (environment.now round) with ⟨err, rest, blobsSent, s1⟩
      rw [hresult] at hs1
      rw [commandsDefined_blobStream hnext hblob hresult]
      by_cases herr : err < 0
      · rw [if_pos herr]
      · rw [if_neg herr]
        refine ih _ _ (sent ++ blobsSent) _ hs1 fun party => ?_
        have hparty := heq party
        rw [feedCommands_blobStream (hread environment.zeroed) hblob hresult,
          feedCommands_blobStream (hread (environment.other party)) hblob hresult, if_neg herr,
          if_neg herr] at hparty
        exact hparty
    cases hwritten : headerWritten s t with
    | false =>
      exact commandsDefined_noHeader hnext hblob
        (writeHeader_of_headerWritten_false hwritten clientTime)
    | true =>
      obtain ⟨outStream, hheader⟩ := exists_header hwritten clientTime
      -- If it were not, the two runs would already differ here.
      have hdefined : commandDefined s t cmd inStream = true := by
        by_contra hundefined
        obtain ⟨party, hparty⟩ := feedCommands_of_undefined (hs.referencesBounded hstart)
          hnext hblob hwritten (Bool.eq_false_iff.mpr hundefined) environment
        exact hparty clientTime clientTime fuel round sent (heq party)
      rw [commandsDefined_command hnext hblob hheader, hdefined, Bool.true_and]
      have hhandled := hs.handleCommand cmd inStream outStream clientTime environment.zeroed
        round
      cases hresult : handleCommand s t cmd inStream outStream clientTime
          environment.zeroed round with
      | error fault => rfl
      | ok r =>
        rw [hresult] at hhandled
        obtain ⟨result, s1⟩ := r
        cases result with
        | none => rfl
        | some r =>
          obtain ⟨code, rest, reply, handlerSent⟩ := r
          simp only [nextDefined]
          split
          · rfl
          · rename_i hsent
            refine ih _ _ (sent ++ handlerSent ++ [reply.octets]) _
              (Handled.commitHeader hhandled) fun party => ?_
            have hparty := heq party
            -- The command is defined, so both runs handle it in the same way and the rest differs
            -- if anything does.
            have hother : handleCommand s t cmd inStream outStream clientTime
                (environment.other party) round
                = .ok (some (code, rest, reply, handlerSent), s1) :=
              (handleCommand_of_defined hdefined outStream clientTime environment round _
                _).trans hresult
            rw [feedCommands_command (hread environment.zeroed) hblob hheader,
              feedCommands_command (hread (environment.other party)) hblob hheader, hresult,
              hother] at hparty
            exact (afterCommand_sent hsent).symm.trans
              (hparty.trans (afterCommand_sent hsent))

end Walk

/-! ### A datagram without its client time -/

/-- An empty blob stream command sends nothing: it fails, or no part is due. -/
def blobStreamSilent (s : Server E S) (t : ConnectionPtr) (now : Nat) : Bool :=
  decide ((E.blobStreamLogicOutReceive (s.connection t).blobStreamLogicOut []).1 < 0) ||
    (E.blobStreamLogicOutPrepareSend
      (E.blobStreamLogicOutReceive (s.connection t).blobStreamLogicOut []).2.2 now).1.isEmpty

/-- The only command of a datagram that ends before its client time. -/
def oneOctetDefined (s : Server E S) (t : ConnectionPtr) (cmd : UInt8) (now : Nat) : Bool :=
  if cmd = E.NimbleSerializeCmdClientOutBlobStream then blobStreamSilent s t now
  else !headerWritten s t || commandDefined s t cmd []

section OneOctet

variable {s : Server E S} {t : ConnectionPtr} {cmd : UInt8}

/-- An empty blob stream command that is received sends the parts that are due. -/
theorem reqBlobStream_nil
    (h : ¬(E.blobStreamLogicOutReceive (s.connection t).blobStreamLogicOut []).1 < 0)
    (now : Nat) :
    ∃ s1 : Server E S, SameSlots s s1 ∧ ∀ clientTime,
      nimbleServerReqBlobStream s t [] clientTime now
        = ((sendBlobStreamEntries t clientTime (E.blobStreamLogicOutPrepareSend
              (E.blobStreamLogicOutReceive (s.connection t).blobStreamLogicOut []).2.2 now).1 []
            s1).1, [],
          (sendBlobStreamEntries t clientTime (E.blobStreamLogicOutPrepareSend
              (E.blobStreamLogicOutReceive (s.connection t).blobStreamLogicOut []).2.2 now).1 []
            s1).2) := by
  rcases hreceive : E.blobStreamLogicOutReceive (s.connection t).blobStreamLogicOut [] with
    ⟨receiveResult, consumed, logic⟩
  rw [hreceive] at h
  have hset : SameSlots s
      (s.setConnection t { s.connection t with blobStreamLogicOut := logic }) :=
    .setConnection s t ⟨rfl, rfl, rfl, rfl, rfl, rfl⟩
  refine ⟨_, hset.trans (.setConnection _ t
    (x := { Server.connection _ t with
      blobStreamLogicOut := (E.blobStreamLogicOutPrepareSend logic now).2 })
    ⟨rfl, rfl, rfl, rfl, rfl, rfl⟩), ?_⟩
  intro clientTime
  simp only [nimbleServerReqBlobStream, hreceive, if_neg h, nimbleServerSendBlobStream,
    Server.connection_setConnection, if_pos, List.drop_nil]

/-- An empty blob stream command leaves nothing of the datagram. -/
theorem reqBlobStream_nil_rest (s : Server E S) (t : ConnectionPtr) (clientTime : UInt16)
    (now : Nat) : (nimbleServerReqBlobStream s t [] clientTime now).2.1 = [] := by
  simp only [nimbleServerReqBlobStream, List.drop_nil]
  split
  · rfl
  · rfl

/-- Without a part, the client time is not used. -/
theorem reqBlobStream_of_silent {now : Nat} (h : blobStreamSilent s t now = true)
    (clientTime clientTime' : UInt16) :
    nimbleServerReqBlobStream s t [] clientTime now
      = nimbleServerReqBlobStream s t [] clientTime' now := by
  by_cases hreceive : (E.blobStreamLogicOutReceive (s.connection t).blobStreamLogicOut []).1 < 0
  · simp only [nimbleServerReqBlobStream, if_pos hreceive]
  · obtain ⟨s1, -, hsend⟩ := reqBlobStream_nil hreceive now
    simp only [blobStreamSilent, Bool.or_eq_true, decide_eq_true_eq, hreceive, false_or,
      List.isEmpty_iff] at h
    rw [hsend clientTime, hsend clientTime', h]
    rfl

/-- The header of a blob stream part fits, so two client times make headers of one length
that differ. -/
theorem writeHeader_ne [hwriters : LawfulWriters E] [hstreams : LawfulOutStreams E]
    (c : TransportConnection E S) {clientTime clientTime' : UInt16} (h : clientTime ≠ clientTime') :
    (transportConnectionWriteHeader c (blobStreamOutStream E) clientTime).2.octets.length
        = (transportConnectionWriteHeader c (blobStreamOutStream E) clientTime').2.octets.length ∧
      (transportConnectionWriteHeader c (blobStreamOutStream E) clientTime).2.octets
        ≠ (transportConnectionWriteHeader c (blobStreamOutStream E) clientTime').2.octets :=
  hstreams.writeUInt16_value _ _ _ (hwriters.debugHeader_fits _ _) h

/-- A part carries the client time, so two client times make two datagrams. -/
theorem reqBlobStream_of_not_silent (Q : SequenceNumbers E) [LawfulWriters E]
    [LawfulOutStreams E] (hused : (s.connection t).isUsed = true) {now : Nat}
    (h : blobStreamSilent s t now = false) :
    (nimbleServerReqBlobStream s t [] 0 now).2.2.1
      ≠ (nimbleServerReqBlobStream s t [] 1 now).2.2.1 := by
  simp only [blobStreamSilent, Bool.or_eq_false_iff, decide_eq_false_iff_not] at h
  obtain ⟨s1, hslots, hsend⟩ := reqBlobStream_nil h.1 now
  have hused1 : (s1.connection t).isUsed = true := (hslots.connection t).isUsed.trans hused
  cases hentries : (E.blobStreamLogicOutPrepareSend (E.blobStreamLogicOutReceive
      (s.connection t).blobStreamLogicOut []).2.2 now).1 with
  | nil =>
    rw [hentries] at h
    cases h.2
  -- The first part that is sent is enough to see the difference.
  | cons entry entries =>
    have hsent : ∀ clientTime, ∃ more,
        (nimbleServerReqBlobStream s t [] clientTime now).2.2.1
          = (blobStreamPart s1 t clientTime entry).octets :: more := by
      intro clientTime
      rw [hsend clientTime, hentries, sendBlobStreamEntries_cons Q]
      obtain ⟨more, hmore, -⟩ := sendBlobStreamEntries_sends Q t clientTime entries
        ([] ++ [(blobStreamPart s1 t clientTime entry).octets]) _
        ((Sends.commitHeader (blobStreamPart_headed Q s1 t clientTime entry)).isUsed t hused1)
      exact ⟨more, hmore⟩
    obtain ⟨more, hzero⟩ := hsent 0
    obtain ⟨more', hone⟩ := hsent 1
    rw [hzero, hone]
    intro heq
    -- The two datagrams start with headers of one length that differ in the client time.
    have hfront := (blobStreamPart_grows s1 t 0 entry).octets
    have hfront' := (blobStreamPart_grows s1 t 1 entry).octets
    rw [(List.cons.inj heq).1] at hfront
    obtain ⟨hlength, hne⟩ := writeHeader_ne (s1.connection t) (show (0 : UInt16) ≠ 1 by decide)
    exact hne ((List.prefix_of_prefix_length_le hfront hfront' hlength.le).eq_of_length hlength)

variable [LawfulInStreams E] [LawfulOutStreams E] {octets : InStream}

/-- Two runs over a datagram of one command do the same, also with different client times. -/
theorem feedCommands_of_oneOctetDefined [LawfulReaders E] {environment : Environment S}
    (hnext : NextCommand E octets cmd [])
    (h : oneOctetDefined s t cmd (environment.now 0) = true) (clientTime clientTime' : UInt16)
    (locals locals' : Nat → Uninitialized S) (fuel : Nat) :
    feedCommands t clientTime (environment.withLocals locals) (fuel + 1) 0 octets [] s
      = feedCommands t clientTime' (environment.withLocals locals') (fuel + 1) 0 octets []
        s := by
  have hread := fun locals => hnext.reads (environment.withLocals locals) 0
  unfold oneOctetDefined at h
  by_cases hblob : cmd = E.NimbleSerializeCmdClientOutBlobStream
  · rw [if_pos hblob] at h
    have hsame := reqBlobStream_of_silent h clientTime clientTime'
    have hrest := reqBlobStream_nil_rest s t clientTime' (environment.now 0)
    rcases hresult : nimbleServerReqBlobStream s t [] clientTime' (environment.now 0) with
      ⟨err, rest, blobsSent, s1⟩
    rw [hresult] at hsame hrest
    obtain rfl : rest = [] := hrest
    rw [feedCommands_blobStream (hread locals) hblob hsame,
      feedCommands_blobStream (hread locals') hblob hresult, feedCommands_nil, feedCommands_nil]
  · rw [if_neg hblob] at h
    cases hwritten : headerWritten s t with
    | false => exact feedCommands_of_headerWritten_false hwritten hnext hblob _ _ _ _ _ _ _
    | true =>
      simp only [hwritten, Bool.not_true, Bool.false_or] at h
      obtain ⟨outStream, hheader⟩ := exists_header hwritten clientTime
      obtain ⟨outStream', hheader'⟩ := exists_header hwritten clientTime'
      rw [feedCommands_command (hread locals) hblob hheader,
        feedCommands_command (hread locals') hblob hheader']
      -- A command without octets sends no reply, so the header, which has the client time, is not
      -- seen.
      rcases handleCommand_nil h with hunknown | ⟨code, s1, hneg, hfailed⟩
      · rw [hunknown, hunknown]
        rfl
      · rw [hfailed, hfailed]
        have hended : ∀ (clientTime : UInt16) (environment : Environment S)
            (outStream : OutStream), afterCommand t clientTime environment fuel 0 []
              (some (code, [], outStream, []), s1) = .ok (code, [] ++ [], s1) := by
          intro clientTime environment outStream
          exact if_pos hneg
        exact (hended _ _ _).trans (hended _ _ _).symm

/-- If two client times and two contents of the variables lead to the same result, the command is
defined. -/
theorem oneOctetDefined_of_eq (Q : SequenceNumbers E) [LawfulWriters E] [LawfulReaders E]
    (hbounded : ReferencesBounded s) (hused : (s.connection t).isUsed = true)
    {environment : Environment S} (hnext : NextCommand E octets cmd []) {fuel : Nat}
    (heq : ∀ party, feedCommands t 0 environment.zeroed (fuel + 1) 0 octets [] s
      = feedCommands t 1 (environment.other party) (fuel + 1) 0 octets [] s) :
    oneOctetDefined s t cmd (environment.now 0) = true := by
  unfold oneOctetDefined
  by_cases hblob : cmd = E.NimbleSerializeCmdClientOutBlobStream
  · rw [if_pos hblob]
    by_contra hloud
    -- The datagrams that are sent do not depend on the other variables.
    have hsent : ∀ (clientTime : UInt16) (environment' : Environment S),
        environment'.now 0 = environment.now 0 →
        (feedCommands t clientTime environment' (fuel + 1) 0 octets [] s).map (fun r => r.2.1)
          = .ok (nimbleServerReqBlobStream s t [] clientTime (environment.now 0)).2.2.1 := by
      intro clientTime environment' hnow
      have hrest := reqBlobStream_nil_rest s t clientTime (environment.now 0)
      rcases hresult : nimbleServerReqBlobStream s t [] clientTime (environment.now 0) with
        ⟨err, rest, blobsSent, s1⟩
      rw [hresult] at hrest
      obtain rfl : rest = [] := hrest
      rw [← hnow] at hresult
      rw [feedCommands_blobStream (hnext.reads environment' 0) hblob hresult, feedCommands_nil]
      split
      · rfl
      · rfl
    have hzero := hsent 0 environment.zeroed rfl
    rw [heq none, hsent 1 (environment.other none) rfl] at hzero
    exact reqBlobStream_of_not_silent Q hused (Bool.eq_false_iff.mpr hloud)
      (Except.ok.inj hzero).symm
  · rw [if_neg hblob]
    cases hwritten : headerWritten s t with
    | false => rfl
    | true =>
      by_contra hundefined
      obtain ⟨party, hparty⟩ := feedCommands_of_undefined hbounded hnext hblob hwritten
        (show commandDefined s t cmd [] = false by simpa using hundefined) environment
      exact hparty 0 1 fuel 0 [] (heq party)

end OneOctet

/-! ### Datagrams -/

/-- The octets of a datagram after those of the ordering logic: the client time and the
commands. A client time that cannot be read leaves one octet at most. -/
def octetsDefined (t : ConnectionPtr) (environment : Environment S) (octets : InStream)
    (s : Server E S) : Bool :=
  match E.fldInStreamReadUInt16 octets with
  | (some clientTime, consumed) =>
    commandsDefined t clientTime environment (octets.drop consumed).length 0
      (octets.drop consumed) s
  | (none, consumed) =>
    match (E.fldInStreamReadUInt8 (octets.drop consumed)).1 with
    | none => true
    | some cmd => oneOctetDefined s t cmd (environment.now 0)

/-- The datagram reads no variable that was not assigned. -/
def datagramDefined (s : Server E S) (transportIndex : UInt8) (data : List UInt8)
    (environment : Environment S) : Bool :=
  if h : transportIndex.toNat < NIMBLE_NIMBLE_SERVER_MAX_TRANSPORT_CONNECTIONS then
    let t : ConnectionPtr := ⟨transportIndex.toNat, h⟩
    let s := receiveOnConnection s t
    if (s.connection t).transportIndex ≠ transportIndex then true
    else
      match (E.orderedDatagramInLogicReceive (s.connection t).orderedDatagramInLogic data).1 with
      | .error _ => true
      | .ok consumed =>
        octetsDefined t environment (data.drop consumed) (receiveOrdered s t data)
  else true

/-- What `nimbleServerFeed` does after the ordering logic. -/
def feedOctets (t : ConnectionPtr) (environment : Environment S) (octets : InStream)
    (s : Server E S) : Result (Int × List (List UInt8) × Server E S) :=
  let (clientTime, inStream) :=
    readInto E.fldInStreamReadUInt16 octets (environment.uninitialized 0).clientTime
  feedCommands t clientTime environment inStream.length 0 inStream [] s

/-- A datagram ends before its client time is looked at, or its octets are fed to the
connection it came on. -/
theorem nimbleServerFeed_cases (s : Server E S) (transportIndex : UInt8) (data : List UInt8) :
    (∀ environment environment',
        nimbleServerFeed s transportIndex data environment
          = nimbleServerFeed s transportIndex data environment' ∧
        datagramDefined s transportIndex data environment = true) ∨
      ∃ t s1 consumed, Handled s t s1 ∧ ∀ environment,
        nimbleServerFeed s transportIndex data environment
          = feedOctets t environment (data.drop consumed) s1 ∧
        datagramDefined s transportIndex data environment
          = octetsDefined t environment (data.drop consumed) s1 := by
  by_cases hlt : transportIndex.toNat < NIMBLE_NIMBLE_SERVER_MAX_TRANSPORT_CONNECTIONS
  · by_cases hindex : ((receiveOnConnection s ⟨transportIndex.toNat, hlt⟩).connection
        ⟨transportIndex.toNat, hlt⟩).transportIndex = transportIndex
    · have hs := Handled.received s hlt hindex data
      rcases hreceive : E.orderedDatagramInLogicReceive ((receiveOnConnection s
        ⟨transportIndex.toNat, hlt⟩).connection
          ⟨transportIndex.toNat, hlt⟩).orderedDatagramInLogic data with ⟨received, logic⟩
      unfold receiveOrdered at hs
      rw [hreceive] at hs
      cases received with
      -- A datagram that is out of order ends here.
      | error code =>
        refine .inl fun environment environment' => ?_
        simp only [nimbleServerFeed, datagramDefined, dif_pos hlt,
          if_neg (not_not.mpr hindex), hreceive, and_self]
      | ok consumed =>
        refine .inr ⟨_, _, consumed, hs, fun environment => ?_⟩
        simp only [nimbleServerFeed, datagramDefined, receiveOrdered, dif_pos hlt,
          if_neg (not_not.mpr hindex), hreceive, and_true]
        rfl
    · refine .inl fun environment environment' => ?_
      simp only [nimbleServerFeed, datagramDefined, dif_pos hlt, ne_eq, hindex,
        not_false_eq_true, if_true, and_self]
  · refine .inl fun environment environment' => ?_
    simp only [nimbleServerFeed, datagramDefined, dif_neg hlt, and_self]

/-- What comes after the ordering logic is the same for all contents of the variables exactly
when the walk over it succeeds. The two cases are whether the client time can be read. -/
theorem feedOctets_iff (Q : SequenceNumbers E) [LawfulWriters E] [LawfulReaders E]
    [hreads : LawfulInStreams E] [LawfulOutStreams E] {start s : Server E S} {t : ConnectionPtr}
    (hstart : ReferencesBounded start) (hs : Handled start t s) (octets : InStream)
    (environment : Environment S) :
    (∀ locals locals', feedOctets t (environment.withLocals locals) octets s
      = feedOctets t (environment.withLocals locals') octets s)
      ↔ octetsDefined t environment octets s = true := by
  rcases hread : E.fldInStreamReadUInt16 octets with ⟨clientTime | clientTime, consumed⟩
  · -- At most one octet is left, and a client time that was not assigned goes with it.
    have hfeed : ∀ locals, feedOctets t (environment.withLocals locals) octets s
        = feedCommands t (locals 0).clientTime (environment.withLocals locals)
          (octets.drop consumed).length 0 (octets.drop consumed) [] s := by
      intro locals
      unfold feedOctets readInto
      rw [hread]
      rfl
    -- Two octets would have been a client time.
    have hshort : (octets.drop consumed).length ≤ 1 := by
      rw [List.length_drop]
      exact (Nat.sub_le _ _).trans (hreads.readUInt16_none octets (congrArg Prod.fst hread))
    simp only [hfeed, octetsDefined, hread]
    by_cases hempty : octets.drop consumed = []
    · simp only [hempty, feedCommands_nil, hreads.readUInt8_nil, implies_true]
    · obtain ⟨cmd, inStream, hnext, hlt⟩ := exists_nextCommand (E := E) hempty
      obtain rfl : inStream = [] := List.eq_nil_of_length_eq_zero (by omega)
      obtain ⟨fuel, hfuel⟩ : ∃ fuel, (octets.drop consumed).length = fuel + 1 :=
        Nat.exists_eq_succ_of_ne_zero fun h => hempty (List.eq_nil_of_length_eq_zero h)
      have hcmd : (E.fldInStreamReadUInt8 (octets.drop consumed)).1 = some cmd := by
        obtain ⟨_, hfirst, -⟩ := hnext
        rw [hfirst]
      simp only [hcmd, hfuel]
      constructor
      · intro heq
        exact oneOctetDefined_of_eq Q (hs.referencesBounded hstart) hs.serving.1 hnext
          fun party => heq (fun _ => zeroLocals S) (fun _ => otherLocals party)
      · intro h locals locals'
        exact feedCommands_of_oneOctetDefined hnext h _ _ locals locals' fuel
  · have hfeed : ∀ locals, feedOctets t (environment.withLocals locals) octets s
        = feedCommands t clientTime (environment.withLocals locals)
          (octets.drop consumed).length 0 (octets.drop consumed) [] s := by
      intro locals
      unfold feedOctets
      rw [readInto_of_some hread]
    simp only [hfeed, octetsDefined, hread]
    constructor
    · intro heq
      exact commandsDefined_of_eq hstart _ 0 _ [] s hs
        fun party => heq (fun _ => zeroLocals S) (fun _ => otherLocals party)
    · intro h locals locals'
      exact feedCommands_of_defined locals locals' _ 0 _ [] s h

/-- On every reachable server, two runs over a datagram that differ only in what the local
variables held before give the same result exactly when the datagram reads none of them. -/
theorem datagram_determined_iff (Q : SequenceNumbers E) [LawfulWriters E] [LawfulReaders E]
    [LawfulInStreams E] [LawfulOutStreams E] {start s : Server E S} (hstart : Started start)
    (hrun : Reaches Server.step (fun _ _ => True) start s) (transportIndex : UInt8)
    (data : List UInt8) (environment : Environment S) :
    (∀ locals locals',
        nimbleServerFeed s transportIndex data (environment.withLocals locals)
          = nimbleServerFeed s transportIndex data (environment.withLocals locals'))
      ↔ datagramDefined s transportIndex data environment = true := by
  have hbounded := referencesBounded_keeps.reachable hstart.referencesBounded hrun
  rcases nimbleServerFeed_cases s transportIndex data with
    hended | ⟨t, s1, consumed, hs1, hfeed⟩
  · constructor
    · intro _
      exact (hended environment environment).2
    · intro _ locals locals'
      exact (hended _ _).1
  · simp only [(hfeed _).1, (hfeed _).2]
    exact feedOctets_iff Q hbounded hs1 (data.drop consumed) environment

/-- A client joins. A datagram with a complete GameStep request reads only what is there, and
one that ends before the participant count does not. -/
theorem datagram_determined_iff_gameStep :
    ∃ start s : Server plainExternal (plainSetup 1), Started start ∧
      Reaches Server.step (fun _ _ => True) start s ∧
      (∀ locals locals',
        nimbleServerFeed s 0 (datagram (2 :: gameStep 0 [[7]]))
            ((plainEnvironment (zeroLocals _)).withLocals locals)
          = nimbleServerFeed s 0 (datagram (2 :: gameStep 0 [[7]]))
            ((plainEnvironment (zeroLocals _)).withLocals locals')) ∧
      ¬∀ locals locals',
        nimbleServerFeed s 0 (datagram (2 :: natToOctets 12 0))
            ((plainEnvironment (zeroLocals _)).withLocals locals)
          = nimbleServerFeed s 0 (datagram (2 :: natToOctets 12 0))
            ((plainEnvironment (zeroLocals _)).withLocals locals') := by
  obtain ⟨start, s, hstart, hrun, hcomplete, htruncated⟩ :=
    exists_run Server.step (fun _ _ => True)
      (fun s : Server plainExternal (plainSetup 1) =>
        datagramDefined s 0 (datagram (2 :: gameStep 0 [[7]]))
          (plainEnvironment (zeroLocals _)) = true ∧
        datagramDefined s 0 (datagram (2 :: natToOctets 12 0))
          (plainEnvironment (zeroLocals _)) = false)
      (nimbleServerInit (zeroMemory (plainSetup 1)) : Result (Server plainExternal _))
      [.reInitWithGame 0, .receive 0, .join 0 onePlayer (zeroLocals _)]
      (by decide +kernel)
  refine ⟨start, s, ⟨_, hstart⟩, hrun, ?_, ?_⟩
  · exact (datagram_determined_iff plainSequenceNumbers ⟨_, hstart⟩ hrun 0 _ _).mpr hcomplete
  · rw [datagram_determined_iff plainSequenceNumbers ⟨_, hstart⟩ hrun 0]
    exact Bool.eq_false_iff.mp htruncated

/-- A client joins and sends a GameStep request that ends after its header. With a zero in
`participant_count` it is answered, and with a one it is refused. -/
theorem truncated_gameStep_undetermined :
    ∃ start s : Server plainExternal (plainSetup 1), Started start ∧
      Reaches Server.step (fun s op => s.Enabled op) start s ∧
      (nimbleServerFeed s 0 (datagram (2 :: natToOctets 12 0))
          (plainEnvironment (zeroLocals _))).map (fun r => (r.1, r.2.1.length)) = .ok (0, 1) ∧
      (nimbleServerFeed s 0 (datagram (2 :: natToOctets 12 0))
          (plainEnvironment (otherLocals none))).map (fun r => (r.1, r.2.1.length))
        = .ok (-4, 0) ∧
      nimbleServerFeed s 0 (datagram (2 :: natToOctets 12 0)) (plainEnvironment (zeroLocals _))
        ≠ nimbleServerFeed s 0 (datagram (2 :: natToOctets 12 0))
          (plainEnvironment (otherLocals none)) := by
  obtain ⟨start, s, hstart, hrun, hzero, hother⟩ :=
    exists_run Server.step (fun s op => s.Enabled op)
      (fun s : Server plainExternal (plainSetup 1) =>
        (nimbleServerFeed s 0 (datagram (2 :: natToOctets 12 0))
          (plainEnvironment (zeroLocals _))).map (fun r => (r.1, r.2.1.length)) = .ok (0, 1) ∧
        (nimbleServerFeed s 0 (datagram (2 :: natToOctets 12 0))
          (plainEnvironment (otherLocals none))).map (fun r => (r.1, r.2.1.length))
            = .ok (-4, 0))
      (nimbleServerInit (zeroMemory (plainSetup 1)) : Result (Server plainExternal _))
      [.reInitWithGame 0, .receive 0, .join 0 onePlayer (zeroLocals _)]
      (by decide +kernel)
  refine ⟨start, s, ⟨_, hstart⟩, hrun, hzero, hother, ?_⟩
  intro heq
  rw [heq, hother] at hzero
  exact absurd hzero (by decide)

end NimbleServer
