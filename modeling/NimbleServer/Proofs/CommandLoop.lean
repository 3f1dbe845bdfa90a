import NimbleServer.Proofs.SequenceNumbers

/-!
# `NimbleServer.Proofs.CommandLoop`: every command of a datagram is answered

A datagram is a sequence of commands. The handlers of connect, join and GameStep requests
write their reply to a stream that already has a header, and `nimbleServerFeed` sends it. The
handlers of downloads and blob streams send on their own. `Succeeds` runs the handlers one
after the other, each on the state that the previous ones left, and says that all of them
succeed; it knows nothing of the checks between them.

After a handler `nimbleServerFeed` looks at the length of the stream and gives up when there
are four octets or less, taking the header for an empty reply. A download leaves only the
header there. So it ends the datagram with an error although its handler succeeded, and the
commands after it are not run (`download_ends_datagram`). `feed_answers_all_iff` says that
this is the only way to lose a command, with replies that are too short to be seen.
-/

set_option autoImplicit false

namespace NimbleServer

open NimbleServer.Lib

variable {E : External} {S : Setup}

/-! ### A handler only shortens the datagram -/

/-- A read does not move the position back. -/
theorem length_readInto {α : Type} (read : InStream → Option α × Nat) (inStream : InStream)
    (old : α) : (readInto read inStream old).2.length ≤ inStream.length :=
  (List.drop_sublist _ inStream).length_le

/-- The steps of one participant. Induction on the steps that remain. -/
theorem length_deserializeStepsOfParticipant (i : ParticipantPtr S) (firstStepId : StepId) :
    ∀ (remaining index total : Nat) (inStream : InStream) (s : Server E S),
      (deserializeStepsOfParticipant i firstStepId remaining index total inStream s).2.1.length
        ≤ inStream.length := by
  intro remaining
  induction remaining with
  | zero => exact fun _ _ _ _ => Nat.le_refl _
  | succ remaining ih =>
    intro index total inStream s
    have hsingle : (nimbleServerParticipantDeserializeSingleStep s i
        (firstStepId + UInt32.ofNat index) inStream).2.1.length ≤ inStream.length :=
      (List.drop_sublist _ inStream).length_le
    simp only [deserializeStepsOfParticipant]
    split
    · -- An error leaves the stream where the single step left it.
      exact hsingle
    · exact (ih _ _ _ _).trans hsingle

/-- The participants of a request. Induction on the participants that remain. -/
theorem length_deserializePredictedStepsLoop (p : PartyPtr S)
    (uninitialized : Uninitialized S) :
    ∀ (remaining iterator : Nat) (inStream : InStream) (s : Server E S),
      (deserializePredictedStepsLoop p uninitialized remaining iterator inStream s).2.1.length
        ≤ inStream.length := by
  intro remaining
  induction remaining with
  | zero => exact fun _ _ _ => Nat.le_refl _
  | succ remaining ih =>
    intro iterator inStream s
    have hindex := length_readInto E.fldInStreamReadUInt8 inStream
      (uninitialized.participantIndex iterator)
    simp only [deserializePredictedStepsLoop]
    split
    · exact hindex
    · rename_i i _
      split
      · exact hindex
      · rename_i firstStepId stepsThatFollow consumed _
        have hsteps := length_deserializeStepsOfParticipant i firstStepId stepsThatFollow 0 0
          ((readInto E.fldInStreamReadUInt8 inStream
            (uninitialized.participantIndex iterator)).2.drop consumed) s
        have hdrop := (List.drop_sublist consumed _).length_le.trans hindex
        -- Only the length of the rest matters, not what was stored.
        generalize deserializeStepsOfParticipant i firstStepId stepsThatFollow 0 0 _ s = steps
          at hsteps ⊢
        obtain ⟨result, rest, s1⟩ := steps
        cases result with
        | error code => exact hsteps.trans hdrop
        | ok added => exact (ih _ _ _).trans (hsteps.trans hdrop)

/-- The first half of a GameStep request. -/
theorem length_readIncomingSteps (s : Server E S) (t : ConnectionPtr) (inStream : InStream)
    (uninitialized : Uninitialized S) :
    (readIncomingSteps s t inStream uninitialized).2.1.length ≤ inStream.length := by
  unfold readIncomingSteps
  generalize discardAuthoritativeStepsIfBufferGettingFull s = discarded
  obtain ⟨discardErr, s1⟩ := discarded
  dsimp only
  split
  · exact Nat.le_refl _
  unfold nimbleServerHandleIncomingSteps
  split
  · exact Nat.le_refl _
  rename_i p _
  split
  · exact Nat.le_refl _
  split
  · exact Nat.le_refl _
  rename_i waitingFor receiveMask consumed _
  unfold nimbleServerLocalPartyDeserializePredictedSteps
  have hcount := (length_readInto E.fldInStreamReadUInt8 (inStream.drop consumed)
    uninitialized.participantCount).trans ((List.drop_sublist consumed inStream).length_le)
  have hloop := length_deserializePredictedStepsLoop p uninitialized
    (readInto E.fldInStreamReadUInt8 (inStream.drop consumed)
      uninitialized.participantCount).1.toNat 0
    (readInto E.fldInStreamReadUInt8 (inStream.drop consumed) uninitialized.participantCount).2 s1
  dsimp only
  split
  · exact hloop.trans hcount
  · exact hloop.trans hcount

/-- A command for the transfer. -/
theorem length_reqBlobStream (s : Server E S) (t : ConnectionPtr) (inStream : InStream)
    (clientTime : UInt16) (now : Nat) :
    (nimbleServerReqBlobStream s t inStream clientTime now).2.1.length ≤ inStream.length := by
  unfold nimbleServerReqBlobStream
  dsimp only
  split
  · exact (List.drop_sublist _ inStream).length_le
  · exact (List.drop_sublist _ inStream).length_le

/-- A connect request. -/
theorem length_reqConnect (s : Server E S) (transportIndex : UInt8) (inStream : InStream)
    (outStream : OutStream) :
    Ensures (nimbleServerReqConnect s transportIndex inStream outStream)
      (fun r => r.2.1.length ≤ inStream.length) (fun _ => True) := by
  unfold nimbleServerReqConnect
  split
  · exact Nat.le_refl _
  · refine Ensures.bind_of (fun _ => True) (Ensures.of_eq_ok fun _ _ => trivial) ?_
    rintro ⟨_ | c, s1⟩ -
    · exact (List.drop_sublist _ inStream).length_le
    · exact (List.drop_sublist _ inStream).length_le

/-- A join request. -/
theorem length_reqGameJoin (s : Server E S) (t : ConnectionPtr) (inStream : InStream)
    (outStream : OutStream) (uninitialized : Uninitialized S) :
    Ensures (nimbleServerReqGameJoin s t inStream outStream uninitialized)
      (fun r => r.2.1.length ≤ inStream.length) (fun _ => True) := by
  unfold nimbleServerReqGameJoin
  split
  · exact Nat.le_refl _
  · refine Ensures.bind_of (fun _ => True) (Ensures.of_eq_ok fun _ _ => trivial) ?_
    rintro ⟨_ | p, s1⟩ -
    · exact (List.drop_sublist _ inStream).length_le
    · exact (List.drop_sublist _ inStream).length_le

/-- A GameStep request reads its octets before it composes, and composing reads none. -/
theorem length_reqGameStep (s : Server E S) (t : ConnectionPtr) (inStream : InStream)
    (outStream : OutStream) (uninitialized : Uninitialized S) :
    Ensures (nimbleServerReqGameStep s t inStream outStream uninitialized)
      (fun r => r.2.1.length ≤ inStream.length) (fun _ => True) := by
  have hread := length_readIncomingSteps s t inStream uninitialized
  unfold nimbleServerReqGameStep readIncomingStepsAndCreateAuthoritativeSteps
  generalize readIncomingSteps s t inStream uninitialized = incoming at hread ⊢
  obtain ⟨result, rest, s1⟩ := incoming
  refine Ensures.bind_of (fun r => r.2.1 = rest) ?_ ?_
  · cases result with
    | error code => rfl
    | ok waitingFor =>
      dsimp only
      split
      · rfl
      · refine Ensures.bind_of (fun _ => True) (Ensures.of_eq_ok fun _ _ => trivial) ?_
        rintro ⟨advanceCount, s2⟩ -
        dsimp only
        split
        · rfl
        · rfl
  · rintro ⟨result, rest', s2⟩ rfl
    cases result with
    | error code => exact hread
    | ok waitingFor => exact hread

/-- A download reads one octet, however it ends. -/
theorem length_reqDownloadGameState (s : Server E S) (t : ConnectionPtr) (inStream : InStream)
    (clientTime : UInt16) (uninitialized : Uninitialized S) (state : SerializedGameState)
    (now : Nat) :
    Ensures (nimbleServerReqDownloadGameState s t inStream clientTime uninitialized state now)
      (fun r => r.2.1.length ≤ inStream.length) (fun _ => True) := by
  have hread := length_readInto E.fldInStreamReadUInt8 inStream
    uninitialized.downloadClientRequestId
  unfold nimbleServerReqDownloadGameState
  generalize readInto E.fldInStreamReadUInt8 inStream uninitialized.downloadClientRequestId
    = request at hread ⊢
  obtain ⟨requestId, rest⟩ := request
  dsimp only
  split
  · trivial
  split
  · exact hread
  split
  · exact hread
  exact hread

/-- The `switch` on the command. -/
theorem length_handleCommand (s : Server E S) (t : ConnectionPtr) (cmd : UInt8)
    (inStream : InStream) (outStream : OutStream) (clientTime : UInt16)
    (environment : Environment S) (round : Nat) :
    Ensures (handleCommand s t cmd inStream outStream clientTime environment round)
      (fun r => ∀ result rest reply sent, r.1 = some (result, rest, reply, sent) →
        rest.length ≤ inStream.length) (fun _ => True) := by
  refine handleCommand_ensures ?_ ?_ ?_ ?_ (by rintro _ _ _ _ ⟨⟩) cmd
  · refine (length_reqConnect s _ inStream outStream).mono (fun r hr => ?_) fun _ h => h
    rintro _ _ _ _ ⟨⟩
    exact hr
  · refine (length_reqGameStep s t inStream outStream _).mono (fun r hr => ?_) fun _ h => h
    rintro _ _ _ _ ⟨⟩
    exact hr
  · refine (length_reqGameJoin s t inStream outStream _).mono (fun r hr => ?_) fun _ h => h
    rintro _ _ _ _ ⟨⟩
    exact hr
  · refine (length_reqDownloadGameState s t inStream clientTime _ _ _).mono (fun r hr => ?_)
      fun _ h => h
    rintro _ _ _ _ ⟨⟩
    exact hr

/-! ### The handlers of a datagram, one after the other -/

/-- What the handler of a command has to send. -/
inductive Answer
  -- The parts of a blob stream, sent by the handler.
  | blobStream (sent : List (List UInt8))
  -- The reply to a connect, join or GameStep request, with its header.
  | reply (octets : List UInt8)
  -- The response to a download request and the first parts, sent by the handler.
  | download (sent : List (List UInt8))

/-- The datagrams of an answer. -/
def Answer.datagrams : Answer → List (List UInt8)
  | .blobStream sent => sent
  | .reply octets => [octets]
  | .download sent => sent

/-- The answer passes the check of the reply: it is not that of a download, and a reply has
more than four octets. -/
def Answer.Passes : Answer → Prop
  | .blobStream _ => True
  | .reply octets => 4 < octets.length
  | .download _ => False

/-- Whether an answer passes can be read off it. -/
instance (answer : Answer) : Decidable answer.Passes :=
  match answer with
  | .blobStream _ => .isTrue trivial
  | .reply octets => inferInstanceAs (Decidable (4 < octets.length))
  | .download _ => .isFalse id

/-- The commands that are answered by a reply. -/
def RepliesTo (E : External) (cmd : UInt8) : Prop :=
  cmd = E.NimbleSerializeCmdConnectRequest ∨ cmd = E.NimbleSerializeCmdGameStep ∨
    cmd = E.NimbleSerializeCmdJoinGameRequest

/-- Commands are octets. -/
instance (cmd : UInt8) : Decidable (RepliesTo E cmd) :=
  inferInstanceAs (Decidable (_ ∨ _ ∨ _))

/-- The handler of one command: its answer, what it leaves of the datagram, and the server.
A reply starts with a header, which is committed. `none` when the handler fails, and for a
command of another kind. -/
def runCommand (t : ConnectionPtr) (clientTime : UInt16) (environment : Environment S)
    (round : Nat) (cmd : UInt8) (inStream : InStream) (s : Server E S) :
    Option (Answer × InStream × Server E S) :=
  if cmd = E.NimbleSerializeCmdClientOutBlobStream then
    match nimbleServerReqBlobStream s t inStream clientTime (environment.now round) with
    | (result, rest, sent, s) => if result < 0 then none else some (.blobStream sent, rest, s)
  else
    match transportConnectionWriteHeader (s.connection t) (replyOutStream E) clientTime with
    | (err, outStream) =>
      if err < 0 then none
      else
        match handleCommand s t cmd inStream outStream clientTime environment round with
        | .ok (some (result, rest, stream, sent), s) =>
          if result < 0 then none
          else if RepliesTo E cmd then
            some (.reply stream.octets, rest,
              s.setConnection t (transportConnectionCommitHeader (s.connection t)))
          else some (.download sent, rest, s)
        | _ => none

/-- Each command's handler succeeds when it is run on the state that the previous ones
left. -/
inductive Succeeds (t : ConnectionPtr) (clientTime : UInt16) (environment : Environment S) :
    (round : Nat) → InStream → Server E S → List Answer → Server E S → Prop
  | done (round : Nat) (s : Server E S) : Succeeds t clientTime environment round [] s [] s
  | command {round : Nat} {cmd : UInt8} {octets inStream rest : InStream}
      {s s1 s' : Server E S} {answer : Answer} {answers : List Answer}
      (hread : ReadsCommand E environment round octets cmd inStream)
      (hrun : runCommand t clientTime environment round cmd inStream s
        = some (answer, rest, s1))
      (hrest : Succeeds t clientTime environment (round + 1) rest s1 answers s') :
      Succeeds t clientTime environment round octets s (answer :: answers) s'

/-! ### One command of the loop -/

/-- How a handler that succeeds ends. -/
inductive CommandOutcome (t : ConnectionPtr) (clientTime : UInt16)
    (environment : Environment S) (round : Nat) (cmd : UInt8) (inStream : InStream)
    (s : Server E S) : Answer × InStream × Server E S → Prop
  | blobStream (hcmd : cmd = E.NimbleSerializeCmdClientOutBlobStream) {result : Int}
      {rest : InStream} {sent : List (List UInt8)} {s1 : Server E S}
      (hhandler : nimbleServerReqBlobStream s t inStream clientTime (environment.now round)
        = (result, rest, sent, s1)) (hresult : 0 ≤ result) :
      CommandOutcome t clientTime environment round cmd inStream s (.blobStream sent, rest, s1)
  | reply (hblob : cmd ≠ E.NimbleSerializeCmdClientOutBlobStream) (hcmd : RepliesTo E cmd)
      {outStream stream : OutStream}
      (hheader : WritesHeader s t clientTime outStream)
      {result : Int} {rest : InStream} {s1 : Server E S}
      (hhandler : handleCommand s t cmd inStream outStream clientTime environment round
        = .ok (some (result, rest, stream, []), s1)) (hresult : 0 ≤ result) :
      CommandOutcome t clientTime environment round cmd inStream s (.reply stream.octets, rest,
        s1.setConnection t (transportConnectionCommitHeader (s1.connection t)))
  | download (hblob : cmd ≠ E.NimbleSerializeCmdClientOutBlobStream)
      (hcmd : cmd = E.NimbleSerializeCmdDownloadGameStateRequest) {outStream : OutStream}
      (hheader : WritesHeader s t clientTime outStream)
      {result : Int} {rest : InStream} {sent : List (List UInt8)} {s1 : Server E S}
      (hhandler : handleCommand s t cmd inStream outStream clientTime environment round
        = .ok (some (result, rest, outStream, sent), s1)) (hresult : 0 ≤ result) :
      CommandOutcome t clientTime environment round cmd inStream s (.download sent, rest, s1)

/-- Which of its parts the `switch` leaves alone: a reply command sends nothing on its own,
and a download does not touch the stream of the reply. -/
theorem handleCommand_kind {s s1 : Server E S} {t : ConnectionPtr} {cmd : UInt8}
    {inStream rest : InStream} {outStream stream : OutStream} {clientTime : UInt16}
    {environment : Environment S} {round : Nat} {result : Int} {sent : List (List UInt8)}
    (h : handleCommand s t cmd inStream outStream clientTime environment round
      = .ok (some (result, rest, stream, sent), s1)) :
    (RepliesTo E cmd ∧ sent = []) ∨ (¬RepliesTo E cmd ∧
      cmd = E.NimbleSerializeCmdDownloadGameStateRequest ∧ stream = outStream) := by
  unfold handleCommand at h
  by_cases hconnect : cmd = E.NimbleSerializeCmdConnectRequest
  · rw [if_pos hconnect] at h
    obtain ⟨_, -, hreply⟩ := bind_eq_ok.mp h
    cases hreply
    exact .inl ⟨.inl hconnect, rfl⟩
  rw [if_neg hconnect] at h
  by_cases hstep : cmd = E.NimbleSerializeCmdGameStep
  · rw [if_pos hstep] at h
    obtain ⟨_, -, hreply⟩ := bind_eq_ok.mp h
    cases hreply
    exact .inl ⟨.inr (.inl hstep), rfl⟩
  rw [if_neg hstep] at h
  by_cases hjoin : cmd = E.NimbleSerializeCmdJoinGameRequest
  · rw [if_pos hjoin] at h
    obtain ⟨_, -, hreply⟩ := bind_eq_ok.mp h
    cases hreply
    exact .inl ⟨.inr (.inr hjoin), rfl⟩
  rw [if_neg hjoin] at h
  by_cases hdownload : cmd = E.NimbleSerializeCmdDownloadGameStateRequest
  · rw [if_pos hdownload] at h
    obtain ⟨_, -, hreply⟩ := bind_eq_ok.mp h
    cases hreply
    refine .inr ⟨?_, hdownload, rfl⟩
    -- The comparisons before have all failed.
    rintro (h | h | h)
    · exact hconnect h
    · exact hstep h
    · exact hjoin h
  · rw [if_neg hdownload] at h
    cases h

/-- These are all the ways a handler succeeds. -/
theorem runCommand_outcome {t : ConnectionPtr} {clientTime : UInt16}
    {environment : Environment S} {round : Nat} {cmd : UInt8} {inStream : InStream}
    {s : Server E S} {r : Answer × InStream × Server E S}
    (h : runCommand t clientTime environment round cmd inStream s = some r) :
    CommandOutcome t clientTime environment round cmd inStream s r := by
  unfold runCommand at h
  by_cases hblob : cmd = E.NimbleSerializeCmdClientOutBlobStream
  · rw [if_pos hblob] at h
    rcases hhandler : nimbleServerReqBlobStream s t inStream clientTime (environment.now round)
      with ⟨result, rest, sent, s1⟩
    rw [hhandler] at h
    dsimp only at h
    split at h
    · cases h
    · rename_i hresult
      cases h
      exact .blobStream hblob hhandler (Int.not_lt.mp hresult)
  · rw [if_neg hblob] at h
    dsimp only at h
    split at h
    · cases h
    rename_i hheader
    have hwrites : WritesHeader s t clientTime _ := ⟨Int.not_lt.mp hheader, rfl⟩
    split at h
    · rename_i result rest stream sent s1 hhandler
      split at h
      · cases h
      rename_i hresult
      -- The kind of the command decides who sends the answer.
      rcases handleCommand_kind hhandler with ⟨hcmd, rfl⟩ | ⟨hnot, hcmd, rfl⟩
      · rw [if_pos hcmd] at h
        cases h
        exact .reply hblob hcmd hwrites hhandler (Int.not_lt.mp hresult)
      · rw [if_neg hnot] at h
        cases h
        exact .download hblob hcmd hwrites hhandler (Int.not_lt.mp hresult)
    · cases h

section Loop

variable (Q : SequenceNumbers E) [hwriters : LawfulWriters E] [LawfulOutStreams E]
include Q

/-- A reply that grows from a header is not longer than the largest datagram. -/
theorem reply_fits {s : Server E S} {t : ConnectionPtr} {clientTime : UInt16}
    {outStream stream : OutStream} (hheader : WritesHeader s t clientTime outStream)
    (hgrows : outStream.Grows stream) : stream.octets.length ≤ E.datagramTransportMaxSize := by
  have hfits := ((Q.writesHeader hheader).1.grows hgrows).fits
  rw [hwriters.maxSize_eq]
  omega

/-- A handler adds to the stream, and the connection stays in use. -/
theorem handleCommand_kept {t : ConnectionPtr} {cmd : UInt8} {inStream rest : InStream}
    {outStream stream : OutStream} {clientTime : UInt16} {environment : Environment S}
    {round : Nat} {s s1 : Server E S} {result : Int} {sent : List (List UInt8)}
    (hused : (s.connection t).isUsed = true)
    (hhandler : handleCommand s t cmd inStream outStream clientTime environment round
      = .ok (some (result, rest, stream, sent), s1)) :
    outStream.Grows stream ∧ (s1.connection t).isUsed = true := by
  have hreplied := (handleCommand_replied Q hused cmd inStream outStream clientTime environment
    round).of_ok hhandler
  cases hreplied with
  | reply code rest hsends hgrows => exact ⟨hgrows, hsends.isUsed t hused⟩
  | own code rest hsends => exact ⟨.refl _, hsends.isUsed t hused⟩

/-- A command leaves less of the datagram, and the connection stays in use. -/
theorem CommandOutcome.kept {t : ConnectionPtr} {clientTime : UInt16}
    {environment : Environment S} {round : Nat} {cmd : UInt8} {inStream rest : InStream}
    {s s1 : Server E S} {answer : Answer} (hused : (s.connection t).isUsed = true)
    (h : CommandOutcome t clientTime environment round cmd inStream s (answer, rest, s1)) :
    rest.length ≤ inStream.length ∧ (s1.connection t).isUsed = true := by
  cases h with
  | blobStream hcmd hhandler hresult =>
    have hlength := length_reqBlobStream s t inStream clientTime (environment.now round)
    have hsends := reqBlobStream_sends Q t inStream clientTime (environment.now round) hused
    rw [hhandler] at hlength hsends
    exact ⟨hlength, hsends.isUsed t hused⟩
  | reply hblob hcmd hheader hhandler hresult =>
    refine ⟨(length_handleCommand s t cmd inStream _ clientTime environment round).of_ok
      hhandler _ _ _ _ rfl, ?_⟩
    rw [Server.connection_setConnection, if_pos rfl]
    exact (handleCommand_kept Q hused hhandler).2
  | download hblob hcmd hheader hhandler hresult =>
    exact ⟨(length_handleCommand s t cmd inStream _ clientTime environment round).of_ok
      hhandler _ _ _ _ rfl, (handleCommand_kept Q hused hhandler).2⟩

/-- One round of the loop: an answer that passes the check is sent and the loop goes on, and
an answer that does not ends it with an error. -/
theorem CommandOutcome.feedCommands {t : ConnectionPtr} {clientTime : UInt16}
    {environment : Environment S} {round : Nat} {cmd : UInt8} {inStream rest : InStream}
    {s s1 : Server E S} {answer : Answer} (hused : (s.connection t).isUsed = true)
    (h : CommandOutcome t clientTime environment round cmd inStream s (answer, rest, s1))
    {octets : InStream} (hread : ReadsCommand E environment round octets cmd inStream)
    (fuel : Nat) (sent : List (List UInt8)) :
    (answer.Passes →
      NimbleServer.feedCommands t clientTime environment (fuel + 1) round octets sent s
        = NimbleServer.feedCommands t clientTime environment fuel (round + 1) rest
          (sent ++ answer.datagrams) s1) ∧
    (¬answer.Passes → ∃ sent' s'',
      NimbleServer.feedCommands t clientTime environment (fuel + 1) round octets sent s
        = .ok (NimbleServerErrSerialize, sent', s'')) := by
  cases h with
  | blobStream hcmd hhandler hresult =>
    refine ⟨fun _ => ?_, fun hfails => absurd trivial hfails⟩
    rw [feedCommands_blobStream hread hcmd hhandler]
    exact if_neg (Int.not_lt.mpr hresult)
  | @reply hblob hcmd outStream stream hheader result rest s1 hhandler hresult =>
    have hlong : ¬stream.octets.length > E.datagramTransportMaxSize :=
      Nat.not_lt.mpr (reply_fits Q hheader (handleCommand_kept Q hused hhandler).1)
    -- The handler succeeded, so the loop comes to the checks of the reply.
    have hround : NimbleServer.feedCommands t clientTime environment (fuel + 1) round octets
        sent s = afterCommand t clientTime environment fuel round sent
          (some (result, rest, stream, []), s1) := by
      rw [feedCommands_command hread hblob hheader, hhandler]
      rfl
    rw [hround]
    simp only [afterCommand]
    rw [if_neg (Int.not_lt.mpr hresult), if_neg hlong, List.append_nil]
    constructor
    · intro hpass
      exact if_neg (Nat.not_le.mpr hpass)
    · intro hfails
      exact ⟨sent, s1, if_pos (Nat.not_lt.mp hfails)⟩
  | @download hblob hcmd outStream hheader result rest handlerSent s1 hhandler hresult =>
    -- Only the header is in the stream.
    have hshort : outStream.octets.length ≤ 4 := (Q.writesHeader hheader).2
    refine ⟨False.elim, fun _ => ⟨sent ++ handlerSent, s1, ?_⟩⟩
    rw [feedCommands_command hread hblob hheader, hhandler]
    show afterCommand t clientTime environment fuel round sent
      (some (result, rest, outStream, handlerSent), s1) = _
    simp only [afterCommand]
    rw [if_neg (Int.not_lt.mpr hresult), if_pos hshort]
    rfl

/-- The loop answers all commands when every answer passes the check, and ends with an error
when one does not. Induction on the commands. -/
theorem feedCommands_answers [LawfulInStreams E] {t : ConnectionPtr} {clientTime : UInt16}
    {environment : Environment S} {round : Nat} {inStream : InStream} {s s' : Server E S}
    {answers : List Answer}
    (h : Succeeds t clientTime environment round inStream s answers s') :
    ∀ (fuel : Nat) (sent : List (List UInt8)), inStream.length ≤ fuel →
      (s.connection t).isUsed = true →
      ((∀ answer ∈ answers, answer.Passes) →
        feedCommands t clientTime environment fuel round inStream sent s
          = .ok (0, sent ++ answers.flatMap Answer.datagrams, s')) ∧
      ((∃ answer ∈ answers, ¬answer.Passes) → ∃ sent' s'',
        feedCommands t clientTime environment fuel round inStream sent s
          = .ok (NimbleServerErrSerialize, sent', s'')) := by
  induction h with
  | done round s =>
    intro fuel sent _ _
    rw [feedCommands_nil]
    refine ⟨fun _ => by rw [List.flatMap_nil, List.append_nil], ?_⟩
    rintro ⟨answer, ⟨⟩, -⟩
  | @command round cmd octets inStream rest s s1 s' answer answers hread hrun hrest ih =>
    intro fuel sent hfuel hused
    have hcmd := hread.length_lt
    -- The bound is the number of octets, and a command takes at least one.
    obtain ⟨fuel, rfl⟩ : ∃ fewer, fuel = fewer + 1 :=
      Nat.exists_eq_succ_of_ne_zero (by omega)
    have houtcome := runCommand_outcome hrun
    obtain ⟨hshorter, hused1⟩ := houtcome.kept Q hused
    obtain ⟨hpasses, hfails⟩ := houtcome.feedCommands Q hused hread fuel sent
    obtain ⟨hall, hsome⟩ := ih fuel (sent ++ answer.datagrams) (by omega) hused1
    refine ⟨fun hpass => ?_, fun hexists => ?_⟩
    · rw [hpasses (hpass answer List.mem_cons_self),
        hall fun other hmem => hpass other (List.mem_cons_of_mem _ hmem),
        List.flatMap_cons, List.append_assoc]
    · by_cases hpass : answer.Passes
      · -- This command is answered, so one of the later ones is not.
        rw [hpasses hpass]
        obtain ⟨other, hmem, hother⟩ := hexists
        rcases List.mem_cons.mp hmem with rfl | hmem
        · exact absurd hpass hother
        · exact hsome ⟨other, hmem, hother⟩
      · exact hfails hpass

end Loop

/-! ### Datagrams -/

/-- How far `nimbleServerFeed` comes before the commands: the datagram came on the index of
its connection, and the ordering check lets it pass. -/
structure Accepts (s : Server E S) (transportIndex : UInt8) (t : ConnectionPtr)
    (data : List UInt8) (consumed : Nat) : Prop where
  slot : transportIndex.toNat = t.val
  index : ((receiveOnConnection s t).connection t).transportIndex = transportIndex
  ordered : (E.orderedDatagramInLogicReceive
    ((receiveOnConnection s t).connection t).orderedDatagramInLogic data).1 = .ok consumed

/-- The client time and the commands of a datagram. -/
def datagramCommands (E : External) (data : List UInt8) (consumed : Nat)
    (environment : Environment S) : UInt16 × InStream :=
  readInto E.fldInStreamReadUInt16 (data.drop consumed) (environment.uninitialized 0).clientTime

/-- An accepted datagram is the loop over its commands. -/
theorem Accepts.feed_eq {s : Server E S} {transportIndex : UInt8} {t : ConnectionPtr}
    {data : List UInt8} {consumed : Nat} (h : Accepts s transportIndex t data consumed)
    (environment : Environment S) :
    nimbleServerFeed s transportIndex data environment
      = feedCommands t (datagramCommands E data consumed environment).1 environment
        (datagramCommands E data consumed environment).2.length 0
        (datagramCommands E data consumed environment).2 []
        (receiveOrdered (receiveOnConnection s t) t data) := by
  obtain ⟨hslot, hindex, hordered⟩ := h
  have hlt : transportIndex.toNat < NIMBLE_NIMBLE_SERVER_MAX_TRANSPORT_CONNECTIONS :=
    hslot ▸ t.isLt
  obtain rfl : ⟨transportIndex.toNat, hlt⟩ = t := Fin.ext hslot
  rcases hreceive : E.orderedDatagramInLogicReceive ((receiveOnConnection s
    ⟨transportIndex.toNat, hlt⟩).connection
      ⟨transportIndex.toNat, hlt⟩).orderedDatagramInLogic data with ⟨received, logic⟩
  rw [hreceive] at hordered
  cases hordered
  simp only [nimbleServerFeed, receiveOrdered, datagramCommands, dif_pos hlt,
    if_neg (not_not.mpr hindex), hreceive]

/-- For every state and every datagram that passes the ordering check, of commands whose
handlers succeed one after the other: `nimbleServerFeed` returns 0 with all the answers sent
and the state that the handlers leave, if and only if no command is a download and every
reply has more than four octets with its header. -/
theorem feed_answers_all_iff (Q : SequenceNumbers E) [LawfulWriters E] [LawfulInStreams E]
    [LawfulOutStreams E] {s s' : Server E S}
    {transportIndex : UInt8} {t : ConnectionPtr} {data : List UInt8} {consumed : Nat}
    (haccepts : Accepts s transportIndex t data consumed) {environment : Environment S}
    {answers : List Answer}
    (hsucceeds : Succeeds t (datagramCommands E data consumed environment).1 environment 0
      (datagramCommands E data consumed environment).2
      (receiveOrdered (receiveOnConnection s t) t data) answers s') :
    nimbleServerFeed s transportIndex data environment
        = .ok (0, answers.flatMap Answer.datagrams, s') ↔
      ∀ answer ∈ answers, answer.Passes := by
  have hused : ((receiveOrdered (receiveOnConnection s t) t data).connection t).isUsed
      = true := by
    unfold receiveOrdered
    rw [Server.connection_setConnection, if_pos rfl]
    exact receiveOnConnection_isUsed s t
  obtain ⟨hall, hsome⟩ := feedCommands_answers Q hsucceeds _ [] (Nat.le_refl _) hused
  rw [haccepts.feed_eq environment]
  -- A datagram that is answered completely returns 0, and one that is not returns an error.
  refine ⟨fun hfeed => ?_, hall⟩
  by_contra hfails
  push Not at hfails
  obtain ⟨sent, s'', herror⟩ := hsome hfails
  cases hfeed.symm.trans herror

/-! ### Two datagrams -/

/-- The handlers one after the other, as a function. -/
def runCommands (t : ConnectionPtr) (clientTime : UInt16) (environment : Environment S) :
    (fuel round : Nat) → InStream → Server E S → Option (List Answer × Server E S)
  | _, _, [], s => some ([], s)
  | 0, _, _ :: _, _ => none
  | fuel + 1, round, octet :: octets, s => do
    let (cmd, inStream) := readInto E.fldInStreamReadUInt8 (octet :: octets)
      (environment.uninitialized round).cmd
    let (answer, rest, s) ← runCommand t clientTime environment round cmd inStream s
    let (answers, s) ← runCommands t clientTime environment fuel (round + 1) rest s
    return (answer :: answers, s)

/-- The function computes a run of the handlers. Induction on its bound. -/
theorem succeeds_of_runCommands {t : ConnectionPtr} {clientTime : UInt16}
    {environment : Environment S} (fuel : Nat) :
    ∀ (round : Nat) (inStream : InStream) (s s' : Server E S) (answers : List Answer),
      runCommands t clientTime environment fuel round inStream s = some (answers, s') →
      Succeeds t clientTime environment round inStream s answers s' := by
  induction fuel with
  | zero =>
    intro round inStream s s' answers h
    cases inStream with
    | nil =>
      cases h
      exact .done round s
    | cons octet octets => cases h
  | succ fuel ih =>
    intro round inStream s s' answers h
    cases inStream with
    | nil =>
      cases h
      exact .done round s
    | cons octet octets =>
      obtain ⟨⟨answer, rest, s1⟩, hrun, h⟩ := Option.bind_eq_some_iff.mp h
      obtain ⟨⟨more, s2⟩, hrest, h⟩ := Option.bind_eq_some_iff.mp h
      cases h
      exact .command ⟨List.cons_ne_nil _ _, rfl⟩ hrun (ih _ _ _ _ _ hrest)

/-- A datagram for one client on the first connection, and what its handlers do with it. -/
structure ClientDatagram (s : Server plainExternal (plainSetup 1)) (commands : List UInt8)
    (answers : List Answer) (s' : Server plainExternal (plainSetup 1)) : Prop where
  accepts : Accepts s 0 0 (datagram commands) 2
  succeeds : Succeeds 0
    (datagramCommands plainExternal (datagram commands) 2
      (plainEnvironment (zeroLocals (plainSetup 1)))).1
    (plainEnvironment (zeroLocals _)) 0
    (datagramCommands plainExternal (datagram commands) 2
      (plainEnvironment (zeroLocals (plainSetup 1)))).2
    (receiveOrdered (receiveOnConnection s 0) 0 (datagram commands)) answers s'

/-- The check of one run and one datagram. -/
theorem exists_clientDatagram (ops : List (Op (plainSetup 1))) (commands : List UInt8)
    (check : Server plainExternal (plainSetup 1) → List Answer → Bool)
    (h : ((plainGame 1).toOption.bind fun start =>
      runChecked Server.step (fun s op => decide (s.Enabled op)) start ops).any (fun s => decide
        (((receiveOnConnection s 0).connection 0).transportIndex = 0 ∧
        (plainExternal.orderedDatagramInLogicReceive ((receiveOnConnection s 0).connection
          0).orderedDatagramInLogic (datagram commands)).1 = .ok 2 ∧
        (runCommands 0 (datagramCommands plainExternal (datagram commands) 2
            (plainEnvironment (zeroLocals (plainSetup 1)))).1 (plainEnvironment (zeroLocals _))
          commands.length 0 (datagramCommands plainExternal (datagram commands) 2
            (plainEnvironment (zeroLocals (plainSetup 1)))).2
          (receiveOrdered (receiveOnConnection s 0) 0 (datagram commands))).any
            (fun r => check s r.1) = true)) = true) :
    ∃ start s, StartsGame start ∧ Reaches Server.step (fun s op => s.Enabled op) start s ∧
      ∃ answers s', ClientDatagram s commands answers s' ∧ check s answers = true := by
  obtain ⟨start, s, hstart, hrun, hindex, hordered, hcommands⟩ :=
    exists_run Server.step (fun s op => s.Enabled op) _ (plainGame 1) ops h
  rw [Option.any_eq_true] at hcommands
  obtain ⟨⟨answers, s'⟩, hanswers, hcheck⟩ := hcommands
  exact ⟨start, s, startsGame_of_blankGame hstart, hrun, answers, s',
    ⟨⟨rfl, hindex, hordered⟩, succeeds_of_runCommands _ _ _ _ _ _ hanswers⟩, hcheck⟩

/-- A client joins, sends a step and acknowledges a blob stream part, all in its first
datagram. -/
theorem feed_answers_all_iff_firstDatagram :
    ∃ start s, StartsGame start ∧ Reaches Server.step (fun s op => s.Enabled op) start s ∧
      ∃ answers s',
        ClientDatagram s (3 :: joinOctets 0 0 1 ++ 2 :: gameStep 0 [[7]] ++ [5]) answers s' ∧
        answers.length = 3 ∧
        nimbleServerFeed s 0 (datagram (3 :: joinOctets 0 0 1 ++ 2 :: gameStep 0 [[7]] ++ [5]))
            (plainEnvironment (zeroLocals _))
          = .ok (0, answers.flatMap Answer.datagrams, s') := by
  obtain ⟨start, s, hstart, hrun, answers, s', hdatagram, hcheck⟩ :=
    exists_clientDatagram [] (3 :: joinOctets 0 0 1 ++ 2 :: gameStep 0 [[7]] ++ [5])
      (fun _ answers => answers.length = 3 && decide (∀ answer ∈ answers, answer.Passes))
      (by decide +kernel)
  simp only [Bool.and_eq_true, decide_eq_true_eq] at hcheck
  exact ⟨start, s, hstart, hrun, answers, s', hdatagram, hcheck.1,
    (feed_answers_all_iff plainSequenceNumbers hdatagram.accepts hdatagram.succeeds).mpr
      hcheck.2⟩

/-- A client that has joined asks for the game state and sends a step in the same datagram.
Both handlers succeed. The step is never handled, and the result is an error. -/
theorem download_ends_datagram :
    ∃ start s, StartsGame start ∧ Reaches Server.step (fun s op => s.Enabled op) start s ∧
      ∃ answers s', ClientDatagram s ([4, 9] ++ 2 :: gameStep 0 [[7]]) answers s' ∧
        ∃ sent s'', nimbleServerFeed s 0 (datagram ([4, 9] ++ 2 :: gameStep 0 [[7]]))
            (plainEnvironment (zeroLocals _)) = .ok (NimbleServerErrSerialize, sent, s'') ∧
          sent.length < (answers.flatMap Answer.datagrams).length := by
  obtain ⟨start, s, hstart, hrun, answers, s', hdatagram, hcheck⟩ :=
    exists_clientDatagram [.receive 0, .join 0 onePlayer (zeroLocals _)]
      ([4, 9] ++ 2 :: gameStep 0 [[7]])
      (fun s answers => (nimbleServerFeed s 0 (datagram ([4, 9] ++ 2 :: gameStep 0 [[7]]))
        (plainEnvironment (zeroLocals _))).toOption.any (fun r =>
          r.1 = NimbleServerErrSerialize &&
          r.2.1.length < (answers.flatMap Answer.datagrams).length)) (by decide +kernel)
  obtain ⟨⟨result, sent, s''⟩, hfeed, hresult⟩ := exists_ok_of_any hcheck
  simp only [Bool.and_eq_true, decide_eq_true_eq] at hresult
  obtain ⟨rfl, hlost⟩ := hresult
  exact ⟨start, s, hstart, hrun, answers, s', hdatagram, sent, s'', hfeed, hlost⟩

end NimbleServer
