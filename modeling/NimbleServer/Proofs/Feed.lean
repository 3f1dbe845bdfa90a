import NimbleServer.Proofs.OperationRules

/-!
# `NimbleServer.Proofs.Feed`: a datagram is a run

The operations of a run are parts of calls into the server. This module proves that nothing
is missing: whatever `nimbleServerFeed` does with a datagram is a run of operations, each of
them enabled where it comes (`nimbleServerFeed_reaches`). A result about every run of
datagram operations is therefore one about every sequence of datagrams, whatever they
contain.

The commands of a datagram are handled on one connection. It stays in use and keeps its
index while they are handled (`serving_step`), because a connect request takes a slot that
is not in use.

`handleCommand_ensures` and `feedCommands_ensures` are the rules for the `switch` and for the
loop around it. The invariant of the loop is about the server and the datagrams that were
sent so far.
-/

set_option autoImplicit false

namespace NimbleServer

open NimbleServer.Lib

variable {E : External} {S : Setup}

/-! ### The connection of a datagram -/

/-- A slot that is the same still serves the datagram. -/
theorem SameSlot.serving {s s' : Server E S} {t : ConnectionPtr} (hs : s.Serving t)
    (h : SameSlot (s.connection t) (s'.connection t)) : s'.Serving t :=
  ⟨h.isUsed.trans hs.1, h.transportIndex.trans hs.2⟩

/-- So does an unchanged connection. -/
theorem serving_of_eq {s s' : Server E S} {t : ConnectionPtr} (hs : s.Serving t)
    (h : s'.connection t = s.connection t) : s'.Serving t := by
  unfold Server.Serving
  rw [h]
  exact hs

/-- A slot that is not in use is not the slot of a connection that is. -/
theorem serving_setConnection {s s' : Server E S} {t c : ConnectionPtr}
    {x : TransportConnection E S} (hs : s.Serving t) (hfree : ¬(s.connection c).isUsed = true)
    (h : ∀ d, s'.connection d = if c = d then x else s.connection d) : s'.Serving t := by
  refine serving_of_eq hs ?_
  rw [h, if_neg]
  rintro rfl
  exact hfree hs.1

/-- A datagram takes its connection into use. -/
theorem receiveOnConnection_isUsed (s : Server E S) (t : ConnectionPtr) :
    ((receiveOnConnection s t).connection t).isUsed = true := by
  unfold receiveOnConnection
  split
  · assumption
  · rw [Server.connection_setConnection, if_pos rfl]
    rfl

/-- The connection stays in use and keeps its index. -/
theorem serving_step {s : Server E S} {t : ConnectionPtr} (hs : s.Serving t) {op : Op S}
    (hop : op.IsDatagram) : Ensures (s.step op) (fun s' => s'.Serving t) (fun _ => True) := by
  cases op with
  | receive c =>
    show (receiveOnConnection s c).Serving t
    unfold receiveOnConnection
    split
    · exact hs
    · rename_i hfree
      exact serving_setConnection hs hfree fun d => Server.connection_setConnection s c d _
  | ordered c data =>
    have hsame : SameSlots s (receiveOrdered s c data) :=
      .setConnection s c ⟨rfl, rfl, rfl, rfl, rfl, rfl⟩
    exact (hsame.connection t).serving hs
  | connect c request =>
    refine Ensures.map ((acceptConnectRequest_ensures s _ request).mono ?_ fun _ _ => trivial)
    intro r hr
    cases hr with
    | refused code => exact hs
    | existing c => exact hs
    -- The slot comes from the free list, and `hfree` says that it is not in use.
    | taken c hversion hfind hempty hfront hfree =>
      exact serving_setConnection hs (Bool.eq_false_iff.mp hfree)
        fun d => Server.connection_setConnection _ c d _
  | join c request uninitialized =>
    refine Ensures.map ((joinGame_ensures s c request uninitialized).mono ?_ fun _ _ => trivial)
    rintro ⟨result, s'⟩ hr
    -- A join changes at most the party that the connection is assigned to.
    rcases hr.connection t with heq | ⟨p, -, -, heq⟩
    · exact serving_of_eq hs heq
    · show (s'.connection t).isUsed = true ∧ (s'.connection t).transportIndex = _
      rw [heq]
      exact hs
  | incomingSteps c inStream uninitialized =>
    exact serving_of_eq hs
      ((SameParties.of_readIncomingSteps s c inStream uninitialized).connection t)
  | composeRound =>
    exact Ensures.map ((SameParties.of_composeRound s).mono
      (fun r hr => serving_of_eq hs (hr.connection t)) fun _ _ => trivial)
  | downloadGameState c inStream clientTime uninitialized state now =>
    exact Ensures.map ((SameSlots.reqDownloadGameState s c inStream clientTime uninitialized
      state now).mono (fun r hr => (hr.connection t).serving hs) fun _ _ => trivial)
  | blobStream c inStream clientTime now =>
    exact ((SameSlots.reqBlobStream s c inStream clientTime now).connection t).serving hs
  | commitHeader c => exact ((SameSlots.commitHeader s c).connection t).serving hs
  | tick | reInitWithGame _ | hostMigration _ _ | connectionConnected _
  | connectionDisconnected _ => exact hop.elim

/-! ### The loop over the commands -/

/-- The rule for the `switch`: one condition for each handler. -/
theorem handleCommand_ensures {s : Server E S} {t : ConnectionPtr} {inStream : InStream}
    {outStream : OutStream} {clientTime : UInt16} {environment : Environment S} {round : Nat}
    {post : Option (Int × InStream × OutStream × List (List UInt8)) × Server E S → Prop}
    {fault : Fault → Prop}
    (hconnect : Ensures (nimbleServerReqConnect s (UInt8.ofNat t.val) inStream outStream)
      (fun r => post (some (r.1, r.2.1, r.2.2.1, []), r.2.2.2)) fault)
    (hstep : Ensures (nimbleServerReqGameStep s t inStream outStream
        (environment.uninitialized round))
      (fun r => post (some (r.1, r.2.1, r.2.2.1, []), r.2.2.2)) fault)
    (hjoin : Ensures (nimbleServerReqGameJoin s t inStream outStream
        (environment.uninitialized round))
      (fun r => post (some (r.1, r.2.1, r.2.2.1, []), r.2.2.2)) fault)
    (hdownload : Ensures (nimbleServerReqDownloadGameState s t inStream clientTime
        (environment.uninitialized round) (environment.serializedGameState round)
        (environment.now round))
      (fun r => post (some (r.1, r.2.1, outStream, r.2.2.1), r.2.2.2)) fault)
    (hunknown : post (none, s)) (cmd : UInt8) :
    Ensures (handleCommand s t cmd inStream outStream clientTime environment round) post
      fault := by
  unfold handleCommand
  by_cases hcmd : cmd = E.NimbleSerializeCmdConnectRequest
  · rw [if_pos hcmd]
    exact hconnect.bind fun _ hr => hr
  rw [if_neg hcmd]
  by_cases hcmd : cmd = E.NimbleSerializeCmdGameStep
  · rw [if_pos hcmd]
    exact hstep.bind fun _ hr => hr
  rw [if_neg hcmd]
  by_cases hcmd : cmd = E.NimbleSerializeCmdJoinGameRequest
  · rw [if_pos hcmd]
    exact hjoin.bind fun _ hr => hr
  rw [if_neg hcmd]
  by_cases hcmd : cmd = E.NimbleSerializeCmdDownloadGameStateRequest
  · rw [if_pos hcmd]
    exact hdownload.bind fun _ hr => hr
  rw [if_neg hcmd]
  exact hunknown

/-- What `feedCommands` does after the `switch`. -/
def afterCommand (t : ConnectionPtr) (clientTime : UInt16) (environment : Environment S)
    (fuel round : Nat) (sent : List (List UInt8)) :
    Option (Int × InStream × OutStream × List (List UInt8)) × Server E S →
      Result (Int × List (List UInt8) × Server E S)
  | (none, s) => pure (0, sent, s)
  | (some (result, inStream, outStream, handlerSent), s) =>
    if result < 0 then pure (result, sent ++ handlerSent, s)
    else if outStream.octets.length ≤ 4 then
      pure (NimbleServerErrSerialize, sent ++ handlerSent, s)
    else if outStream.octets.length > E.datagramTransportMaxSize then
      pure (NimbleServerErrSerialize, sent ++ handlerSent,
        s.setConnection t (transportConnectionCommitHeader (s.connection t)))
    else feedCommands t clientTime environment fuel (round + 1) inStream
      (sent ++ handlerSent ++ [outStream.octets])
      (s.setConnection t (transportConnectionCommitHeader (s.connection t)))

section AfterCommand

variable {t : ConnectionPtr} {clientTime : UInt16} {environment : Environment S}
  {fuel round : Nat} {sent : List (List UInt8)} {code : Int} {rest : InStream}
  {reply : OutStream} {handlerSent : List (List UInt8)} {s : Server E S}

/-- A reply that passes the three checks is sent, and the next command follows. -/
theorem afterCommand_sent (h : ¬(code < 0 ∨ reply.octets.length ≤ 4 ∨
      reply.octets.length > E.datagramTransportMaxSize)) :
    afterCommand t clientTime environment fuel round sent
        (some (code, rest, reply, handlerSent), s)
      = feedCommands t clientTime environment fuel (round + 1) rest
        (sent ++ handlerSent ++ [reply.octets])
        (s.setConnection t (transportConnectionCommitHeader (s.connection t))) := by
  rw [not_or, not_or] at h
  rw [afterCommand, if_neg h.1, if_neg h.2.1, if_neg h.2.2]

/-- A reply that one of the checks refuses ends the datagram. -/
theorem afterCommand_ended (h : code < 0 ∨ reply.octets.length ≤ 4 ∨
      reply.octets.length > E.datagramTransportMaxSize) :
    ∃ r, afterCommand t clientTime environment fuel round sent
      (some (code, rest, reply, handlerSent), s) = .ok r := by
  simp only [afterCommand]
  by_cases hcode : code < 0
  · rw [if_pos hcode]
    exact ⟨_, rfl⟩
  rw [if_neg hcode]
  by_cases hshort : reply.octets.length ≤ 4
  · rw [if_pos hshort]
    exact ⟨_, rfl⟩
  rw [if_neg hshort, if_pos ((h.resolve_left hcode).resolve_left hshort)]
  exact ⟨_, rfl⟩

end AfterCommand

/-- The octet `cmd` is the next command of the datagram, and `inStream` is what follows it. -/
structure ReadsCommand (E : External) (environment : Environment S) (round : Nat)
    (octets : InStream) (cmd : UInt8) (inStream : InStream) : Prop where
  nonempty : octets ≠ []
  read : readInto E.fldInStreamReadUInt8 octets (environment.uninitialized round).cmd
    = (cmd, inStream)

/-- There is a next command as long as there are octets. -/
theorem exists_readsCommand {octets : InStream} (h : octets ≠ []) (environment : Environment S)
    (round : Nat) : ∃ cmd inStream, ReadsCommand E environment round octets cmd inStream :=
  ⟨_, _, h, rfl⟩

/-- A command takes at least one octet. -/
theorem ReadsCommand.length_lt [hreads : LawfulInStreams E] {environment : Environment S}
    {round : Nat} {octets inStream : InStream} {cmd : UInt8}
    (h : ReadsCommand E environment round octets cmd inStream) :
    inStream.length < octets.length := by
  obtain ⟨octet, rest, rfl⟩ := List.exists_cons_of_ne_nil h.nonempty
  obtain ⟨value, consumed, hconsumed, hread⟩ := hreads.readUInt8_cons octet rest
  have hrest : inStream = (octet :: rest).drop consumed := by
    have hsnd := congrArg Prod.snd h.read
    simp only [readInto, hread] at hsnd
    exact hsnd.symm
  rw [hrest, List.length_drop]
  simp only [List.length_cons]
  omega

/-- The header of a reply could be written, and the stream is `outStream` after that. -/
structure WritesHeader (s : Server E S) (t : ConnectionPtr) (clientTime : UInt16)
    (outStream : OutStream) : Prop where
  ok : 0 ≤ (transportConnectionWriteHeader (s.connection t) (replyOutStream E) clientTime).1
  stream : (transportConnectionWriteHeader (s.connection t) (replyOutStream E) clientTime).2
    = outStream

section Round

variable {t : ConnectionPtr} {clientTime : UInt16} {environment : Environment S}
  {fuel round : Nat} {octets inStream : InStream} {cmd : UInt8} {sent : List (List UInt8)}
  {s : Server E S} (hread : ReadsCommand E environment round octets cmd inStream)
include hread

/-- A blob stream command sends its answer and lets the loop go on, unless it fails. -/
theorem feedCommands_blobStream (hcmd : cmd = E.NimbleSerializeCmdClientOutBlobStream)
    {err : Int} {rest : InStream} {blobsSent : List (List UInt8)} {s1 : Server E S}
    (hhandler : nimbleServerReqBlobStream s t inStream clientTime (environment.now round)
      = (err, rest, blobsSent, s1)) :
    feedCommands t clientTime environment (fuel + 1) round octets sent s
      = if err < 0 then pure (err, sent ++ blobsSent, s1)
        else feedCommands t clientTime environment fuel (round + 1) rest (sent ++ blobsSent)
          s1 := by
  obtain ⟨octet, octets, rfl⟩ := List.exists_cons_of_ne_nil hread.nonempty
  rw [feedCommands, hread.read]
  dsimp only
  rw [if_pos hcmd, hhandler]

/-- Any other command is handled with a header in the stream of its reply. -/
theorem feedCommands_command (hblob : cmd ≠ E.NimbleSerializeCmdClientOutBlobStream)
    {outStream : OutStream} (hheader : WritesHeader s t clientTime outStream) :
    feedCommands t clientTime environment (fuel + 1) round octets sent s
      = handleCommand s t cmd inStream outStream clientTime environment round
        >>= afterCommand t clientTime environment fuel round sent := by
  obtain ⟨octet, octets, rfl⟩ := List.exists_cons_of_ne_nil hread.nonempty
  obtain ⟨hok, rfl⟩ := hheader
  rw [feedCommands, hread.read]
  dsimp only
  rw [if_neg hblob, if_neg (Int.not_lt.mpr hok)]
  rfl

/-- Without a header the datagram ends. -/
theorem feedCommands_noHeader (hblob : cmd ≠ E.NimbleSerializeCmdClientOutBlobStream)
    (hheader : (transportConnectionWriteHeader (s.connection t) (replyOutStream E)
      clientTime).1 < 0) :
    feedCommands t clientTime environment (fuel + 1) round octets sent s
      = .ok ((transportConnectionWriteHeader (s.connection t) (replyOutStream E) clientTime).1,
        sent, s) := by
  obtain ⟨octet, octets, rfl⟩ := List.exists_cons_of_ne_nil hread.nonempty
  rw [feedCommands, hread.read]
  dsimp only
  rw [if_neg hblob, if_pos hheader]
  rfl

end Round

/-- Nothing is left of the datagram. -/
theorem feedCommands_nil (t : ConnectionPtr) (clientTime : UInt16)
    (environment : Environment S) (fuel round : Nat) (sent : List (List UInt8))
    (s : Server E S) :
    feedCommands t clientTime environment fuel round [] sent s = .ok (0, sent, s) := by
  cases fuel with
  | zero => rfl
  | succ fuel => rfl

section FeedCommands

variable {t : ConnectionPtr} {clientTime : UInt16} {environment : Environment S}
  (inv : List (List UInt8) → Server E S → Prop) {fault : Fault → Prop}

/-- What a command leaves keeps an invariant of what was sent and of the server, whichever of
the checks of the reply ends the datagram. -/
def ReplyKeeps (t : ConnectionPtr) (inv : List (List UInt8) → Server E S → Prop)
    (sent : List (List UInt8)) :
    Option (Int × InStream × OutStream × List (List UInt8)) × Server E S → Prop
  | (none, s) => inv sent s
  | (some (code, _, reply, handlerSent), s) =>
    inv (sent ++ handlerSent) s ∧ (0 ≤ code → 4 < reply.octets.length →
      inv (sent ++ handlerSent ++ if reply.octets.length > E.datagramTransportMaxSize then []
          else [reply.octets])
        (s.setConnection t (transportConnectionCommitHeader (s.connection t))))

/-- The checks of a reply, with what the loop does with the rest of the datagram given. -/
theorem afterCommand_ensures {fuel round : Nat} {sent : List (List UInt8)}
    (hrest : ∀ (inStream : InStream) (sent : List (List UInt8)) (s : Server E S), inv sent s →
      Ensures (feedCommands t clientTime environment fuel (round + 1) inStream sent s)
        (fun r => inv r.2.1 r.2.2) fault)
    {r : Option (Int × InStream × OutStream × List (List UInt8)) × Server E S}
    (h : ReplyKeeps t inv sent r) :
    Ensures (afterCommand t clientTime environment fuel round sent r)
      (fun r => inv r.2.1 r.2.2) fault := by
  rcases r with ⟨_ | ⟨code, rest, reply, handlerSent⟩, s⟩
  · exact h
  · obtain ⟨hended, hcommit⟩ := h
    simp only [afterCommand]
    by_cases hcode : code < 0
    · rw [if_pos hcode]
      exact hended
    rw [if_neg hcode]
    by_cases hshort : reply.octets.length ≤ 4
    · rw [if_pos hshort]
      exact hended
    rw [if_neg hshort]
    have hchecked := hcommit (by omega) (by omega)
    by_cases hlong : reply.octets.length > E.datagramTransportMaxSize
    · rw [if_pos hlong]
      rw [if_pos hlong, List.append_nil] at hchecked
      exact hchecked
    · rw [if_neg hlong]
      rw [if_neg hlong] at hchecked
      exact hrest _ _ _ hchecked

/-- The rule for the loop: an invariant that every command keeps holds at the end of the
datagram. Induction on the bound of the loop. -/
theorem feedCommands_ensures (hdiverged : fault .feedDiverged)
    (hblob : ∀ (round : Nat) (inStream : InStream) (sent : List (List UInt8))
      (s : Server E S), inv sent s →
      inv (sent ++ (nimbleServerReqBlobStream s t inStream clientTime
          (environment.now round)).2.2.1)
        (nimbleServerReqBlobStream s t inStream clientTime (environment.now round)).2.2.2)
    (hcommand : ∀ (round : Nat) (cmd : UInt8) (inStream : InStream)
      (sent : List (List UInt8)) (s : Server E S) (outStream : OutStream), inv sent s →
      WritesHeader s t clientTime outStream →
      Ensures (handleCommand s t cmd inStream outStream clientTime environment round)
        (ReplyKeeps t inv sent) fault) (fuel : Nat) :
    ∀ (round : Nat) (octets : InStream) (sent : List (List UInt8)) (s : Server E S),
      inv sent s →
      Ensures (feedCommands t clientTime environment fuel round octets sent s)
        (fun r => inv r.2.1 r.2.2) fault := by
  induction fuel with
  | zero =>
    intro round octets sent s hs
    -- The bound is used up: the loop is done, or the model says that it diverged.
    cases octets with
    | nil => exact hs
    | cons octet octets => exact hdiverged
  | succ fuel ih =>
    intro round octets sent s hs
    by_cases hoctets : octets = []
    · rw [hoctets, feedCommands_nil]
      exact hs
    obtain ⟨cmd, inStream, hread⟩ := exists_readsCommand (E := E) hoctets environment round
    by_cases hcmd : cmd = E.NimbleSerializeCmdClientOutBlobStream
    · have hs1 := hblob round inStream sent s hs
      rcases hhandler : nimbleServerReqBlobStream s t inStream clientTime
        (environment.now round) with ⟨err, rest, blobsSent, s1⟩
      rw [hhandler] at hs1
      rw [feedCommands_blobStream hread hcmd hhandler]
      split
      · -- The source uses `continue` here, so there is no reply to check.
        exact hs1
      · exact ih _ _ _ _ hs1
    · by_cases hheader : (transportConnectionWriteHeader (s.connection t) (replyOutStream E)
          clientTime).1 < 0
      · rw [feedCommands_noHeader hread hcmd hheader]
        exact hs
      · have hwrites : WritesHeader s t clientTime _ := ⟨Int.not_lt.mp hheader, rfl⟩
        rw [feedCommands_command hread hcmd hwrites]
        exact (hcommand round cmd inStream sent s _ hs hwrites).bind fun _ hr =>
          afterCommand_ensures inv (ih (round + 1)) hr

end FeedCommands

/-! ### Runs of a datagram -/

/-- A run of datagram operations that are enabled. -/
abbrev DatagramRun (start s : Server E S) : Prop :=
  Reaches Server.step (fun s op => op.IsDatagram ∧ s.Enabled op) start s

/-- A run in the middle of a datagram on the connection. -/
structure Handled (start : Server E S) (t : ConnectionPtr) (s : Server E S) : Prop where
  run : DatagramRun start s
  serving : s.Serving t

namespace Handled

variable {start s : Server E S} {t : ConnectionPtr}

/-- One more operation. -/
theorem step (h : Handled start t s) (op : Op S) (hop : op.IsDatagram)
    (henabled : s.Enabled op) :
    Ensures (s.step op) (Handled start t) (fun _ => True) := by
  have hserving := serving_step h.serving hop
  -- An operation that stops the server ends the run, and nothing is claimed about it.
  cases hs' : s.step op with
  | error fault => trivial
  | ok s' => exact ⟨.tail h.run ⟨hop, henabled⟩ hs', hserving.of_ok hs'⟩

/-- The compose loop is a sequence of rounds, each of them entered when a step is due. -/
theorem composeRounds (fuel written : Nat) (s : Server E S) (h : Handled start t s) :
    Ensures (NimbleServer.composeRounds fuel written s) (fun r => Handled start t r.2)
      (fun _ => True) := by
  refine composeRounds_ensures (Handled start t) trivial (fun _ _ hs => hs) ?_ fuel written s h
  intro s hs hadvance
  have hround : Ensures (composeRound s) (fun r => Handled start t r.2) (fun _ => True) :=
    (hs.step .composeRound trivial hadvance).of_map
  exact hround.mono (fun _ hr => ⟨hr, fun _ _ => hr⟩) fun _ hf => hf

/-- A GameStep command stores steps and then composes. -/
theorem reqGameStep (h : Handled start t s) (inStream : InStream) (outStream : OutStream)
    (uninitialized : Uninitialized S) :
    Ensures (nimbleServerReqGameStep s t inStream outStream uninitialized)
      (fun r => Handled start t r.2.2.2) (fun _ => True) := by
  have hread : Handled start t (readIncomingSteps s t inStream uninitialized).2.2 :=
    h.step (.incomingSteps t inStream uninitialized) trivial h.serving
  have hcompose : Ensures (readIncomingStepsAndCreateAuthoritativeSteps s t inStream
      uninitialized) (fun r => Handled start t r.2.2) (fun _ => True) :=
    readIncomingStepsAndCreateAuthoritativeSteps_ensures hread
      fun s1 hs1 => composeRounds _ 0 s1 hs1
  unfold nimbleServerReqGameStep
  refine hcompose.bind ?_
  -- What is left is the reply, which does not touch the server.
  rintro ⟨result, rest, s1⟩ hs1
  cases result with
  | error code => exact hs1
  | ok waitingFor => exact hs1

/-- A JoinGame command whose request can be read is a join. -/
theorem reqGameJoin (h : Handled start t s) (inStream : InStream) (outStream : OutStream)
    (uninitialized : Uninitialized S) :
    Ensures (nimbleServerReqGameJoin s t inStream outStream uninitialized)
      (fun r => Handled start t r.2.2.2) (fun _ => True) := by
  unfold nimbleServerReqGameJoin
  split
  · exact h
  · rename_i request consumed _
    have hjoin : Ensures (joinGame s t request uninitialized) (fun r => Handled start t r.2)
        (fun _ => True) :=
      (h.step (.join t request uninitialized) trivial h.serving).of_map
    refine hjoin.bind ?_
    rintro ⟨result, s1⟩ hs1
    cases result with
    | error code => exact hs1
    | ok p => exact hs1

/-- A Connect command whose request can be read is a connect request. -/
theorem reqConnect (h : Handled start t s) (inStream : InStream) (outStream : OutStream) :
    Ensures (nimbleServerReqConnect s (UInt8.ofNat t.val) inStream outStream)
      (fun r => Handled start t r.2.2.2) (fun _ => True) := by
  unfold nimbleServerReqConnect
  split
  · exact h
  · rename_i request consumed _
    have hconnect : Ensures (acceptConnectRequest s (UInt8.ofNat t.val) request)
        (fun r => Handled start t r.2) (fun _ => True) :=
      (h.step (.connect t request) trivial h.serving).of_map
    refine hconnect.bind ?_
    rintro ⟨result, s1⟩ hs1
    cases result with
    | error code => exact hs1
    | ok c => exact hs1

/-- The `switch` on the command. -/
theorem handleCommand (h : Handled start t s) (cmd : UInt8) (inStream : InStream)
    (outStream : OutStream) (clientTime : UInt16) (environment : Environment S) (round : Nat) :
    Ensures (NimbleServer.handleCommand s t cmd inStream outStream clientTime environment round)
      (fun r => Handled start t r.2) (fun _ => True) := by
  have hdownload : Ensures (nimbleServerReqDownloadGameState s t inStream clientTime
      (environment.uninitialized round) (environment.serializedGameState round)
      (environment.now round)) (fun r => Handled start t r.2.2.2) (fun _ => True) :=
    (h.step (.downloadGameState t inStream clientTime _ _ _) trivial h.serving).of_map
  exact handleCommand_ensures (h.reqConnect inStream outStream)
    (h.reqGameStep inStream outStream _) (h.reqGameJoin inStream outStream _) hdownload h cmd

/-- The header of a reply is committed. -/
theorem commitHeader (h : Handled start t s) :
    Handled start t (s.setConnection t (transportConnectionCommitHeader (s.connection t))) :=
  h.step (.commitHeader t) trivial h.serving

/-- A blob stream command is one operation, whatever it contains. -/
theorem reqBlobStream (h : Handled start t s) (inStream : InStream) (clientTime : UInt16)
    (now : Nat) : Handled start t (nimbleServerReqBlobStream s t inStream clientTime now).2.2.2 :=
  h.step (.blobStream t inStream clientTime now) trivial h.serving

/-- The loop over the commands. -/
theorem feedCommands (clientTime : UInt16) (environment : Environment S) (fuel round : Nat)
    (inStream : InStream) (sent : List (List UInt8)) (h : Handled start t s) :
    Ensures (NimbleServer.feedCommands t clientTime environment fuel round inStream sent s)
      (fun r => Handled start t r.2.2) (fun _ => True) := by
  refine feedCommands_ensures (fun _ s => Handled start t s) trivial ?_ ?_ fuel round inStream
    sent s h
  · intro round inStream sent s hs
    exact hs.reqBlobStream inStream clientTime (environment.now round)
  · intro round cmd inStream sent s outStream hs _
    refine (hs.handleCommand cmd inStream outStream clientTime environment round).mono ?_
      fun _ h => h
    rintro ⟨_ | ⟨code, rest, reply, handlerSent⟩, s1⟩ hs1
    · exact hs1
    · exact ⟨hs1, fun _ _ => hs1.commitHeader⟩

end Handled

/-! ### Datagrams -/

/-- A datagram on a connection that carries its own index is taken note of. -/
theorem Handled.received (s : Server E S) {transportIndex : UInt8}
    (hlt : transportIndex.toNat < NIMBLE_NIMBLE_SERVER_MAX_TRANSPORT_CONNECTIONS)
    (hindex : ((receiveOnConnection s ⟨transportIndex.toNat, hlt⟩).connection
      ⟨transportIndex.toNat, hlt⟩).transportIndex = transportIndex) (data : List UInt8) :
    Handled s ⟨transportIndex.toNat, hlt⟩
      (receiveOrdered (receiveOnConnection s ⟨transportIndex.toNat, hlt⟩)
        ⟨transportIndex.toNat, hlt⟩ data) := by
  have hreceive : DatagramRun s (receiveOnConnection s ⟨transportIndex.toNat, hlt⟩) :=
    .single (l := .receive ⟨transportIndex.toNat, hlt⟩) ⟨trivial, trivial⟩ rfl
  have hserving : (receiveOnConnection s ⟨transportIndex.toNat, hlt⟩).Serving
      ⟨transportIndex.toNat, hlt⟩ := by
    refine ⟨receiveOnConnection_isUsed s _, ?_⟩
    rw [UInt8.ofNat_toNat]
    exact hindex
  exact (Handled.mk hreceive hserving).step (.ordered _ data) trivial hserving

/-- Whatever a datagram contains, feeding it is a run of enabled datagram operations. -/
theorem nimbleServerFeed_reaches (s : Server E S) (transportIndex : UInt8) (data : List UInt8)
    (environment : Environment S) :
    Ensures (nimbleServerFeed s transportIndex data environment)
      (fun r => DatagramRun s r.2.2) (fun _ => True) := by
  unfold nimbleServerFeed
  split
  · rename_i hlt
    dsimp only
    split
    · -- A connection that carries another index is refused after it was taken into use.
      exact .single (l := .receive ⟨transportIndex.toNat, hlt⟩) ⟨trivial, trivial⟩ rfl
    · rename_i hindex
      have hordered := Handled.received s hlt (not_not.mp hindex) data
      split
      · exact hordered.run
      · exact (Handled.feedCommands _ environment _ 0 _ [] hordered).mono
          (fun r hr => hr.run) (fun _ _ => trivial)
  · exact .refl

end NimbleServer
