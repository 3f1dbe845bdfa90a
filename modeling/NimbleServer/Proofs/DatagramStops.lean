import NimbleServer.Proofs.CommandLoop
import NimbleServer.Proofs.Stops

/-!
# `NimbleServer.Proofs.DatagramStops`: which datagrams stop the server

`Stops` says which operation of a running game stops the server. A datagram is a sequence of
commands, and each of them is handled on what the ones before it left. So a datagram stops the
server exactly if the loop of `nimbleServerFeed` comes to a command that does
(`feed_stops_at_command`). `GoesOn` is one round of the loop: the command was read from the
datagram, handled and answered, and the next one is due. `CommandStops` says what stops at a
command, in terms of the request that is decoded from the octets after it:

* a connect request, a join or a download is one of `Stops`,
* a GameStep command stores its steps and composes, until the buffer of a participant cannot
  be read.
-/

set_option autoImplicit false

namespace NimbleServer

open NimbleServer.Lib

variable {E : External} {S : Setup}

/-! ### The rounds of composing -/

/-- A round of composing that was due and wrote its step. -/
def ComposesTo (s s' : Server E S) : Prop :=
  shouldAdvanceAuthoritative s.game.participants s.game.authoritativeSteps = true ∧
    composeRound s = .ok (none, s')

/-- A run of rounds that ends in one that stops, taken apart at its first round: that is the
one, or it wrote a step and the others follow. -/
theorem composesTo_stops_iff {s : Server E S} {fault : Fault} :
    (∃ s', Relation.ReflTransGen ComposesTo s s' ∧ s'.Enabled .composeRound ∧
        composeRound s' = .error fault) ↔
      s.Enabled .composeRound ∧ (composeRound s = .error fault ∨
        ∃ s1, composeRound s = .ok (none, s1) ∧
          ∃ s', Relation.ReflTransGen ComposesTo s1 s' ∧ s'.Enabled .composeRound ∧
            composeRound s' = .error fault) := by
  constructor
  · rintro ⟨s', hrounds, hdue, hstops⟩
    rcases hrounds.cases_head with rfl | ⟨s1, ⟨hadvance, hwrites⟩, hrest⟩
    · exact ⟨hdue, .inl hstops⟩
    · exact ⟨hadvance, .inr ⟨s1, hwrites, s', hrest, hdue, hstops⟩⟩
  · rintro ⟨hadvance, hstops | ⟨s1, hwrites, s', hrest, hdue, hstops⟩⟩
    · exact ⟨s, .refl, hadvance, hstops⟩
    · exact ⟨s', .head ⟨hadvance, hwrites⟩ hrest, hdue, hstops⟩

/-- The compose loop stops exactly where a round that is due stops, after rounds that wrote
their steps. Induction on the bound of the loop, which is never reached. -/
theorem composeRounds_error_iff [CountedSteps E] {fault : Fault} (fuel : Nat) :
    ∀ (written : Nat) (s : Server E S),
      E.NBS_WINDOW_SIZE / 2 - authoritativeCount s ≤ fuel →
      (composeRounds fuel written s = .error fault ↔
        ∃ s', Relation.ReflTransGen ComposesTo s s' ∧ s'.Enabled .composeRound ∧
          composeRound s' = .error fault) := by
  induction fuel with
  | zero =>
    intro written s hfuel
    rw [composesTo_stops_iff]
    unfold composeRounds
    split
    · rename_i hadvance
      have := count_lt_of_shouldAdvance hadvance
      omega
    · rename_i hend
      exact iff_of_false (by rintro ⟨⟩) fun h => hend h.1
  | succ fuel ih =>
    intro written s hfuel
    rw [composesTo_stops_iff]
    unfold composeRounds
    split
    · rename_i hadvance
      have hcount := composeRound_count s
      refine Iff.trans ?_ (and_iff_right hadvance).symm
      cases hround : composeRound s with
      | error fault' =>
        constructor
        · rintro ⟨⟩
          exact .inl rfl
        · rintro (⟨⟨⟩⟩ | ⟨s1, ⟨⟩, -⟩)
          rfl
      | ok r =>
        obtain ⟨result, s1⟩ := r
        rw [hround] at hcount
        cases result with
        -- A round that fails ends the loop, which then returns.
        | some code =>
          refine iff_of_false (by rintro ⟨⟩) ?_
          rintro (⟨⟨⟩⟩ | ⟨s2, ⟨⟩, -⟩)
        | none =>
          -- A step was written, so one round less is left.
          have hone : authoritativeCount s1 = authoritativeCount s + 1 := hcount.2 rfl
          refine (ih (written + 1) s1 (by omega)).trans ⟨fun h => .inr ⟨s1, rfl, h⟩, ?_⟩
          rintro (⟨⟨⟩⟩ | ⟨s2, ⟨⟩, h⟩)
          exact h
    · -- Where no step is due, the loop returns and no round follows.
      rename_i hend
      exact iff_of_false (by rintro ⟨⟩) fun h => hend h.1

/-- The rounds of composing are part of the run of a datagram. -/
theorem Handled.composesTo {start s s' : Server E S} {t : ConnectionPtr}
    (h : Handled start t s) (hrounds : Relation.ReflTransGen ComposesTo s s') :
    Handled start t s' := by
  induction hrounds with
  | refl => exact h
  | tail _ hround ih =>
    have hstep := ih.step .composeRound trivial hround.1
    exact hstep.of_map.of_ok hround.2

/-! ### What stops at a command -/

/-- Handling the command stops the server. The request is what the octets after the command
are decoded to. -/
inductive CommandStops (s : Server E S) (t : ConnectionPtr) (cmd : UInt8) (inStream : InStream)
    (clientTime : UInt16) (environment : Environment S) (round : Nat) : Fault → Prop
  | connect (request : ConnectRequest) (consumed : Nat) (fault : Fault)
      (hcmd : cmd = E.NimbleSerializeCmdConnectRequest)
      (hrequest : E.nimbleSerializeServerInConnectRequest inStream = .ok (request, consumed))
      (hstops : Stops s (.connect t request) fault) :
      CommandStops s t cmd inStream clientTime environment round fault
  -- The steps were stored and some rounds composed, and then a round stops.
  | gameStep (waitingFor : StepId × UInt64) (rest : InStream) (stored composed : Server E S)
      (hconnect : cmd ≠ E.NimbleSerializeCmdConnectRequest)
      (hcmd : cmd = E.NimbleSerializeCmdGameStep)
      (hstored : readIncomingSteps s t inStream (environment.uninitialized round)
        = (.ok waitingFor, rest, stored))
      (hfrozen : stored.game.debugIsFrozen = false)
      (hrounds : Relation.ReflTransGen ComposesTo stored composed)
      (hdue : composed.Enabled .composeRound)
      (hround : composeRound composed = .error .stepsCorrupt) (hbuffer : BufferCorrupt composed) :
      CommandStops s t cmd inStream clientTime environment round .stepsCorrupt
  | join (request : JoinGameRequest) (consumed : Nat) (fault : Fault)
      (hconnect : cmd ≠ E.NimbleSerializeCmdConnectRequest)
      (hstep : cmd ≠ E.NimbleSerializeCmdGameStep)
      (hcmd : cmd = E.NimbleSerializeCmdJoinGameRequest)
      (hrequest : E.nimbleSerializeServerInJoinGameRequest inStream = .ok (request, consumed))
      (hstops : Stops s (.join t request (environment.uninitialized round)) fault) :
      CommandStops s t cmd inStream clientTime environment round fault
  | download (fault : Fault) (hconnect : cmd ≠ E.NimbleSerializeCmdConnectRequest)
      (hstep : cmd ≠ E.NimbleSerializeCmdGameStep)
      (hjoin : cmd ≠ E.NimbleSerializeCmdJoinGameRequest)
      (hcmd : cmd = E.NimbleSerializeCmdDownloadGameStateRequest)
      (hstops : Stops s (.downloadGameState t inStream clientTime
        (environment.uninitialized round) (environment.serializedGameState round)
        (environment.now round)) fault) :
      CommandStops s t cmd inStream clientTime environment round fault

section Handlers

variable {s : Server E S} {fault : Fault}

/-- A connect request stops where it is accepted, -/
theorem reqConnect_error_iff (s : Server E S) (transportIndex : UInt8) (inStream : InStream)
    (outStream : OutStream) :
    nimbleServerReqConnect s transportIndex inStream outStream = .error fault ↔
      ∃ request consumed,
        E.nimbleSerializeServerInConnectRequest inStream = .ok (request, consumed) ∧
        acceptConnectRequest s transportIndex request = .error fault := by
  unfold nimbleServerReqConnect
  cases hrequest : E.nimbleSerializeServerInConnectRequest inStream with
  | error code =>
    refine iff_of_false (by rintro ⟨⟩) ?_
    rintro ⟨request, consumed, ⟨⟩, -⟩
  | ok r =>
    obtain ⟨request, consumed⟩ := r
    refine (bind_eq_error ?_).trans ⟨fun h => ⟨request, consumed, rfl, h⟩, ?_⟩
    · -- Writing the response returns, whatever comes of it.
      rintro ⟨result, s1⟩
      cases result with
      | error code => exact ⟨_, rfl⟩
      | ok c => exact ⟨_, rfl⟩
    · rintro ⟨request', consumed', heq, h⟩
      cases heq
      exact h

/-- and a join request where the game is joined. -/
theorem reqGameJoin_error_iff (s : Server E S) (t : ConnectionPtr) (inStream : InStream)
    (outStream : OutStream) (uninitialized : Uninitialized S) :
    nimbleServerReqGameJoin s t inStream outStream uninitialized = .error fault ↔
      ∃ request consumed,
        E.nimbleSerializeServerInJoinGameRequest inStream = .ok (request, consumed) ∧
        joinGame s t request uninitialized = .error fault := by
  unfold nimbleServerReqGameJoin
  cases hrequest : E.nimbleSerializeServerInJoinGameRequest inStream with
  | error code =>
    refine iff_of_false (by rintro ⟨⟩) ?_
    rintro ⟨request, consumed, ⟨⟩, -⟩
  | ok r =>
    obtain ⟨request, consumed⟩ := r
    refine (bind_eq_error ?_).trans ⟨fun h => ⟨request, consumed, rfl, h⟩, ?_⟩
    · rintro ⟨result, s1⟩
      cases result with
      | error code => exact ⟨_, rfl⟩
      | ok p => exact ⟨_, rfl⟩
    · rintro ⟨request', consumed', heq, h⟩
      cases heq
      exact h

/-- A GameStep command composes only when its steps could be stored and the server is not
frozen. -/
theorem reqGameStep_error_iff (s : Server E S) (t : ConnectionPtr) (inStream : InStream)
    (outStream : OutStream) (uninitialized : Uninitialized S) :
    nimbleServerReqGameStep s t inStream outStream uninitialized = .error fault ↔
      ∃ waitingFor rest stored,
        readIncomingSteps s t inStream uninitialized = (.ok waitingFor, rest, stored) ∧
        stored.game.debugIsFrozen = false ∧
        nimbleServerComposeAuthoritativeSteps stored = .error fault := by
  have hreply : nimbleServerReqGameStep s t inStream outStream uninitialized = .error fault ↔
      readIncomingStepsAndCreateAuthoritativeSteps s t inStream uninitialized
        = .error fault := by
    refine bind_eq_error ?_
    rintro ⟨result, rest, s1⟩
    cases result with
    | error code => exact ⟨_, rfl⟩
    | ok waitingFor => exact ⟨_, rfl⟩
  rw [hreply]
  unfold readIncomingStepsAndCreateAuthoritativeSteps
  rcases hread : readIncomingSteps s t inStream uninitialized with ⟨result, rest, stored⟩
  cases result with
  | error code =>
    refine iff_of_false (by rintro ⟨⟩) ?_
    rintro ⟨waitingFor, rest', stored', ⟨⟩, -⟩
  | ok waitingFor =>
    dsimp only
    -- A frozen game only stores.
    by_cases hfrozen : stored.game.debugIsFrozen = true
    · rw [if_pos hfrozen]
      refine iff_of_false (by rintro ⟨⟩) ?_
      rintro ⟨waitingFor', rest', stored', heq, hfrozen', -⟩
      cases heq
      cases hfrozen.symm.trans hfrozen'
    · rw [if_neg hfrozen]
      refine (bind_eq_error ?_).trans
        ⟨fun h => ⟨waitingFor, rest, stored, rfl, Bool.eq_false_iff.mpr hfrozen, h⟩, ?_⟩
      · rintro ⟨advanceCount, s2⟩
        dsimp only
        split
        · exact ⟨_, rfl⟩
        · exact ⟨_, rfl⟩
      · rintro ⟨waitingFor', rest', stored', heq, -, h⟩
        cases heq
        exact h

end Handlers

section Datagram

variable [CountedSteps E] [LawfulOutStreams E] {start s : Server E S} {t : ConnectionPtr}

/-- In the middle of a datagram, with everything in order from its start on. -/
structure HandledInOrder (start : Server E S) (t : ConnectionPtr) (s : Server E S) : Prop where
  handled : Handled start t s
  inOrder : ∀ s, DatagramRun start s → InOrder s

omit [CountedSteps E] [LawfulOutStreams E] in
/-- An operation of a command stops exactly when it is one of `Stops`. -/
theorem HandledInOrder.stops_iff (h : HandledInOrder start t s) (op : Op S)
    (hop : op.IsDatagram) (hround : op ≠ .composeRound) {α : Type} {x : Result α}
    {f : α → Server E S} (hstep : s.step op = x.map f) (fault : Fault) :
    x = .error fault ↔ Stops s op fault := by
  rw [← (h.inOrder s h.handled.run).step_stops_iff (.inl hop) hround fault, hstep, map_eq_error]

/-- Composing in a datagram stops only in a round that cannot read a buffer. -/
theorem HandledInOrder.compose_error_iff (h : HandledInOrder start t s) (fault : Fault) :
    nimbleServerComposeAuthoritativeSteps s = .error fault ↔
      ∃ s', Relation.ReflTransGen ComposesTo s s' ∧ s'.Enabled .composeRound ∧
        composeRound s' = .error fault ∧ fault = .stepsCorrupt ∧ BufferCorrupt s' := by
  refine (composeRounds_error_iff _ 0 s (Nat.sub_le _ _)).trans ⟨?_, ?_⟩
  · -- The rounds are operations of a run, so everything is in order where the last one stops.
    rintro ⟨s', hrounds, hdue, hround⟩
    have hs' := h.inOrder s' (h.handled.composesTo hrounds).run
    exact ⟨s', hrounds, hdue, hround, hs'.composeRound_fault.of_error hround⟩
  · rintro ⟨s', hrounds, hdue, hround, -⟩
    exact ⟨s', hrounds, hdue, hround⟩

omit [CountedSteps E] [LawfulOutStreams E] in
/-- A connect request stops exactly when what is decoded is one of `Stops`, -/
theorem HandledInOrder.connect_error_iff (h : HandledInOrder start t s) (inStream : InStream)
    (outStream : OutStream) (fault : Fault) :
    nimbleServerReqConnect s (UInt8.ofNat t.val) inStream outStream = .error fault ↔
      ∃ request consumed,
        E.nimbleSerializeServerInConnectRequest inStream = .ok (request, consumed) ∧
        Stops s (.connect t request) fault := by
  refine (reqConnect_error_iff s _ inStream outStream).trans (exists₂_congr fun request _ => ?_)
  exact and_congr_right fun _ => h.stops_iff (.connect t request) trivial (by rintro ⟨⟩) rfl fault

omit [CountedSteps E] [LawfulOutStreams E] in
/-- and so does a join request. -/
theorem HandledInOrder.join_error_iff (h : HandledInOrder start t s) (inStream : InStream)
    (outStream : OutStream) (uninitialized : Uninitialized S) (fault : Fault) :
    nimbleServerReqGameJoin s t inStream outStream uninitialized = .error fault ↔
      ∃ request consumed,
        E.nimbleSerializeServerInJoinGameRequest inStream = .ok (request, consumed) ∧
        Stops s (.join t request uninitialized) fault := by
  refine (reqGameJoin_error_iff s t inStream outStream uninitialized).trans
    (exists₂_congr fun request _ => ?_)
  exact and_congr_right fun _ =>
    h.stops_iff (.join t request uninitialized) trivial (by rintro ⟨⟩) rfl fault

/-- A GameStep command stops exactly when a round after the storing cannot read a buffer. -/
theorem HandledInOrder.gameStep_error_iff (h : HandledInOrder start t s) (inStream : InStream)
    (outStream : OutStream) (uninitialized : Uninitialized S) (fault : Fault) :
    nimbleServerReqGameStep s t inStream outStream uninitialized = .error fault ↔
      ∃ waitingFor rest stored,
        readIncomingSteps s t inStream uninitialized = (.ok waitingFor, rest, stored) ∧
        stored.game.debugIsFrozen = false ∧
        ∃ composed, Relation.ReflTransGen ComposesTo stored composed ∧
          composed.Enabled .composeRound ∧ composeRound composed = .error fault ∧
          fault = .stepsCorrupt ∧ BufferCorrupt composed := by
  refine (reqGameStep_error_iff s t inStream outStream uninitialized).trans ?_
  refine exists₃_congr fun waitingFor rest stored => and_congr_right fun hstored => ?_
  -- Composing starts from the state that storing left.
  have hhandled : Handled start t stored := by
    have hread := h.handled.step (.incomingSteps t inStream uninitialized) trivial
      h.handled.serving
    exact (congrArg (fun r => r.2.2) hstored : _ = stored) ▸ hread
  exact and_congr_right fun _ => (HandledInOrder.mk hhandled h.inOrder).compose_error_iff fault

/-- The `switch` stops exactly at the commands of `CommandStops`. -/
theorem HandledInOrder.handleCommand_error_iff (h : HandledInOrder start t s) (cmd : UInt8)
    (inStream : InStream) (outStream : OutStream) (clientTime : UInt16)
    (environment : Environment S) (round : Nat) (fault : Fault) :
    handleCommand s t cmd inStream outStream clientTime environment round = .error fault ↔
      CommandStops s t cmd inStream clientTime environment round fault := by
  unfold handleCommand
  -- The constructors say which command it is, so of each command only its own one is left.
  by_cases hconnect : cmd = E.NimbleSerializeCmdConnectRequest
  · rw [if_pos hconnect]
    refine (bind_eq_error fun _ => ⟨_, rfl⟩).trans ((h.connect_error_iff _ _ fault).trans ⟨?_, ?_⟩)
    · rintro ⟨request, consumed, hrequest, hstops⟩
      exact .connect request consumed fault hconnect hrequest hstops
    · intro hstops
      cases hstops with
      | connect request consumed _ _ hrequest hstops =>
        exact ⟨request, consumed, hrequest, hstops⟩
      | gameStep _ _ _ _ hnot => exact absurd hconnect hnot
      | join _ _ _ hnot => exact absurd hconnect hnot
      | download _ hnot => exact absurd hconnect hnot
  rw [if_neg hconnect]
  by_cases hstep : cmd = E.NimbleSerializeCmdGameStep
  · rw [if_pos hstep]
    refine (bind_eq_error fun _ => ⟨_, rfl⟩).trans
      ((h.gameStep_error_iff _ _ _ fault).trans ⟨?_, ?_⟩)
    · rintro ⟨waitingFor, rest, stored, hstored, hfrozen, composed, hrounds, hdue, hround, rfl,
        hbuffer⟩
      exact .gameStep waitingFor rest stored composed hconnect hstep hstored hfrozen hrounds hdue
        hround hbuffer
    · intro hstops
      cases hstops with
      | connect _ _ _ hcmd => exact absurd hcmd hconnect
      | gameStep waitingFor rest stored composed _ _ hstored hfrozen hrounds hdue hround
          hbuffer =>
        exact ⟨waitingFor, rest, stored, hstored, hfrozen, composed, hrounds, hdue, hround, rfl,
          hbuffer⟩
      | join _ _ _ _ hnot => exact absurd hstep hnot
      | download _ _ hnot => exact absurd hstep hnot
  rw [if_neg hstep]
  by_cases hjoin : cmd = E.NimbleSerializeCmdJoinGameRequest
  · rw [if_pos hjoin]
    refine (bind_eq_error fun _ => ⟨_, rfl⟩).trans ((h.join_error_iff _ _ _ fault).trans ⟨?_, ?_⟩)
    · rintro ⟨request, consumed, hrequest, hstops⟩
      exact .join request consumed fault hconnect hstep hjoin hrequest hstops
    · intro hstops
      cases hstops with
      | connect _ _ _ hcmd => exact absurd hcmd hconnect
      | gameStep _ _ _ _ _ hcmd => exact absurd hcmd hstep
      | join request consumed _ _ _ _ hrequest hstops =>
        exact ⟨request, consumed, hrequest, hstops⟩
      | download _ _ _ hnot => exact absurd hjoin hnot
  rw [if_neg hjoin]
  by_cases hdownload : cmd = E.NimbleSerializeCmdDownloadGameStateRequest
  · rw [if_pos hdownload]
    have hiff := h.stops_iff (.downloadGameState t inStream clientTime
      (environment.uninitialized round) (environment.serializedGameState round)
      (environment.now round)) trivial (by rintro ⟨⟩) rfl fault
    refine (bind_eq_error fun _ => ⟨_, rfl⟩).trans (hiff.trans ⟨?_, ?_⟩)
    · exact .download fault hconnect hstep hjoin hdownload
    · intro hstops
      cases hstops with
      | connect _ _ _ hcmd => exact absurd hcmd hconnect
      | gameStep _ _ _ _ _ hcmd => exact absurd hcmd hstep
      | join _ _ _ _ _ hcmd => exact absurd hcmd hjoin
      | download _ _ _ _ _ hstops => exact hstops
  · -- A command of another kind ends the datagram.
    rw [if_neg hdownload]
    refine iff_of_false (by rintro ⟨⟩) fun hstops => ?_
    cases hstops with
    | connect _ _ _ hcmd => exact hconnect hcmd
    | gameStep _ _ _ _ _ hcmd => exact hstep hcmd
    | join _ _ _ _ _ hcmd => exact hjoin hcmd
    | download _ _ _ _ hcmd => exact hdownload hcmd

end Datagram

/-! ### The loop over the commands -/

/-- Where the loop is: the round, the octets that are left of the datagram, and the server. -/
structure LoopState (E : External) (S : Setup) where
  round : Nat
  octets : InStream
  server : Server E S

/-- A round of the loop that does not end the datagram: the command that is read is handled,
what it sends passes the checks, and the loop goes on with what is left. -/
inductive GoesOn (t : ConnectionPtr) (clientTime : UInt16) (environment : Environment S) :
    LoopState E S → LoopState E S → Prop
  | blobStream {state : LoopState E S} {cmd : UInt8} {inStream rest : InStream} {err : Int}
      {sent : List (List UInt8)} {s1 : Server E S}
      (hread : ReadsCommand E environment state.round state.octets cmd inStream)
      (hcmd : cmd = E.NimbleSerializeCmdClientOutBlobStream)
      (hhandler : nimbleServerReqBlobStream state.server t inStream clientTime
        (environment.now state.round) = (err, rest, sent, s1)) (herr : 0 ≤ err) :
      GoesOn t clientTime environment state ⟨state.round + 1, rest, s1⟩
  | reply {state : LoopState E S} {cmd : UInt8} {inStream rest : InStream}
      {outStream reply : OutStream} {code : Int} {sent : List (List UInt8)} {s1 : Server E S}
      (hread : ReadsCommand E environment state.round state.octets cmd inStream)
      (hblob : cmd ≠ E.NimbleSerializeCmdClientOutBlobStream)
      (hheader : WritesHeader state.server t clientTime outStream)
      (hhandler : handleCommand state.server t cmd inStream outStream clientTime environment
        state.round = .ok (some (code, rest, reply, sent), s1))
      (hsent : ¬(code < 0 ∨ reply.octets.length ≤ 4 ∨
        reply.octets.length > E.datagramTransportMaxSize)) :
      GoesOn t clientTime environment state ⟨state.round + 1, rest,
        s1.setConnection t (transportConnectionCommitHeader (s1.connection t))⟩

/-- The command that is due stops the server. -/
def StopsAt (t : ConnectionPtr) (clientTime : UInt16) (environment : Environment S)
    (state : LoopState E S) (fault : Fault) : Prop :=
  ∃ cmd inStream, ReadsCommand E environment state.round state.octets cmd inStream ∧
    cmd ≠ E.NimbleSerializeCmdClientOutBlobStream ∧
    0 ≤ (transportConnectionWriteHeader (state.server.connection t) (replyOutStream E)
      clientTime).1 ∧
    CommandStops state.server t cmd inStream clientTime environment state.round fault

section Loop

variable {start : Server E S} {t : ConnectionPtr} {clientTime : UInt16}
  {environment : Environment S} {fault : Fault}

/-- The octets that are left become fewer. -/
theorem GoesOn.length_lt [LawfulInStreams E] {state next : LoopState E S}
    (h : GoesOn t clientTime environment state next) :
    next.octets.length < state.octets.length := by
  cases h with
  | @blobStream cmd inStream rest err sent s1 hread hcmd hhandler herr =>
    -- The command itself is an octet, and the handler does not give octets back.
    have hlength := length_reqBlobStream state.server t inStream clientTime
      (environment.now state.round)
    rw [hhandler] at hlength
    exact Nat.lt_of_le_of_lt hlength hread.length_lt
  | @reply cmd inStream rest outStream reply code sent s1 hread hblob hheader hhandler hsent =>
    have hlength := (length_handleCommand state.server t cmd inStream outStream clientTime
      environment state.round).of_ok hhandler _ _ _ _ rfl
    exact Nat.lt_of_le_of_lt hlength hread.length_lt

/-- A round of the loop is part of the run of the datagram. -/
theorem GoesOn.handled {state next : LoopState E S}
    (h : GoesOn t clientTime environment state next)
    (hstate : HandledInOrder start t state.server) : HandledInOrder start t next.server := by
  refine ⟨?_, hstate.inOrder⟩
  cases h with
  | @blobStream cmd inStream rest err sent s1 hread hcmd hhandler herr =>
    have hs1 := hstate.handled.reqBlobStream inStream clientTime (environment.now state.round)
    rw [hhandler] at hs1
    exact hs1
  | @reply cmd inStream rest outStream reply code sent s1 hread hblob hheader hhandler hsent =>
    have hs1 := (hstate.handled.handleCommand cmd inStream outStream clientTime environment
      state.round).of_ok hhandler
    exact Handled.commitHeader hs1

/-- One round of the loop goes on in one way. -/
theorem GoesOn.feedCommands_eq {state next : LoopState E S}
    (h : GoesOn t clientTime environment state next) (fuel : Nat) (sent : List (List UInt8)) :
    ∃ sent', feedCommands t clientTime environment (fuel + 1) state.round state.octets sent
        state.server
      = feedCommands t clientTime environment fuel next.round next.octets sent' next.server := by
  cases h with
  | @blobStream cmd inStream rest err more s1 hread hcmd hhandler herr =>
    refine ⟨sent ++ more, ?_⟩
    rw [feedCommands_blobStream hread hcmd hhandler, if_neg (Int.not_lt.mpr herr)]
  | @reply cmd inStream rest outStream reply code more s1 hread hblob hheader hhandler hsent =>
    refine ⟨sent ++ more ++ [reply.octets], ?_⟩
    rw [feedCommands_command hread hblob hheader, hhandler]
    exact afterCommand_sent hsent

section Stopping

variable [CountedSteps E] [LawfulOutStreams E] {state : LoopState E S}
  (hstate : HandledInOrder start t state.server)
include hstate

/-- The loop stops at a command that does. -/
theorem StopsAt.feedCommands_eq (h : StopsAt t clientTime environment state fault) (fuel : Nat)
    (sent : List (List UInt8)) :
    feedCommands t clientTime environment (fuel + 1) state.round state.octets sent state.server
      = .error fault := by
  obtain ⟨cmd, inStream, hread, hblob, hheader, hstops⟩ := h
  obtain ⟨outStream, hwrites⟩ : ∃ outStream, WritesHeader state.server t clientTime outStream :=
    ⟨_, hheader, rfl⟩
  have hhandler := (hstate.handleCommand_error_iff cmd inStream outStream clientTime environment
    state.round fault).mpr hstops
  rw [feedCommands_command hread hblob hwrites, hhandler]
  rfl

/-- A round that does not return stops at its command or goes on. -/
theorem stopsAt_or_goesOn {fuel : Nat} {sent : List (List UInt8)}
    (h : feedCommands t clientTime environment (fuel + 1) state.round state.octets sent
      state.server = .error fault) :
    StopsAt t clientTime environment state fault ∨
      ∃ next, GoesOn t clientTime environment state next := by
  by_cases hoctets : state.octets = []
  · rw [hoctets, feedCommands_nil] at h
    cases h
  obtain ⟨cmd, inStream, hread⟩ := exists_readsCommand (E := E) hoctets environment state.round
  -- Every other way through the round returns a value, which is no fault.
  by_cases hblob : cmd = E.NimbleSerializeCmdClientOutBlobStream
  · rcases hhandler : nimbleServerReqBlobStream state.server t inStream clientTime
      (environment.now state.round) with ⟨err, rest, more, s1⟩
    by_cases herr : err < 0
    · rw [feedCommands_blobStream hread hblob hhandler, if_pos herr] at h
      cases h
    · exact .inr ⟨_, .blobStream hread hblob hhandler (Int.not_lt.mp herr)⟩
  by_cases hheader : (transportConnectionWriteHeader (state.server.connection t)
      (replyOutStream E) clientTime).1 < 0
  · rw [feedCommands_noHeader hread hblob hheader] at h
    cases h
  have hwrites : WritesHeader state.server t clientTime _ := ⟨Int.not_lt.mp hheader, rfl⟩
  rw [feedCommands_command hread hblob hwrites] at h
  cases hhandler : handleCommand state.server t cmd inStream _ clientTime environment
      state.round with
  | error fault' =>
    rw [hhandler] at h
    cases h
    exact .inl ⟨cmd, inStream, hread, hblob, hwrites.ok,
      (hstate.handleCommand_error_iff cmd inStream _ clientTime environment state.round
        fault).mp hhandler⟩
  | ok r =>
    obtain ⟨result, s1⟩ := r
    rw [hhandler] at h
    cases result with
    | none => cases h
    | some r =>
      obtain ⟨code, rest, reply, more⟩ := r
      by_cases hsent : code < 0 ∨ reply.octets.length ≤ 4 ∨
          reply.octets.length > E.datagramTransportMaxSize
      · -- One of the checks of the reply ends the datagram.
        obtain ⟨r, hended⟩ := afterCommand_ended (t := t) (s := s1) hsent
        cases hended.symm.trans h
      · exact .inr ⟨_, .reply hread hblob hwrites hhandler hsent⟩

end Stopping

/-- The loop stops exactly where it comes to a command that does. Induction on the bound of
the loop: every command takes an octet, so the bound is not reached before the end. -/
theorem feedCommands_error_iff [CountedSteps E] [LawfulInStreams E] [LawfulOutStreams E]
    (fuel : Nat) :
    ∀ (state : LoopState E S) (sent : List (List UInt8)),
      HandledInOrder start t state.server → state.octets.length ≤ fuel →
      (feedCommands t clientTime environment fuel state.round state.octets sent state.server
          = .error fault ↔
        ∃ state', Relation.ReflTransGen (GoesOn t clientTime environment) state state' ∧
          StopsAt t clientTime environment state' fault) := by
  induction fuel with
  | zero =>
    intro state sent hstate hfuel
    have hnil : state.octets = [] := List.eq_nil_of_length_eq_zero (Nat.le_zero.mp hfuel)
    rw [hnil, feedCommands_nil]
    refine iff_of_false (by rintro ⟨⟩) ?_
    rintro ⟨state', hrounds, cmd, inStream, hread, -⟩
    rcases hrounds.cases_head with rfl | ⟨next, hnext, -⟩
    · exact hread.nonempty hnil
    · -- No octet is left, so there is no command to go on with.
      have hlt := hnext.length_lt
      omega
  | succ fuel ih =>
    intro state sent hstate hfuel
    -- If this round goes on, the rest of the loop decides, with one octet less at least.
    have hrest : ∀ next, GoesOn t clientTime environment state next →
        (feedCommands t clientTime environment (fuel + 1) state.round state.octets sent
            state.server = .error fault ↔
          ∃ state', Relation.ReflTransGen (GoesOn t clientTime environment) next state' ∧
            StopsAt t clientTime environment state' fault) := by
      intro next hnext
      obtain ⟨sent', heq⟩ := hnext.feedCommands_eq fuel sent
      have hlt := hnext.length_lt
      rw [heq]
      exact ih next sent' (hnext.handled hstate) (by omega)
    constructor
    · intro herror
      rcases stopsAt_or_goesOn hstate herror with hstops | ⟨next, hnext⟩
      · exact ⟨state, .refl, hstops⟩
      · obtain ⟨state', hrounds, hstops⟩ := (hrest next hnext).mp herror
        exact ⟨state', .head hnext hrounds, hstops⟩
    · rintro ⟨state', hrounds, hstops⟩
      rcases hrounds.cases_head with rfl | ⟨next, hnext, hrounds⟩
      · exact hstops.feedCommands_eq hstate fuel sent
      · exact (hrest next hnext).mpr ⟨state', hrounds, hstops⟩

end Loop

/-! ### Datagrams -/

/-- An accepted datagram has come as far as its commands. -/
theorem Accepts.handled {s : Server E S} {transportIndex : UInt8} {t : ConnectionPtr}
    {data : List UInt8} {consumed : Nat} (h : Accepts s transportIndex t data consumed) :
    Handled s t (receiveOrdered (receiveOnConnection s t) t data) := by
  have hlt : transportIndex.toNat < NIMBLE_NIMBLE_SERVER_MAX_TRANSPORT_CONNECTIONS :=
    h.slot ▸ t.isLt
  obtain rfl : ⟨transportIndex.toNat, hlt⟩ = t := Fin.ext h.slot
  exact Handled.received s hlt h.index data

/-- A datagram that is not accepted does not stop the server. -/
theorem exists_accepts_of_error {s : Server E S} {transportIndex : UInt8} {data : List UInt8}
    {environment : Environment S} {fault : Fault}
    (h : nimbleServerFeed s transportIndex data environment = .error fault) :
    ∃ t consumed, Accepts s transportIndex t data consumed := by
  unfold nimbleServerFeed at h
  split at h
  · rename_i hlt
    dsimp only at h
    split at h
    · cases h
    · rename_i hindex
      split at h
      · cases h
      · rename_i consumed hreceived
        exact ⟨⟨transportIndex.toNat, hlt⟩, consumed, rfl, not_not.mp hindex, hreceived⟩
  · cases h

end NimbleServer
