import NimbleServer.Proofs.FailedRounds
import NimbleServer.Proofs.StepRanges

/-!
# `NimbleServer.Proofs.Replicas`: the clients replicate one history

The server composes steps and discards old ones. Any number of clients ask for steps, each
from where it has got to, at any time. This module follows such clients along a run: an
`Audience` is a server with the steps that each client has collected, and an answer extends
what the client that asked has.

The authoritative buffer is a window of the history of composed steps (`ServesHistory`). So
what an answer carries is what was composed, and `replicas_of_one_history` says what follows:
whatever the clients send and in whatever order, each client has a stretch of the one
history, without a gap or a repetition, and two clients have the same octets for the same
step. A round that could not be started does not matter here; a step that the authoritative
buffer refuses does.
-/

set_option autoImplicit false

namespace NimbleServer

open NimbleServer.Lib

variable {E : External} {S : Setup}

/-! ### The buffer is a window of the history -/

/-- The octets of the composed steps, oldest first. -/
def composedOctetsOf (s : Server E S) : List (List UInt8) :=
  (composedSteps s.game.participants.log).map (·.2)

/-- If the operation is a round that composes a step, the authoritative buffer takes it. -/
@[reducible] def AcceptedWhenComposed (s : Server E S) : Op S → Prop
  | .composeRound => ∀ octets ∈ nextOctets s,
      0 ≤ (E.nbsStepsWrite s.game.authoritativeSteps (nextStepId s) octets).1
  | _ => True

/-- The condition can be evaluated for each operation. -/
instance (s : Server E S) (op : Op S) : Decidable (AcceptedWhenComposed s op) :=
  Op.decidableOf (AcceptedWhenComposed s) op

/-- The composed steps have consecutive ids from `first` on, and the authoritative buffer
holds the last of them. Those of `before` are still there. -/
structure ServesHistory (first : Nat) (before s : Server E S) : Prop where
  pool : PoolInvariant s.game.participants
  ids : (composedSteps s.game.participants.log).map (fun step => step.1.toNat)
    = List.range' first (composedSteps s.game.participants.log).length
  serves : Serves first (composedOctetsOf s) (E.expectedReadId s.game.authoritativeSteps).toNat
    (E.storedPayloads s.game.authoritativeSteps)
  grows : composedSteps before.game.participants.log
    <+: composedSteps s.game.participants.log

namespace ServesHistory

variable {first : Nat} {before s s' : Server E S}

/-- It is about the pool, the composed steps and the authoritative buffer. -/
theorem congr (h : ServesHistory first before s) (hpool : PoolInvariant s'.game.participants)
    (hlog : composedSteps s'.game.participants.log = composedSteps s.game.participants.log)
    (hsteps : s'.game.authoritativeSteps = s.game.authoritativeSteps) :
    ServesHistory first before s' where
  pool := hpool
  ids := hlog ▸ h.ids
  serves := by
    unfold composedOctetsOf
    rw [hlog, hsteps]
    exact h.serves
  grows := hlog ▸ h.grows

/-- The next step has the id after the last one. -/
theorem next [LawfulSteps E] (h : ServesHistory first before s) :
    (nextStepId s).toNat = first + (composedSteps s.game.participants.log).length := by
  have hlength := h.serves.start_add_length
  unfold composedOctetsOf at hlength
  rw [List.length_map] at hlength
  unfold nextStepId
  rw [LawfulSteps.writeId_eq, hlength]

/-- Old steps are discarded. -/
theorem discard [LawfulSteps E] (h : ServesHistory first before s) {steps : E.Steps}
    (hsteps : Discarded s.game.authoritativeSteps steps) :
    ServesHistory first before { s with game := { s.game with authoritativeSteps := steps } } := by
  refine ⟨h.pool, h.ids, ?_, h.grows⟩
  rcases hsteps with rfl | ⟨count, hcount, rfl⟩
  · exact h.serves
  · obtain ⟨-, hstored, hwrite⟩ := LawfulSteps.discard_ok s.game.authoritativeSteps count hcount
    rw [LawfulSteps.stepsCount_eq] at hcount
    -- The write id stays and the buffer is shorter, so the read id has moved.
    have hread : (E.expectedReadId (E.nbsStepsDiscardCount s.game.authoritativeSteps count).2).toNat
        = (E.expectedReadId s.game.authoritativeSteps).toNat + count := by
      have hold := LawfulSteps.writeId_eq s.game.authoritativeSteps
      have hnew := LawfulSteps.writeId_eq (E.nbsStepsDiscardCount s.game.authoritativeSteps count).2
      rw [hwrite, hstored, List.length_drop] at hnew
      omega
    show Serves first (composedOctetsOf s)
      (E.expectedReadId (E.nbsStepsDiscardCount s.game.authoritativeSteps count).2).toNat
      (E.storedPayloads (E.nbsStepsDiscardCount s.game.authoritativeSteps count).2)
    rw [hread, hstored]
    exact h.serves.drop hcount

/-- A request discards old steps and stores predicted ones, which are not of the history. -/
theorem store [LawfulSteps E] (h : ServesHistory first before s) (t : ConnectionPtr)
    (inStream : InStream) (uninitialized : Uninitialized S) :
    ServesHistory first before (readIncomingSteps s t inStream uninitialized).2.2 := by
  -- Storing predicted steps touches neither the composed steps nor the authoritative buffer.
  have hrule : ∀ (p : PartyPtr S) (steps : E.Steps), StoreRule p fun s' : Server E S =>
      composedSteps s'.game.participants.log = composedSteps s.game.participants.log ∧
        s'.game.authoritativeSteps = steps := by
    intro p steps
    refine ⟨fun s' i stepId inStream hs' hi => ?_, fun s' _ total hs' => hs'⟩
    have houtcome := deserializeSingleStep_outcome s' i stepId inStream
    generalize nimbleServerParticipantDeserializeSingleStep s' i stepId inStream = r
      at houtcome ⊢
    obtain ⟨code, rest, after⟩ := r
    dsimp only at houtcome ⊢
    cases houtcome with
    | failed code hcode => exact hs'
    | ignored hid => exact hs'
    | stored steps hid hmore =>
      exact ⟨(composedSteps_stored i stepId steps _).trans hs'.1, hs'.2⟩
  have hpool := (pool_playKeeps fun _ _ => True).readIncomingSteps h.pool t inStream uninitialized
  obtain ⟨steps, hsteps, hread⟩ := readIncomingSteps_cases s t inStream uninitialized
  rcases hread with hread | hread
  · rw [hread]
    exact h.discard hsteps
  · rw [hread] at hpool ⊢
    have hdiscard := h.discard hsteps
    obtain ⟨hlog, hsame⟩ := StoreRule.handleIncomingSteps
      (s := { s with game := { s.game with authoritativeSteps := steps } }) _ ⟨rfl, rfl⟩
      (fun p _ => hrule p steps) inStream uninitialized
    exact hdiscard.congr hpool hlog hsame

/-- A round that wrote its step. -/
theorem written [LawfulSteps E] (h : ServesHistory first before s) {s' : Server E S}
    {octets : List UInt8}
    (hpool : PoolInvariant s'.game.participants)
    (hlog : composedSteps s'.game.participants.log
      = composedSteps s.game.participants.log ++ [(nextStepId s, octets)])
    (hsteps : s'.game.authoritativeSteps
      = (E.nbsStepsWrite s.game.authoritativeSteps (nextStepId s) octets).2)
    (hwrite : 0 ≤ (E.nbsStepsWrite s.game.authoritativeSteps (nextStepId s) octets).1) :
    ServesHistory first before s' := by
  have hnext := h.next
  obtain ⟨hstored, hread⟩ := LawfulSteps.write_ok s.game.authoritativeSteps (nextStepId s)
    octets rfl hwrite
  refine ⟨hpool, ?_, ?_, ?_⟩
  · rw [hlog, List.map_append, h.ids, List.length_append, List.length_singleton,
      List.range'_concat, Nat.one_mul, List.map_singleton, hnext]
  · unfold composedOctetsOf
    rw [hlog, hsteps, List.map_append, hstored, hread]
    exact h.serves.concat octets
  · rw [hlog]
    exact h.grows.trans (List.prefix_append _ _)

/-- All operations of a running game keep it, as long as each composed step is taken. -/
theorem playRule [LawfulSteps E] [LawfulOutStreams E] (first : Nat) (before : Server E S) :
    PlayRule (fun s op => op.IsPlay ∧ AcceptedWhenComposed s op) (ServesHistory first before)
      (fun _ => True) where
  same := fun s s' h hgame _ => h.congr (hgame ▸ h.pool) (by rw [hgame]) (by rw [hgame])
  join := by
    intro s t request uninitialized r h _ hr
    have hpool := (pool_playKeeps fun _ _ => True).join s t request uninitialized r h.pool
      trivial hr
    refine h.congr hpool ?_ hr.authoritativeSteps
    cases hr with
    | created p i participants htype hfind hplace hjoin =>
      obtain ⟨-, -, -, -, -, -, -, hlog⟩ := hjoin.taken
      show composedSteps participants.log = _
      rw [hlog, composedSteps_joined]
    | _ => rfl
  joinFault := fun _ _ _ _ => trivial
  tick := fun s p s' h hs' =>
    h.congr ((pool_playKeeps fun _ _ => True).tick s p s' h.pool hs') (by rw [hs'.log])
      hs'.authoritativeSteps
  tickFault := fun _ _ _ _ _ => trivial
  connectionFault := fun _ _ => trivial
  store := fun s t inStream uninitialized h _ => h.store t inStream uninitialized
  compose := by
    intro s h hallowed
    have hkeeps : ComposeKeeps (fun s : Server E S => PoolInvariant s.game.participants)
        (fun f => ¬f.IsPool) := (pool_playKeeps fun _ _ => True).toComposeKeeps
    refine ((composeRound_outcome h.pool.counted).and
      (hkeeps.composeRule.composeRound h.pool)).mono ?_ (fun _ _ => trivial)
    rintro r ⟨houtcome, hpool⟩
    cases houtcome with
    -- A round that could not be started has lost steps of participants, but none of the history.
    | unstarted s' visited hoctets hwalked hvisited =>
      exact h.congr hpool (by rw [hwalked.log]) hwalked.authoritativeSteps
    | refused s' octets hoctets hwalked hwrite =>
      exact absurd hwrite (Int.not_lt.mpr (hallowed.2 octets hoctets))
    | written s' octets hoctets hwalked hwrite =>
      exact h.written hpool (composedSteps_composed _ _ _ _) rfl hwrite

end ServesHistory

/-- A game starts with an empty buffer. -/
theorem StartsGame.toNat_expectedReadId [LawfulSteps E] {s : Server E S} (h : StartsGame s) :
    E.storedPayloads s.game.authoritativeSteps = [] ∧
      (E.expectedReadId s.game.authoritativeSteps).toNat = (nextStepId s).toNat := by
  obtain ⟨before, stepId, hinit⟩ := h
  obtain ⟨game, -, hs⟩ := bind_eq_ok.mp hinit
  cases hs
  have hstored : E.storedPayloads (E.nbsStepsReInit game.authoritativeSteps stepId) = [] :=
    LawfulSteps.reInit_stored _ _
  have hwrite := LawfulSteps.writeId_eq (E.nbsStepsReInit game.authoritativeSteps stepId)
  rw [hstored] at hwrite
  exact ⟨hstored, hwrite.symm⟩

/-- At the start the history and the buffer are empty. -/
theorem StartsGame.servesHistory [LawfulSteps E] {s : Server E S} (h : StartsGame s) :
    ServesHistory (nextStepId s).toNat s s := by
  obtain ⟨hstored, hread⟩ := h.toNat_expectedReadId
  obtain ⟨before, stepId, hinit⟩ := h
  obtain ⟨hpool, -, hlog, -⟩ := (nimbleServerReInitWithGame_ensures before stepId).of_ok hinit
  have hempty : composedSteps s.game.participants.log = [] := by
    rw [hlog]
    rfl
  refine ⟨hpool, ?_, ⟨[], ?_, hread⟩, List.prefix_refl _⟩
  · rw [hempty]
    rfl
  · unfold composedOctetsOf
    rw [hempty, hstored]
    rfl

/-! ### What an answer carries -/

/-- The payloads of a range, as far as the buffer has them. -/
def rangePayloads (steps : E.Steps) (range : PendingRange) : List (List UInt8) :=
  range.ids.filterMap (windowAt (E.expectedReadId steps).toNat (E.storedPayloads steps))

/-- What an answer adds for a client that waits for a step: the last range, if it starts
there. -/
def continuationOf (s : Server E S) (ranges : List PendingRange) (awaited : StepId) :
    List (List UInt8) :=
  match ranges.getLast? with
  | some range => if range.startId = awaited then
      rangePayloads s.game.authoritativeSteps range else []
  | none => []

/-- The ranges of an answer, whatever the connection. -/
theorem stepRangesToSend_cases {s : Server E S} {t : ConnectionPtr} {awaited : StepId}
    {receiveMask : UInt64} {ranges : List PendingRange} {numbers : StepId × Nat × Int8}
    (h : stepRangesToSend s t awaited receiveMask = .ok (ranges, numbers)) :
    (awaited < E.expectedReadId s.game.authoritativeSteps ∧ ranges = []) ∨
      (E.expectedReadId s.game.authoritativeSteps ≤ awaited ∧ ∃ pending,
        ranges = if awaited < E.expectedWriteId s.game.authoritativeSteps then
            pending ++ [continuationRange awaited (E.expectedWriteId s.game.authoritativeSteps)]
          else pending) := by
  by_cases hbefore : awaited < E.expectedReadId s.game.authoritativeSteps
  · simp only [stepRangesToSend, if_pos hbefore] at h
    cases h
    exact .inl ⟨hbefore, rfl⟩
  · have havailable := UInt32.not_lt.mp hbefore
    refine .inr ⟨havailable, ?_⟩
    cases hpending : E.nbsPendingStepsRanges awaited
        (E.expectedWriteId s.game.authoritativeSteps) receiveMask 3 8 with
    | error code =>
      simp only [stepRangesToSend, if_neg hbefore, hpending] at h
      cases h
    | ok pending =>
      obtain ⟨numbers', hsend⟩ := stepRangesToSend_eq t havailable hpending
      rw [hsend] at h
      cases h
      exact ⟨pending, rfl⟩

/-- An answer that ends with the continuation carries it. -/
theorem continuationOf_concat (s : Server E S) (pending : List PendingRange)
    (awaited writeId : StepId) :
    continuationOf s (pending ++ [continuationRange awaited writeId]) awaited
      = rangePayloads s.game.authoritativeSteps (continuationRange awaited writeId) := by
  unfold continuationOf
  rw [List.getLast?_concat]
  exact if_pos rfl

/-- A range past the end of the buffer carries nothing. -/
theorem rangePayloads_of_le [LawfulSteps E] {steps : E.Steps} {range : PendingRange}
    (h : E.expectedWriteId steps ≤ range.startId) : rangePayloads steps range = [] := by
  have hle := UInt32.le_iff_toNat_le.mp h
  rw [LawfulSteps.writeId_eq] at hle
  refine List.filterMap_eq_nil_iff.mpr fun id hid => windowAt_eq_none ?_
  have hid := (List.mem_range'_1.mp hid).1
  omega

/-- The continuation is the history from the awaited step on. -/
theorem ServesHistory.rangePayloads_eq [LawfulSteps E] {first : Nat} {before s : Server E S}
    (h : ServesHistory first before s) {awaited : StepId}
    (hread : E.expectedReadId s.game.authoritativeSteps ≤ awaited)
    (hlt : awaited < E.expectedWriteId s.game.authoritativeSteps) :
    rangePayloads s.game.authoritativeSteps
        (continuationRange awaited (E.expectedWriteId s.game.authoritativeSteps))
      = ((composedOctetsOf s).drop (awaited.toNat - first)).take
        (min 20 ((E.expectedWriteId s.game.authoritativeSteps).toNat - awaited.toNat)) := by
  have hread' := UInt32.le_iff_toNat_le.mp hread
  have hlt' := UInt32.lt_iff_toNat_lt.mp hlt
  have hwrite := LawfulSteps.writeId_eq s.game.authoritativeSteps
  exact h.serves.filterMap_windowAt hread' (by
    show awaited.toNat + min 20 _ ≤ _
    omega)

/-- What an answer adds is of the history, from the awaited step on. -/
theorem ServesHistory.continuationOf_prefix [LawfulSteps E] {first : Nat}
    {before s : Server E S} (h : ServesHistory first before s) {t : ConnectionPtr}
    {awaited : StepId} {receiveMask : UInt64} {ranges : List PendingRange}
    {numbers : StepId × Nat × Int8}
    (hsend : stepRangesToSend s t awaited receiveMask = .ok (ranges, numbers)) :
    continuationOf s ranges awaited <+: (composedOctetsOf s).drop (awaited.toNat - first) := by
  rcases stepRangesToSend_cases hsend with ⟨-, rfl⟩ | ⟨hread, pending, rfl⟩
  · exact List.nil_prefix
  · by_cases hlt : awaited < E.expectedWriteId s.game.authoritativeSteps
    · rw [if_pos hlt, continuationOf_concat, h.rangePayloads_eq hread hlt]
      exact List.take_prefix _ _
    · -- There is no step to go on with. A pending range can start there, but it is empty.
      rw [if_neg hlt]
      unfold continuationOf
      split
      · rename_i range _
        split
        · rename_i hstart
          rw [rangePayloads_of_le (hstart ▸ UInt32.not_lt.mp hlt)]
          exact List.nil_prefix
        · exact List.nil_prefix
      · exact List.nil_prefix

/-! ### The audience -/

/-- A server, and the steps that each client has collected. -/
structure Audience (E : External) (S : Setup) (Client : Type) where
  server : Server E S
  replica : Client → List (List UInt8)

/-- The server does something, or it answers a client on a connection. -/
inductive AudienceOp (S : Setup) (Client : Type)
  | server (op : Op S)
  | ask (client : Client) (t : ConnectionPtr) (receiveMask : UInt64)

namespace Audience

variable {Client : Type} [DecidableEq Client]

/-- The step that the client waits for, when it began with the step `base`. -/
def awaited (audience : Audience E S Client) (base : Client → StepId) (client : Client) :
    StepId :=
  base client + UInt32.ofNat (audience.replica client).length

/-- A client that asks says which step it waits for, and keeps what the answer adds. -/
def step (base : Client → StepId) (audience : Audience E S Client) :
    AudienceOp S Client → Result (Audience E S Client)
  | .server op => (audience.server.step op).map fun server => { audience with server }
  | .ask client t receiveMask =>
    match stepRangesToSend audience.server t (audience.awaited base client) receiveMask with
    | .error _ => pure audience
    | .ok (ranges, _) => pure { audience with
        replica := Function.update audience.replica client (audience.replica client ++
          continuationOf audience.server ranges (audience.awaited base client)) }

/-- The server is in a running game whose steps are taken by the authoritative buffer. -/
def Allowed (audience : Audience E S Client) : AudienceOp S Client → Prop
  | .server op => op.IsPlay ∧ AcceptedWhenComposed audience.server op
  | .ask _ _ _ => True

/-- The condition can be evaluated. -/
instance (audience : Audience E S Client) :
    (op : AudienceOp S Client) → Decidable (audience.Allowed op)
  | .server _ => inferInstanceAs (Decidable (_ ∧ _))
  | .ask _ _ _ => isTrue trivial

/-- Each client has the history from its base on, up to some step. -/
structure InStep (first : Nat) (base : Client → StepId) (audience : Audience E S Client) :
    Prop where
  history : ServesHistory first audience.server audience.server
  replica : ∀ client, audience.replica client
    <+: (composedOctetsOf audience.server).drop ((base client).toNat - first)

namespace InStep

variable {first : Nat} {base : Client → StepId} {audience : Audience E S Client}

omit [DecidableEq Client] in
/-- The awaited step is as far from the base as the client has steps. -/
theorem toNat_awaited [LawfulSteps E] (h : InStep first base audience)
    (hbase : ∀ client, first ≤ (base client).toNat) (client : Client) :
    (audience.awaited base client).toNat
      = (base client).toNat + (audience.replica client).length := by
  have hlength := (h.replica client).length_le
  rw [List.length_drop] at hlength
  have hnext := h.history.next
  have hlt := (nextStepId audience.server).toNat_lt
  unfold composedOctetsOf at hlength
  rw [List.length_map] at hlength
  have hbase := hbase client
  unfold awaited
  by_cases hzero : (audience.replica client).length = 0
  · rw [hzero]
    simp
  · -- The sum does not wrap around, since the next step of the server is not before it.
    exact toNat_add_ofNat (base client) (nextStepId audience.server) (by omega)

omit [DecidableEq Client] in
/-- An answer to a client goes on where its replica ends. -/
theorem extend [LawfulSteps E] (h : InStep first base audience)
    (hbase : ∀ client, first ≤ (base client).toNat) {client : Client} {t : ConnectionPtr}
    {receiveMask : UInt64} {ranges : List PendingRange} {numbers : StepId × Nat × Int8}
    (hsend : stepRangesToSend audience.server t (audience.awaited base client) receiveMask
      = .ok (ranges, numbers)) :
    audience.replica client
        ++ continuationOf audience.server ranges (audience.awaited base client)
      <+: (composedOctetsOf audience.server).drop ((base client).toNat - first) := by
  have hadded := h.history.continuationOf_prefix hsend
  have hbase' := hbase client
  have hfrom : (audience.awaited base client).toNat - first
      = (base client).toNat - first + (audience.replica client).length := by
    rw [h.toNat_awaited hbase client]
    omega
  rw [hfrom, ← List.drop_drop] at hadded
  -- What the client has is cut off the history, and the answer is a front part of the rest.
  obtain ⟨rest, hrest⟩ := h.replica client
  rw [← hrest, List.drop_left] at hadded
  rw [← hrest]
  exact (List.prefix_append_right_inj _).mpr hadded

/-- Neither the server nor a client that asks gets the clients out of step. -/
theorem step [LawfulSteps E] [LawfulOutStreams E] (h : InStep first base audience)
    (hbase : ∀ client, first ≤ (base client).toNat) {op : AudienceOp S Client}
    (hop : audience.Allowed op) :
    Ensures (audience.step base op) (InStep first base) (fun _ => True) := by
  cases op with
  | server op =>
    refine Ensures.map (((ServesHistory.playRule first audience.server).step h.history hop
      hop.1).mono (fun s' hs' => ?_) fun _ _ => trivial)
    refine ⟨{ hs' with grows := List.prefix_refl _ }, fun client => ?_⟩
    -- The history only grows, so a front part stays one.
    exact (h.replica client).trans ((hs'.grows.map _).drop _)
  | ask client t receiveMask =>
    unfold Audience.step
    dsimp only
    cases hsend : stepRangesToSend audience.server t (audience.awaited base client)
        receiveMask with
    | error code => exact h
    | ok answer =>
      obtain ⟨ranges, numbers⟩ := answer
      refine ⟨h.history, fun other => ?_⟩
      show Function.update audience.replica client _ other <+: _
      by_cases hother : other = client
      · subst hother
        rw [Function.update_self]
        exact h.extend hbase hsend
      · rw [Function.update_of_ne hother]
        exact h.replica other

omit [DecidableEq Client] in
/-- The octets a client has for a step are those of the history. -/
theorem getElem?_replica (h : InStep first base audience) {client : Client} {k : Nat}
    {octets : List UInt8} (hk : (audience.replica client)[k]? = some octets) :
    (composedOctetsOf audience.server)[(base client).toNat - first + k]? = some octets := by
  obtain ⟨rest, hrest⟩ := h.replica client
  obtain ⟨hlt, -⟩ := List.getElem?_eq_some_iff.mp hk
  rw [← List.getElem?_drop, ← hrest, List.getElem?_append_left hlt, hk]

/-- A client that waits for a step in the buffer gets as many steps as there are, up to 20. -/
theorem ask_length [LawfulSteps E] (h : InStep first base audience)
    (hbase : ∀ client, first ≤ (base client).toNat) {client : Client} (t : ConnectionPtr)
    {receiveMask : UInt64} {pending : List PendingRange}
    (hread : E.expectedReadId audience.server.game.authoritativeSteps
      ≤ audience.awaited base client)
    (hlt : audience.awaited base client
      < E.expectedWriteId audience.server.game.authoritativeSteps)
    (hpending : E.nbsPendingStepsRanges (audience.awaited base client)
      (E.expectedWriteId audience.server.game.authoritativeSteps) receiveMask 3 8
        = .ok pending) :
    ∃ after, audience.step base (.ask client t receiveMask) = .ok after ∧
      (after.replica client).length = (audience.replica client).length +
        min 20 ((E.expectedWriteId audience.server.game.authoritativeSteps).toNat
          - (audience.awaited base client).toNat) := by
  obtain ⟨numbers, hsend⟩ := stepRangesToSend_eq t hread hpending
  rw [if_pos hlt] at hsend
  unfold Audience.step
  dsimp only
  rw [hsend]
  refine ⟨_, rfl, ?_⟩
  show (Function.update audience.replica client _ client).length = _
  rw [Function.update_self, List.length_append, continuationOf_concat,
    h.history.rangePayloads_eq hread hlt, List.length_take, List.length_drop]
  -- The history ends before the write id.
  have hnext := h.history.next
  have hlt' := UInt32.lt_iff_toNat_lt.mp hlt
  have hawaited := h.toNat_awaited hbase client
  have hbase' := hbase client
  unfold nextStepId at hnext
  unfold composedOctetsOf
  rw [List.length_map]
  omega

end InStep

end Audience

/-- On every interleaving of a running game with any number of clients that ask for steps:
each client has the octets of the composed steps from its base on, in order, without a gap
and without a repetition. Two clients have the same octets for the same step. And a client
that waits for a step of the buffer gets all steps from there on, up to 20, when it asks. -/
theorem replicas_of_one_history [LawfulSteps E] {Client : Type} [DecidableEq Client]
    [LawfulOutStreams E] {start : Server E S} (hstart : StartsGame start) {base : Client → StepId}
    (hbase : ∀ client, nextStepId start ≤ base client) {audience : Audience E S Client}
    (hrun : Reaches (Audience.step base) Audience.Allowed ⟨start, fun _ => []⟩ audience) :
    (∀ client, audience.replica client <+: (composedOctetsOf audience.server).drop
      ((base client).toNat - (nextStepId start).toNat)) ∧
    (∀ client other k l octets octets',
      (base client).toNat + k = (base other).toNat + l →
      (audience.replica client)[k]? = some octets →
      (audience.replica other)[l]? = some octets' → octets = octets') ∧
    ∀ client (t : ConnectionPtr) (receiveMask : UInt64) pending,
      E.expectedReadId audience.server.game.authoritativeSteps
        ≤ audience.awaited base client →
      audience.awaited base client
        < E.expectedWriteId audience.server.game.authoritativeSteps →
      E.nbsPendingStepsRanges (audience.awaited base client)
        (E.expectedWriteId audience.server.game.authoritativeSteps) receiveMask 3 8
          = .ok pending →
      ∃ after, audience.step base (.ask client t receiveMask) = .ok after ∧
        (after.replica client).length = (audience.replica client).length +
          min 20 ((E.expectedWriteId audience.server.game.authoritativeSteps).toNat
            - (audience.awaited base client).toNat) := by
  have hbase' : ∀ client, (nextStepId start).toNat ≤ (base client).toNat :=
    fun client => UInt32.le_iff_toNat_le.mp (hbase client)
  have hinStep : Audience.InStep (nextStepId start).toNat base audience :=
    hrun.invariant _ ⟨hstart.servesHistory, fun _ => List.nil_prefix⟩
      fun _ _ h hop => h.step hbase' hop
  refine ⟨hinStep.replica, ?_, fun client t receiveMask pending =>
    hinStep.ask_length hbase' t⟩
  intro client other k l octets octets' hsame hk hl
  have hk := hinStep.getElem?_replica hk
  have hl := hinStep.getElem?_replica hl
  -- Both clients look at the same place of the history.
  have hindex : (base client).toNat - (nextStepId start).toNat + k
      = (base other).toNat - (nextStepId start).toNat + l := by
    have := hbase' client
    have := hbase' other
    omega
  rw [hindex, hl] at hk
  exact (Option.some.inj hk).symm

/-- The games of the tests start at step 0. -/
theorem nextStepId_of_plainGame {s : Server plainExternal (plainSetup 1)}
    (h : plainGame 1 = .ok s) : nextStepId s = 0 := by
  have hfirst : (plainGame 1).toOption.all (fun s => decide (nextStepId s = 0)) = true := by
    decide +kernel
  rw [h] at hfirst
  exact of_decide_eq_true hfirst

/-- Two clients ask in turn while the server composes four steps. The second one began with
the step 1. -/
theorem replicas_of_one_history_twoClients :
    ∃ (start : Server plainExternal (plainSetup 1))
      (audience : Audience plainExternal (plainSetup 1) Bool),
      StartsGame start ∧
      Reaches (Audience.step fun late => if late then 1 else 0) Audience.Allowed
        ⟨start, fun _ => []⟩ audience ∧
      (audience.replica false).length = 4 ∧ (audience.replica true).length = 2 ∧
      audience.replica false <+: composedOctetsOf audience.server ∧
      audience.replica true <+: (composedOctetsOf audience.server).drop 1 := by
  obtain ⟨first, audience, hsetup, hrun, hearly, hlate⟩ :=
    exists_run (Audience.step fun late => if late then 1 else 0) Audience.Allowed
      (fun audience : Audience plainExternal (plainSetup 1) Bool =>
        (audience.replica false).length = 4 ∧ (audience.replica true).length = 2)
      ((plainGame 1).map fun server => ⟨server, fun _ => []⟩)
      [.server (.receive 0), .server (.join 0 onePlayer (zeroLocals _)),
        .server (.incomingSteps 0 (gameStep 0 [[1], [2], [3], [4], [5], [6]]) (zeroLocals _)),
        .server .composeRound, .server .composeRound, .ask false 0 0, .server .composeRound,
        .ask true 0 0, .server .composeRound, .ask false 0 0]
      (by decide +kernel)
  obtain ⟨start, hstart, rfl⟩ := map_eq_ok.mp hsetup
  have hnext := nextStepId_of_plainGame hstart
  have hgame := startsGame_of_blankGame hstart
  obtain ⟨hreplica, -, -⟩ := replicas_of_one_history hgame
    (fun _ => by rw [hnext]; exact UInt32.zero_le) hrun
  have hfalse := hreplica false
  have htrue := hreplica true
  rw [hnext] at hfalse htrue
  exact ⟨start, audience, hgame, hrun, hearly, hlate, hfalse, htrue⟩

/-! ### How long a step is kept -/

/-- Nothing was discarded yet, or at least a third of the window is filled. -/
def Retains (first : Nat) (s : Server E S) : Prop :=
  (E.expectedReadId s.game.authoritativeSteps).toNat = first ∨
    E.NBS_WINDOW_SIZE / 3 ≤ (E.storedPayloads s.game.authoritativeSteps).length

/-- A request discards what is more than a third of the window. -/
theorem readIncomingSteps_authoritativeSteps (s : Server E S) (t : ConnectionPtr)
    (inStream : InStream) (uninitialized : Uninitialized S) :
    (readIncomingSteps s t inStream uninitialized).2.2.game.authoritativeSteps
      = if E.stepsCount s.game.authoritativeSteps > E.NBS_WINDOW_SIZE / 3 then
          (E.nbsStepsDiscardCount s.game.authoritativeSteps
            (E.stepsCount s.game.authoritativeSteps - E.NBS_WINDOW_SIZE / 3)).2
        else s.game.authoritativeSteps := by
  have hdiscard : (discardAuthoritativeStepsIfBufferGettingFull s).2.game.authoritativeSteps
      = if E.stepsCount s.game.authoritativeSteps > E.NBS_WINDOW_SIZE / 3 then
          (E.nbsStepsDiscardCount s.game.authoritativeSteps
            (E.stepsCount s.game.authoritativeSteps - E.NBS_WINDOW_SIZE / 3)).2
        else s.game.authoritativeSteps := by
    simp only [discardAuthoritativeStepsIfBufferGettingFull]
    split <;> rfl
  rw [← hdiscard]
  unfold readIncomingSteps
  rcases discardAuthoritativeStepsIfBufferGettingFull s with ⟨code, s1⟩
  dsimp only
  split
  · rfl
  · exact handleIncomingSteps_authoritativeSteps s1 t inStream uninitialized

/-- A request leaves at least a third of the window, if it discards at all. -/
theorem Retains.store [LawfulSteps E] {first : Nat} {s : Server E S} (h : Retains first s)
    (t : ConnectionPtr) (inStream : InStream) (uninitialized : Uninitialized S) :
    Retains first (readIncomingSteps s t inStream uninitialized).2.2 := by
  unfold Retains at h ⊢
  rw [readIncomingSteps_authoritativeSteps]
  split
  · rename_i hfull
    rw [LawfulSteps.stepsCount_eq] at hfull ⊢
    -- A third of the window is what is left.
    obtain ⟨-, hstored, -⟩ := LawfulSteps.discard_ok s.game.authoritativeSteps
      ((E.storedPayloads s.game.authoritativeSteps).length - E.NBS_WINDOW_SIZE / 3)
      (by rw [LawfulSteps.stepsCount_eq]; omega)
    rw [hstored, List.length_drop]
    omega
  · exact h

/-- Only a request discards steps. -/
theorem retains_playRule [LawfulSteps E] [LawfulOutStreams E] (first : Nat) (before : Server E S) :
    PlayRule (fun s op => op.IsPlay ∧ AcceptedWhenComposed s op)
      (fun s => ServesHistory first before s ∧ Retains first s) (fun _ => True) := by
  have hserves := ServesHistory.playRule (E := E) (S := S) first before
  have hsame : ∀ {s s' : Server E S}, Retains first s →
      s'.game.authoritativeSteps = s.game.authoritativeSteps → Retains first s' := by
    intro s s' h hsteps
    unfold Retains
    rwa [hsteps]
  exact
    { same := fun s s' h hgame hparties =>
        ⟨hserves.same s s' h.1 hgame hparties, hsame h.2 (by rw [hgame])⟩
      join := fun s t request uninitialized r h hop hr =>
        ⟨hserves.join s t request uninitialized r h.1 hop hr, hsame h.2 hr.authoritativeSteps⟩
      joinFault := fun _ _ _ _ => trivial
      tick := fun s p s' h hs' =>
        ⟨hserves.tick s p s' h.1 hs', hsame h.2 hs'.authoritativeSteps⟩
      tickFault := fun _ _ _ _ _ => trivial
      connectionFault := fun _ _ => trivial
      store := fun s t inStream uninitialized h hop =>
        ⟨hserves.store s t inStream uninitialized h.1 hop, h.2.store t inStream uninitialized⟩
      compose := by
        intro s h hop
        refine ((hserves.compose s h.1 hop).and (composeRound_outcome h.1.pool.counted)).mono ?_
          fun _ _ => trivial
        rintro r ⟨hnext, houtcome⟩
        refine ⟨hnext, ?_⟩
        cases houtcome with
        | unstarted s' visited hoctets hwalked hvisited =>
          exact hsame h.2 hwalked.authoritativeSteps
        | refused s' octets hoctets hwalked hwrite =>
          exact absurd hwrite (Int.not_lt.mpr (hop.2 octets hoctets))
        | written s' octets hoctets hwalked hwrite =>
          obtain ⟨hstored, hread⟩ := LawfulSteps.write_ok s.game.authoritativeSteps
            (nextStepId s) octets rfl hwrite
          show _ = first ∨ _ ≤ (E.storedPayloads (E.nbsStepsWrite _ _ _).2).length
          rw [hstored, List.length_append]
          refine h.2.imp (fun hfirst => ?_) fun hfilled => by omega
          rw [← hfirst, ← hread]
          rfl }

/-- On every run of a game whose steps the authoritative buffer takes, a client that is not
more than a third of the window behind is served: the answer goes on with the octets that were
composed for the step it waits for and the steps after it, up to 20. -/
theorem recent_steps_are_served [LawfulSteps E] [LawfulOutStreams E] {start s : Server E S}
    (hstart : StartsGame start)
    (hrun : Reaches Server.step (fun s op => op.IsPlay ∧ AcceptedWhenComposed s op) start s)
    {awaited : StepId} (hfrom : nextStepId start ≤ awaited) (hlt : awaited < nextStepId s)
    (hrecent : (nextStepId s).toNat ≤ awaited.toNat + E.NBS_WINDOW_SIZE / 3) (t : ConnectionPtr)
    {receiveMask : UInt64} {pending : List PendingRange}
    (hpending : E.nbsPendingStepsRanges awaited (nextStepId s) receiveMask 3 8 = .ok pending) :
    ∃ ranges numbers, stepRangesToSend s t awaited receiveMask = .ok (ranges, numbers) ∧
      continuationOf s ranges awaited
        = ((composedOctetsOf s).drop (awaited.toNat - (nextStepId start).toNat)).take
          (min 20 ((nextStepId s).toNat - awaited.toNat)) := by
  have hinit : Retains (nextStepId start).toNat start := .inl hstart.toNat_expectedReadId.2
  obtain ⟨hserves, hretains⟩ := (retains_playRule (nextStepId start).toNat start).reachable
    (fun _ _ h => h.1) ⟨hstart.servesHistory, hinit⟩ hrun
  have hread : E.expectedReadId s.game.authoritativeSteps ≤ awaited := by
    have hwrite := LawfulSteps.writeId_eq s.game.authoritativeSteps
    have hfrom := UInt32.le_iff_toNat_le.mp hfrom
    rw [UInt32.le_iff_toNat_le]
    unfold nextStepId at hrecent
    -- The buffer still starts with the game, or it reaches a third of the window back.
    rcases hretains with hfirst | hfilled
    · omega
    · omega
  obtain ⟨numbers, hsend⟩ := stepRangesToSend_eq t hread hpending
  unfold nextStepId at hlt
  rw [if_pos hlt] at hsend
  refine ⟨_, numbers, hsend, ?_⟩
  rw [continuationOf_concat, hserves.rangePayloads_eq hread hlt]
  rfl

/-- Four steps were composed, and a client waits for the second one. -/
theorem recent_steps_are_served_secondStep :
    ∃ (start s : Server plainExternal (plainSetup 1)) (t : ConnectionPtr), StartsGame start ∧
      Reaches Server.step (fun s op => op.IsPlay ∧ AcceptedWhenComposed s op) start s ∧
      ∃ ranges numbers, stepRangesToSend s t 1 0 = .ok (ranges, numbers) ∧
        (continuationOf s ranges 1).length = 3 := by
  obtain ⟨start, s, hstart, hrun, hnext, hlength⟩ :=
    exists_run Server.step (fun s op => op.IsPlay ∧ AcceptedWhenComposed s op)
      (fun s : Server plainExternal (plainSetup 1) => nextStepId s = 4 ∧
        (composedOctetsOf s).length = 4)
      (plainGame 1)
      [.receive 0, .join 0 onePlayer (zeroLocals _),
        .incomingSteps 0 (gameStep 0 [[1], [2], [3], [4], [5], [6]]) (zeroLocals _),
        .composeRound, .composeRound, .composeRound, .composeRound]
      (by decide +kernel)
  have hfirst : nextStepId start = 0 := nextStepId_of_plainGame hstart
  have hgame := startsGame_of_blankGame hstart
  have hfrom : nextStepId start ≤ 1 := by
    rw [hfirst]
    decide
  have hlt : 1 < nextStepId s := by
    rw [hnext]
    decide
  have hpending : plainExternal.nbsPendingStepsRanges 1 (nextStepId s) 0 3 8 = .ok [] := rfl
  obtain ⟨ranges, numbers, hsend, hoctets⟩ := recent_steps_are_served hgame hrun hfrom hlt
    (by rw [hnext]; decide) (0 : ConnectionPtr) hpending
  refine ⟨start, s, _, hgame, hrun, ranges, numbers, hsend, ?_⟩
  rw [hoctets, hfirst, hnext, List.length_take, List.length_drop, hlength]
  rfl

end NimbleServer
