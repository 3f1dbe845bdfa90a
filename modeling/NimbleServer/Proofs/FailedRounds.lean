import NimbleServer.Proofs.Contribution
import NimbleServer.Proofs.MigrationPool
import NimbleServer.Proofs.Weaving

/-!
# `NimbleServer.Proofs.FailedRounds`: rounds that append no step

A round of the compose loop changes participants slot by slot, before it is known whether the
step can be written. If an entry cannot be started, or the authoritative buffer refuses the
step, the round ends there and nothing is taken back.

* `failed_round_keeps_iff`: a round that is entered loses something in every case in which it
  appends no step (`RoundAppends`). Each participant that was visited either lost the step it
  had or made its party's counter of forced steps grow.
* `composed_steps_were_provided`: as long as every round appends its step, no buffer starts
  after the next step, and the loop is entered only if some buffer holds that step.
  After a round that failed this is not so: the steps it read are gone, the next id is still
  the same, and the loop is entered again for a step that nobody holds. If the buffers then
  report that the step is not there, it is composed from nothing
  (`composes_step_nobody_stores`).
-/

set_option autoImplicit false

namespace NimbleServer

open NimbleServer.Lib

variable {E : External} {S : Setup}

/-! ### When a round appends a step -/

/-- The compose buffer is not full when an entry is due, and the authoritative buffer takes
what is composed. -/
structure RoundAppends (s : Server E S) : Prop where
  room : ¬FullBefore COMPOSE_STEP_BUFFER_SIZE 1 ((stepEntries s).map (entryRecord E))
  accepted : ∀ octets, nextOctets s = some octets →
    0 ≤ (E.nbsStepsWrite s.game.authoritativeSteps (nextStepId s) octets).1

/-- Nothing is composed exactly if an entry cannot be started. -/
theorem nextOctets_eq_none_iff (s : Server E S) :
    nextOctets s = none ↔
      FullBefore COMPOSE_STEP_BUFFER_SIZE 1 ((stepEntries s).map (entryRecord E)) :=
  composedOctets_eq_none_iff s (nextStepId s) (by decide)

/-- The loop goes on after the round exactly if the round appended its step. -/
theorem RoundOutcome.eq_none_iff {s : Server E S} {r : Option Int × Server E S}
    (h : RoundOutcome s r) : r.1 = none ↔ RoundAppends s := by
  cases h with
  | unstarted s' visited hoctets hwalked hvisited =>
    refine ⟨by rintro ⟨⟩, fun happends => ?_⟩
    exact absurd ((nextOctets_eq_none_iff s).mp hoctets) happends.room
  | refused s' octets hoctets hwalked hwrite =>
    refine ⟨by rintro ⟨⟩, fun happends => ?_⟩
    exact absurd hwrite (Int.not_lt.mpr (happends.accepted octets hoctets))
  | written s' octets hoctets hwalked hwrite =>
    refine ⟨fun _ => ⟨fun hfull => ?_, fun octets' hoctets' => ?_⟩, fun _ => rfl⟩
    · rw [(nextOctets_eq_none_iff s).mpr hfull] at hoctets
      cases hoctets
    · rw [hoctets] at hoctets'
      cases hoctets'
      exact hwrite

/-- A step that fits completely is appended. -/
theorem StepFits.roundAppends {s : Server E S} (h : StepFits s) : RoundAppends s := by
  have hall : nextOctets s = some (encodeStep E (stepEntries s)) :=
    (composedOctets_eq_encodeStep_iff s _ (by decide)).mpr h.composeBuffer
  refine ⟨fun hfull => ?_, fun octets hoctets => ?_⟩
  · rw [(nextOctets_eq_none_iff s).mpr hfull] at hall
    cases hall
  · rw [hall] at hoctets
    cases hoctets
    exact h.authoritativeSteps

/-! ### What a failed round loses -/

/-- Participants, pool and qualities are as before. -/
structure NothingLost (s s' : Server E S) : Prop where
  state : ∀ i, (s'.participant i).state = (s.participant i).state
  isUsed : ∀ i, (s'.participant i).isUsed = (s.participant i).isUsed
  steps : ∀ i, (s'.participant i).steps = (s.participant i).steps
  participantCount : s'.game.participants.participantCount
    = s.game.participants.participantCount
  freeList : s'.game.participants.freeList = s.game.participants.freeList
  quality : ∀ p, (s'.party p).quality = (s.party p).quality

/-- The buffer after the read, whatever the state of the participant. -/
theorem composedParticipant_steps (x : Participant E S) (lookingFor : StepId) :
    (composedParticipant x lookingFor).steps
      = (E.nbsStepsReadExactStepId x.steps lookingFor).2 := by
  unfold composedParticipant
  cases x.state <;> rfl

/-- Reading a step that is there changes the buffer. -/
theorem readExact_changes [LawfulSteps E] [ExactSteps E] {steps : E.Steps}
    {lookingFor : StepId} {octets : List UInt8}
    (h : (E.nbsStepsReadExactStepId steps lookingFor).1 = .ok octets) :
    (E.nbsStepsReadExactStepId steps lookingFor).2 ≠ steps := by
  obtain ⟨hread, hwrite⟩ := ExactSteps.readExact_ok steps lookingFor octets h
  obtain ⟨-, hstored, -⟩ := LawfulSteps.readExact_stored steps lookingFor hread hwrite
  have hread' := UInt32.le_iff_toNat_le.mp hread
  have hwrite' := UInt32.lt_iff_toNat_lt.mp hwrite
  rw [LawfulSteps.writeId_eq] at hwrite'
  -- An unchanged buffer would be as long as the same buffer without its first steps.
  intro hsame
  rw [hsame] at hstored
  have hlength := congrArg List.length hstored
  rw [List.length_drop] at hlength
  omega

/-- If nobody had the step, the counter of a party grows by the number of its participants.
Induction on the slots. -/
theorem forcedStepInRowCounter_composedQuality {s : Server E S} {lookingFor : StepId}
    (p : PartyPtr S) (slots : List (ParticipantPtr S))
    (h : ∀ i ∈ slots, (s.participant i).isUsed = true →
      providedStep (s.participant i) lookingFor = none) :
    (composedQuality s lookingFor slots p).forcedStepInRowCounter
      = (s.party p).quality.forcedStepInRowCounter
        + slots.countP fun i => (s.participant i).isUsed = true ∧
          (s.participant i).inParty = some p := by
  unfold composedQuality
  generalize (s.party p).quality = quality
  induction slots generalizing quality with
  | nil => rfl
  | cons i rest ih =>
    -- The quality is general in the induction, because each slot hands its own on to the next.
    have hrest := ih fun j hj => h j (List.mem_cons_of_mem i hj)
    rw [List.foldl_cons, hrest, List.countP_cons]
    by_cases hi : (s.participant i).isUsed = true ∧ (s.participant i).inParty = some p
    · have hnone := h i List.mem_cons_self hi.1
      have hforced : readQuality (s.participant i) lookingFor quality
          = nimbleServerConnectionQualityAddedForcedSteps quality 1 := by
        unfold readQuality
        rw [hnone]
        rfl
      rw [if_pos hi, hforced, if_pos (decide_eq_true hi)]
      show quality.forcedStepInRowCounter + 1 + _ = _
      omega
    · rw [if_neg hi, if_neg (fun hd => hi (of_decide_eq_true hd)), Nat.add_zero]

/-- Composing a used participant loses something. -/
theorem WalkedTo.not_nothingLost [LawfulSteps E] [ExactSteps E] {lookingFor : StepId}
    {visited : List (ParticipantPtr S)} {s s' : Server E S}
    (h : WalkedTo lookingFor visited s s')
    (hvisited : ∃ i ∈ visited, (s.participant i).isUsed = true) : ¬NothingLost s s' := by
  intro hkept
  -- No buffer changed, so nobody who was visited had the step. Then the counter of a party has
  -- grown.
  have hmissing : ∀ i ∈ visited, (s.participant i).isUsed = true →
      providedStep (s.participant i) lookingFor = none := by
    intro i hi hused
    have hsteps := hkept.steps i
    rw [h.participant i, if_pos ⟨hi, hused⟩, composedParticipant_steps] at hsteps
    unfold providedStep
    cases hread : (E.nbsStepsReadExactStepId (s.participant i).steps lookingFor).1 with
    | ok octets => exact absurd hsteps (readExact_changes hread)
    | error code => rfl
  obtain ⟨i, hi, hused⟩ := hvisited
  obtain ⟨p, hparty⟩ := h.inParty i hi hused
  have hcounter := forcedStepInRowCounter_composedQuality p visited hmissing
  have hpositive : 0 < visited.countP fun i => (s.participant i).isUsed = true ∧
      (s.participant i).inParty = some p :=
    List.countP_pos_iff.mpr ⟨i, hi, decide_eq_true ⟨hused, hparty⟩⟩
  rw [← h.quality p, hkept.quality p] at hcounter
  omega

/-- In every state of a server with a game in which a round is entered: the round keeps
participants, pool and qualities when it appends no step, if and only if it appends one. -/
theorem failed_round_keeps_iff [LawfulSteps E] [ExactSteps E] [LawfulOutStreams E]
    {start s : Server E S} (hstart : StartsGame start)
    (hrun : Reaches Server.step (fun _ _ => True) start s)
    (hadvance : shouldAdvanceAuthoritative s.game.participants s.game.authoritativeSteps
      = true) :
    Ensures (composeRound s)
      (fun r => (r.1 ≠ none → NothingLost s r.2) ↔
        (¬FullBefore COMPOSE_STEP_BUFFER_SIZE 1 ((stepEntries s).map (entryRecord E)) ∧
          ∀ octets, nextOctets s = some octets →
            0 ≤ (E.nbsStepsWrite s.game.authoritativeSteps (nextStepId s) octets).1))
      (ComposeStops (nextStepId s) (List.finRange S.maxParticipantCount) s) := by
  refine (composeRound_outcome (poolCovers_reachable hstart hrun).counted).mono ?_
    (fun _ h => h)
  intro r hr
  have hnone := hr.eq_none_iff
  have hlost : r.1 ≠ none → ¬NothingLost s r.2 := by
    intro hfailed
    cases hr with
    | unstarted s' visited hoctets hwalked hvisited => exact hwalked.not_nothingLost hvisited
    | refused s' octets hoctets hwalked hwrite =>
      -- All slots were visited, and the loop was entered because somebody is ahead.
      obtain ⟨i, hused, -⟩ := exists_ahead_of_shouldAdvance hadvance
      have hchanged := hwalked.not_nothingLost ⟨i, List.mem_finRange i, hused⟩
      exact fun hkept => hchanged
        ⟨hkept.state, hkept.isUsed, hkept.steps, hkept.participantCount, hkept.freeList,
          hkept.quality⟩
    -- An appended step is no failure.
    | written s' octets hoctets hwalked hwrite => exact absurd rfl hfailed
  constructor
  · intro hkeeps
    have happends : RoundAppends s := by
      refine hnone.mp ?_
      by_contra hfailed
      exact hlost hfailed (hkeeps hfailed)
    exact ⟨happends.room, happends.accepted⟩
  · rintro ⟨hroom, haccepted⟩ hfailed
    exact absurd (hnone.mpr ⟨hroom, haccepted⟩) hfailed

/-- 44 clients join. The first step of the first 43 of them fills the compose buffer to the
last octet, and the first client sends five more steps. -/
def fullLobby : List (Op (plainSetup 44)) :=
  ((List.finRange 44).flatMap fun k =>
    [.receive (k.castLE (by decide)), .join (k.castLE (by decide)) onePlayer (zeroLocals _)]) ++
  (List.finRange 44).map fun k => .incomingSteps (k.castLE (by decide))
    (gameStep 0 (List.replicate (if k = 0 then 6 else 1)
      (List.replicate (if k = 42 then 11 else 20) 1))) (zeroLocals _)

/-- The round for the first step cannot start the entry of the last client. By then it has moved
the first participant from just joined to normal. -/
theorem exists_failedRound :
    ∃ start s s' : Server plainExternal (plainSetup 44), StartsGame start ∧
      Reaches Server.step (fun s op => op.IsPlay ∧ s.Enabled op) start s ∧
      s.Enabled .composeRound ∧ composeRound s = .ok (some 0, s') ∧ ¬NothingLost s s' := by
  obtain ⟨start, s, hstart, hrun, hadvance, hjoined, hok⟩ :=
    exists_run Server.step (fun s op => op.IsPlay ∧ s.Enabled op)
      (fun s => s.Enabled .composeRound ∧
        (s.participant ⟨0, by decide⟩).state = .justJoined ∧
        (composeRound s).toOption.any (fun r : _ × Server _ (plainSetup 44) => decide (
          r.1 = some 0 ∧ (r.2.participant ⟨0, by decide⟩).state = .normal)) = true)
      (plainGame 44) fullLobby (by decide +kernel)
  obtain ⟨⟨code, s'⟩, hround, hcheck⟩ := exists_ok_of_any hok
  obtain ⟨hcode, hnormal⟩ := of_decide_eq_true hcheck
  cases hcode
  refine ⟨start, s, s', startsGame_of_blankGame hstart, hrun, hadvance, hround, fun hkept => ?_⟩
  have hsame := hkept.state ⟨0, by decide⟩
  rw [hjoined, hnormal] at hsame
  cases hsame

/-- In the full lobby the round returns 0 without a step. The first participant has moved to
normal, so something is lost, and by the equivalence the step cannot be appended. -/
theorem failed_round_keeps_iff_fullLobby :
    ∃ start s s' : Server plainExternal (plainSetup 44), StartsGame start ∧
      Reaches Server.step (fun _ _ => True) start s ∧
      shouldAdvanceAuthoritative s.game.participants s.game.authoritativeSteps = true ∧
      composeRound s = .ok (some 0, s') ∧ ¬NothingLost s s' ∧
      ¬(¬FullBefore COMPOSE_STEP_BUFFER_SIZE 1 ((stepEntries s).map (entryRecord plainExternal)) ∧
        ∀ octets, nextOctets s = some octets →
          0 ≤ (plainExternal.nbsStepsWrite s.game.authoritativeSteps (nextStepId s) octets).1) := by
  obtain ⟨start, s, s', hgame, hrun, hadvance, hround, hlost⟩ := exists_failedRound
  have hall : Reaches Server.step (fun _ _ => True) start s := hrun.mono fun _ _ _ => trivial
  have hiff := (failed_round_keeps_iff hgame hall hadvance).of_ok hround
  exact ⟨start, s, s', hgame, hall, hadvance, hround, hlost,
    fun happends => hlost (hiff.mpr happends (Option.some_ne_none 0))⟩

/-- The first client's join is announced nowhere. -/
theorem failed_round_loses_join :
    ∃ start s s' : Server plainExternal (plainSetup 44), StartsGame start ∧
      Reaches Server.step (fun _ _ => True) start s ∧
      shouldAdvanceAuthoritative s.game.participants s.game.authoritativeSteps = true ∧
      composeRound s = .ok (some 0, s') ∧ ¬NothingLost s s' := by
  obtain ⟨start, s, s', hgame, hrun, hadvance, hround, hlost⟩ := exists_failedRound
  exact ⟨start, s, s', hgame, hrun.mono fun _ _ _ => trivial, hadvance, hround, hlost⟩

/-! ### Steps that somebody holds -/

/-- The composed steps of a history, newest first, with the participants they were composed
from. -/
def composedEvents (log : List (Event E S)) :
    List (Vector (Participant E S) S.maxParticipantCount × StepId) :=
  log.filterMap fun
    | .composed before stepId _ => some (before, stepId)
    | .joined _ | .stored _ _ _ => none

/-- If the operation is a round, it is one that the loop enters and that appends its step. -/
def AppendsWhenComposed (s : Server E S) : Op S → Prop
  | .composeRound => s.Enabled .composeRound ∧ RoundAppends s
  | _ => True

/-- No buffer starts after the next step. Every composed step was stored in some buffer when
it was composed, and the next step is not past the last one stored then. -/
structure Provided (s : Server E S) : Prop where
  pool : PoolInvariant s.game.participants
  readId : ∀ i, (s.participant i).isUsed = true →
    E.expectedReadId (s.participant i).steps ≤ nextStepId s
  stored : ∀ before stepId, (before, stepId) ∈ composedEvents s.game.participants.log →
    ∃ i, (before.get i).isUsed = true ∧ Stores (before.get i).steps stepId
  latest : ∀ before stepId,
    (composedEvents s.game.participants.log).head? = some (before, stepId) →
    ∃ i, (before.get i).isUsed = true ∧ nextStepId s < E.expectedWriteId (before.get i).steps

namespace Provided

variable {s s' : Server E S}

/-- The starts of the buffers, the composed steps and the next step stay as they are. -/
theorem congr (h : Provided s) (hpool : PoolInvariant s'.game.participants)
    (hparticipant : ∀ i, (s'.participant i).isUsed = true → (s.participant i).isUsed = true ∧
      E.expectedReadId (s'.participant i).steps = E.expectedReadId (s.participant i).steps)
    (hlog : composedEvents s'.game.participants.log
      = composedEvents s.game.participants.log)
    (hnext : nextStepId s' = nextStepId s) : Provided s' := by
  refine ⟨hpool, fun i hi => ?_, ?_, ?_⟩
  · obtain ⟨hused, hread⟩ := hparticipant i hi
    rw [hread, hnext]
    exact h.readId i hused
  · rw [hlog]
    exact h.stored
  · rw [hlog, hnext]
    exact h.latest

/-- A new participant starts with an empty buffer at the next step. -/
theorem create [LawfulSteps E] (h : Provided s) {t : ConnectionPtr} {p : PartyPtr S}
    {players : List Nat} {i : ParticipantPtr S} {participants : Participants E S}
    (hjoin : ParticipantsJoinOutcome s.game.participants players p
      (E.expectedWriteId s.game.authoritativeSteps) (.ok i, participants)) :
    Provided (assignParty
      (addParty ((nameParty s p).setParticipants participants) p (some t) [i]) t p) := by
  have hpool := h.pool.join hjoin
  obtain ⟨-, x, -, -, -, hsteps, hget, hlog⟩ := hjoin.taken
  have hevents : composedEvents participants.log
      = composedEvents s.game.participants.log := by
    rw [hlog]
    rfl
  refine ⟨hpool, fun j hused => ?_, ?_, ?_⟩
  · have hparticipant : (assignParty (addParty ((nameParty s p).setParticipants participants)
        p (some t) [i]) t p).participant j = if i = j then x else s.participant j := hget j
    rw [hparticipant] at hused ⊢
    split at hused
    · rename_i hij
      rw [if_pos hij, hsteps, expectedReadId_reInit]
      exact UInt32.le_refl _
    · rename_i hij
      rw [if_neg hij]
      exact h.readId j hused
  · show ∀ before stepId, (before, stepId) ∈ composedEvents participants.log → _
    rw [hevents]
    exact h.stored
  · show ∀ before stepId, (composedEvents participants.log).head? = some (before, stepId) → _
    rw [hevents]
    exact h.latest

/-- Storing a step does not move the start of a buffer. -/
theorem storeStep (h : Provided s) {i : ParticipantPtr S} {steps : E.Steps}
    (hmore : OneMore (s.participant i).steps steps) :
    Provided (NimbleServer.storeStep s i (E.expectedWriteId (s.participant i).steps) steps) := by
  have hpool : PoolInvariant (s.game.participants.set i { s.participant i with steps }) :=
    h.pool.set i rfl rfl
  refine h.congr (hpool.congr (fun _ => rfl) (fun _ => rfl) rfl rfl) (fun j hj => ?_) rfl rfl
  rw [participant_storeStep] at hj ⊢
  split at hj
  · rename_i hij
    subst hij
    rw [if_pos rfl]
    exact ⟨hj, hmore.readId⟩
  · rename_i hij
    rw [if_neg hij]
    exact ⟨hj, rfl⟩

/-- If the loop is entered, some buffer holds the next step. -/
theorem exists_stores (h : Provided s) (hadvance : s.Enabled .composeRound) :
    ∃ i, (s.participant i).isUsed = true ∧ Stores (s.participant i).steps (nextStepId s) ∧
      (nextStepId s).toNat + 1 < (E.expectedWriteId (s.participant i).steps).toNat := by
  obtain ⟨i, hused, hcontributes, hahead⟩ := exists_ahead_of_shouldAdvance hadvance
  exact ⟨i, hused, ⟨h.readId i hused, hcontributes.2⟩, hahead⟩

/-- A round that appends its step moves every buffer by at most as much as the next step. -/
theorem round [LawfulSteps E] (h : Provided s) (hadvance : s.Enabled .composeRound)
    {r : Option Int × Server E S} (hr : RoundOutcome s r) (hnone : r.1 = none)
    (hpool : PoolInvariant r.2.game.participants) : Provided r.2 := by
  cases hr with
  | unstarted s' visited hoctets hwalked hvisited => cases hnone
  | refused s' octets hoctets hwalked hwrite => cases hnone
  | written s' octets hoctets hwalked hwrite =>
    obtain ⟨i, hused, hstores, hahead⟩ := h.exists_stores hadvance
    have hnext := toNat_expectedWriteId_write hwrite
    have hwritten : nextStepId (writtenServer s s' octets)
        = E.expectedWriteId (E.nbsStepsWrite s.game.authoritativeSteps
          (E.expectedWriteId s.game.authoritativeSteps) octets).2 := rfl
    refine ⟨hpool, fun j hj => ?_, ?_, ?_⟩
    · have hj : (s'.participant j).isUsed = true := hj
      show E.expectedReadId (s'.participant j).steps ≤ nextStepId (writtenServer s s' octets)
      rw [hwalked.participant j] at hj ⊢
      split at hj
      · rename_i hvisited
        rw [if_pos hvisited, composedParticipant_steps, UInt32.le_iff_toNat_le, hwritten, hnext]
        exact (readExact_kept (h.readId j hvisited.2)).1
      · rename_i hvisited
        exact absurd ⟨List.mem_finRange j, hj⟩ hvisited
    · intro before stepId hmem
      rcases List.mem_cons.mp hmem with heq | hold
      · -- The step of this round is held by whoever made the loop enter it.
        cases heq
        exact ⟨i, hused, hstores⟩
      · exact h.stored before stepId hold
    · intro before stepId hhead
      cases hhead
      refine ⟨i, hused, ?_⟩
      show nextStepId (writtenServer s s' octets) < _
      -- The next step is one further now, and whoever made the loop enter it was two ahead.
      rw [UInt32.lt_iff_toNat_lt, hwritten, hnext]
      exact hahead

end Provided

/-- Joins and stored steps keep it, -/
theorem provided_bufferRule [LawfulSteps E] : BufferRule (Provided (E := E) (S := S)) where
  pool := fun h => h.pool
  same := by
    intro s s' h hpool hparticipant hlog hnext
    refine h.congr hpool (fun i hi => ?_) (by rw [hlog]) hnext
    obtain ⟨hused, hsteps⟩ := hparticipant i
    exact ⟨hused.symm.trans hi, by rw [hsteps]⟩
  create := fun h hjoin => h.create hjoin
  stored := fun h hmore => h.storeStep hmore

/-- and so does each round that appends its step. -/
theorem provided_playRule [LawfulSteps E] [LawfulOutStreams E] :
    PlayRule (fun s op => op.IsPlay ∧ AppendsWhenComposed s op) (Provided (E := E) (S := S))
      (fun _ => True) where
  toRequestRule := provided_bufferRule.requestRule _
  store := fun _ t inStream uninitialized h _ =>
    provided_bufferRule.store h t inStream uninitialized
  compose := by
    intro s h hallowed
    obtain ⟨hadvance, happends⟩ := hallowed.2
    have hkeeps : ComposeKeeps (fun s : Server E S => PoolInvariant s.game.participants)
        (fun f => ¬f.IsPool) := (pool_playKeeps fun _ _ => True).toComposeKeeps
    refine ((composeRound_outcome h.pool.counted).and
      (hkeeps.composeRule.composeRound h.pool)).mono ?_ (fun _ _ => trivial)
    rintro r ⟨hr, hpool⟩
    exact h.round hadvance hr (hr.eq_none_iff.mpr happends) hpool

/-- At the start of a game nobody plays and nothing is composed. -/
theorem StartsGame.provided {s : Server E S} (h : StartsGame s) : Provided s := by
  obtain ⟨before, stepId, hinit⟩ := h
  obtain ⟨hpool, hparticipant, hlog, -, -, -, -⟩ :=
    (nimbleServerReInitWithGame_ensures before stepId).of_ok hinit
  refine ⟨hpool, fun i hused => ?_, ?_, ?_⟩
  · rw [hparticipant i] at hused
    cases hused
  · rw [hlog]
    rintro before stepId ⟨⟩
  · rw [hlog]
    rintro before stepId ⟨⟩

/-- On every run of a game whose rounds all append their step: when the loop is entered, some
used participant stores the next step; every composed step was stored by a participant that
was used when it was composed; and the next step is below the largest write id of the
participants that were used when the latest step was composed. -/
theorem composed_steps_were_provided [LawfulSteps E] [LawfulOutStreams E] {start s : Server E S}
    (hstart : StartsGame start)
    (hrun : Reaches Server.step (fun s op => op.IsPlay ∧ AppendsWhenComposed s op) start s) :
    (s.Enabled .composeRound →
      ∃ i, (s.participant i).isUsed = true ∧ Stores (s.participant i).steps (nextStepId s)) ∧
    (∀ before stepId, (before, stepId) ∈ composedEvents s.game.participants.log →
      ∃ i, (before.get i).isUsed = true ∧ Stores (before.get i).steps stepId) ∧
    ∀ before stepId,
      (composedEvents s.game.participants.log).head? = some (before, stepId) →
      ∃ i, (before.get i).isUsed = true ∧
        nextStepId s < E.expectedWriteId (before.get i).steps := by
  have hprovided := provided_playRule.reachable (fun _ _ hop => hop.1) hstart.provided hrun
  refine ⟨fun hadvance => ?_, hprovided.stored, hprovided.latest⟩
  obtain ⟨i, hused, hstores, -⟩ := hprovided.exists_stores hadvance
  exact ⟨i, hused, hstores⟩

/-- One client joins and sends four steps, of which the server composes two. -/
theorem composed_steps_were_provided_onePlayer :
    ∃ (start s : Server plainExternal (plainSetup 1)) (before : Vector _ _),
      StartsGame start ∧
      Reaches Server.step (fun s op => op.IsPlay ∧ AppendsWhenComposed s op) start s ∧
      (composedEvents s.game.participants.log).head? = some (before, 1) ∧
      ∃ i, (before.get i).isUsed = true ∧ Stores (before.get i).steps 1 := by
  obtain ⟨start, s, hstart, hrun, hs⟩ :=
    exists_run Server.step (fun s op => op.IsPlay ∧ s.Enabled op ∧ PlainFits s op)
      (fun s => (composedEvents s.game.participants.log).head?.map (·.2) = some 1)
      (plainGame 1)
      [.receive 0, .join 0 onePlayer (zeroLocals _),
        .incomingSteps 0 (gameStep 0 [[1], [2], [3], [4]]) (zeroLocals _),
        .composeRound, .composeRound]
      (by decide +kernel)
  have hgame := startsGame_of_blankGame hstart
  have happends : Reaches Server.step (fun s op => op.IsPlay ∧ AppendsWhenComposed s op)
      start s := by
    refine hrun.mono fun s op h => ⟨h.1, ?_⟩
    cases op with
    | composeRound => exact ⟨h.2.1, StepFits.roundAppends h.2.2.fitsWhenComposed⟩
    | _ => trivial
  obtain ⟨⟨before, stepId⟩, hhead, hid⟩ := Option.map_eq_some_iff.mp hs
  cases hid
  obtain ⟨-, hstored, -⟩ := composed_steps_were_provided hgame happends
  exact ⟨start, s, before, hgame, happends, hhead,
    hstored before 1 (List.mem_of_mem_head? hhead)⟩

/-- The lobby again, with libraries that take a step which was read before for one that is not
there. The round that fails has read step 0 from all buffers. The second client sends another
step, and with it the server composes step 0, which is in no buffer. -/
theorem composes_step_nobody_stores :
    LawfulSteps lenientExternal ∧
      ∃ start s : Server lenientExternal (plainSetup 44), StartsGame start ∧
        Reaches Server.step (fun s op => op.IsPlay ∧ s.Enabled op) start s ∧
        ∃ before, (before, 0) ∈ composedEvents s.game.participants.log ∧
          (∃ i, (before.get i).isUsed = true) ∧ ∀ i, ¬Stores (before.get i).steps 0 := by
  refine ⟨lenientExternal_lawfulSteps, ?_⟩
  obtain ⟨start, s, hstart, hrun, hcomposed⟩ :=
    exists_run Server.step (fun s op => op.IsPlay ∧ s.Enabled op)
      (fun s : Server lenientExternal (plainSetup 44) =>
        (composedEvents s.game.participants.log).head?.any (fun event :
            Vector (Participant lenientExternal (plainSetup 44)) _ × StepId => decide (
          event.2 = 0 ∧ (event.1.get (⟨0, by decide⟩ : Fin 44)).isUsed = true ∧
            ∀ i, ¬Stores (event.1.get i).steps 0)) = true)
      (blankGame lenientExternal (plainSetup 44))
      (fullLobby ++ [.composeRound, .incomingSteps 1 (gameStep 1 [[1]]) (zeroLocals _),
        .composeRound])
      (by decide +kernel)
  obtain ⟨⟨before, stepId⟩, hhead, hcheck⟩ := (Option.any_eq_true _ _).mp hcomposed
  obtain ⟨rfl, hused, hnobody⟩ := of_decide_eq_true hcheck
  exact ⟨start, s, startsGame_of_blankGame hstart, hrun, before,
    List.mem_of_mem_head? hhead, ⟨_, hused⟩, hnobody⟩

end NimbleServer
