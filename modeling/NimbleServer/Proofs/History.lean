import NimbleServer.Proofs.Round

/-!
# `NimbleServer.Proofs.History`: the authoritative steps of a game

The composed steps of a game, oldest first, and what holds of them on every run in which
each step fits its buffers: their ids are consecutive, and each of them can be read back as
entries with different participant ids (`history_reachable`).

`FittingRule` is the rule for such runs. A round is then looked at through what it writes
(`RoundWritten`). `StoredFor` says what storing predicted steps leaves alone.
-/

set_option autoImplicit false

namespace NimbleServer

open NimbleServer.Lib

variable {E : External} {S : Setup}

/-! ### The composed steps -/

/-- The composed steps, oldest first, with their ids. -/
def composedSteps (log : List (Event E S)) : List (StepId × List UInt8) :=
  log.reverse.filterMap fun
    | .composed _ stepId octets => some (stepId, octets)
    | .joined _ | .stored _ _ _ => none

/-- A join is no step, -/
@[simp] theorem composedSteps_joined (i : ParticipantPtr S) (log : List (Event E S)) :
    composedSteps (.joined i :: log) = composedSteps log := by
  simp [composedSteps]

/-- nor is a step that was only stored. -/
@[simp] theorem composedSteps_stored (i : ParticipantPtr S) (stepId : StepId) (steps : E.Steps)
    (log : List (Event E S)) :
    composedSteps (.stored i stepId steps :: log) = composedSteps log := by
  simp [composedSteps]

/-- The step of a round is the last one. -/
@[simp] theorem composedSteps_composed
    (participants : Vector (Participant E S) S.maxParticipantCount) (stepId : StepId)
    (octets : List UInt8) (log : List (Event E S)) :
    composedSteps (.composed participants stepId octets :: log)
      = composedSteps log ++ [(stepId, octets)] := by
  simp [composedSteps]

/-! ### Runs whose steps fit -/

/-- If the operation is a round, its step fits. -/
def FitsWhenComposed (s : Server E S) : Op S → Prop
  | .composeRound => StepFits s
  | _ => True

/-- With `plainExternal` it can be computed whether the step of a round fits. -/
@[reducible] def PlainFits (s : Server plainExternal S) : Op S → Prop
  | .composeRound => stepSize s ≤ COMPOSE_STEP_BUFFER_SIZE ∧
      (PlainSteps.append s.game.authoritativeSteps plainWindowSize []).isSome = true
  | _ => True

/-- The condition can be evaluated for each operation. -/
instance (s : Server plainExternal S) (op : Op S) : Decidable (PlainFits s op) :=
  Op.decidableOf (PlainFits s) op

/-- For these libraries the two computed conditions are those that a step fits. -/
theorem PlainFits.fitsWhenComposed {s : Server plainExternal S} {op : Op S}
    (h : PlainFits s op) : FitsWhenComposed s op := by
  cases op with
  | composeRound => exact ⟨h.1, plainExternal_nbsStepsWrite_nonneg h.2 _⟩
  | _ => trivial

/-- A property of the game and the parties on the runs whose steps fit. -/
structure FittingRule (inv : Server E S → Prop) : Prop
    extends RequestRule (fun _ _ => True) inv (fun _ => True) where
  pool : ∀ s, inv s → PoolInvariant s.game.participants
  store : ∀ s t inStream uninitialized, inv s →
    inv (readIncomingSteps s t inStream uninitialized).2.2
  round : ∀ s s', inv s → RoundWritten s s' → inv s'

/-- A rule of this kind holds on all runs whose steps fit. -/
theorem FittingRule.reachable [LawfulOutStreams E] {inv : Server E S → Prop} (h : FittingRule inv)
    {start s : Server E S} (hstart : inv start)
    (hrun : Reaches Server.step (fun s op => op.IsPlay ∧ FitsWhenComposed s op) start s) :
    inv s := by
  -- It is a rule for plays whose rounds are known to write their step.
  have hrule : PlayRule (fun s op => op.IsPlay ∧ FitsWhenComposed s op) inv (fun _ => True) :=
    { same := h.same
      join := fun s t request uninitialized r hs _ hr =>
        h.join s t request uninitialized r hs trivial hr
      joinFault := h.joinFault
      tick := h.tick
      tickFault := h.tickFault
      connectionFault := h.connectionFault
      store := fun s t inStream uninitialized hs _ => h.store s t inStream uninitialized hs
      compose := fun s hs hfits => (composeRound_fits (h.pool s hs) hfits.2).mono
        (fun r hr => h.round s r.2 hs hr.2) (fun _ _ => trivial) }
  exact hrule.reachable (fun _ _ hop => hop.1) hstart hrun

/-! ### What storing leaves alone -/

/-- Between the two states predicted steps were stored. Participants change at most in their
buffers. -/
structure StoredFor (s s' : Server E S) : Prop where
  participant : ∀ i, ∃ steps, s'.participant i = { s.participant i with steps }
  parties : SameParties s s'
  forcedStepInRowCounter : ∀ p, (s'.party p).quality.forcedStepInRowCounter
    = (s.party p).quality.forcedStepInRowCounter
  composedSteps : composedSteps s'.game.participants.log = composedSteps s.game.participants.log
  nextStepId : nextStepId s' = nextStepId s

/-- Noting that steps arrived does not touch the counter of forced steps. -/
theorem noteAddedSteps_forcedStepInRowCounter (self : LocalParty S) (steps : E.Steps)
    (total : Nat) :
    (noteAddedSteps self steps total).quality.forcedStepInRowCounter
      = self.quality.forcedStepInRowCounter := by
  unfold noteAddedSteps
  dsimp only
  split
  · split
    · rfl
    · rfl
  · rfl

/-- Nothing was stored. -/
theorem StoredFor.refl (s : Server E S) : StoredFor s s where
  participant := fun i => ⟨(s.participant i).steps, rfl⟩
  parties := .refl s
  forcedStepInRowCounter := fun _ => rfl
  composedSteps := rfl
  nextStepId := rfl

/-- One more step is stored, or the party notes what arrived. -/
theorem StoredFor.storeRule (s : Server E S) (p : PartyPtr S) : StoreRule p (StoredFor s) where
  single := by
    intro s' i stepId inStream h hi
    have hparties := ((SameParties.composeKeeps s).storeRule p).single s' i stepId inStream
      h.parties hi
    rcases hread : E.nbsStepsInSerializeSinglePredictedStep inStream stepId
      (s'.participant i).steps with ⟨added, consumed, steps⟩
    -- The buffer of the participant changes whether or not the step is taken.
    have hparticipant : ∀ j, ∃ steps',
        (s'.setParticipant i { s'.participant i with steps }).participant j
          = { s.participant j with steps := steps' } := by
      intro j
      obtain ⟨steps', hj⟩ := h.participant j
      rw [Server.participant_setParticipant]
      split
      · rename_i hij
        subst hij
        exact ⟨steps, by rw [hj]⟩
      · exact ⟨steps', hj⟩
    simp only [nimbleServerParticipantDeserializeSingleStep, hread] at hparties ⊢
    split
    · rename_i hadded
      rw [if_pos hadded] at hparties
      refine ⟨hparticipant, hparties, h.forcedStepInRowCounter, ?_, h.nextStepId⟩
      exact (composedSteps_stored i stepId steps _).trans h.composedSteps
    · rename_i hadded
      rw [if_neg hadded] at hparties
      exact ⟨hparticipant, hparties, h.forcedStepInRowCounter, h.composedSteps, h.nextStepId⟩
  note := by
    intro s' steps total h
    have hparties := ((SameParties.composeKeeps s).storeRule p).note s' steps total h.parties
    refine ⟨h.participant, hparties, ?_, h.composedSteps, h.nextStepId⟩
    intro q
    rw [Server.party_setParty]
    split
    · rename_i hpq
      rw [noteAddedSteps_forcedStepInRowCounter, hpq]
      exact h.forcedStepInRowCounter q
    · exact h.forcedStepInRowCounter q

/-- Discarding old steps does not move the next step id. -/
theorem Discarded.expectedWriteId [LawfulSteps E] {steps steps' : E.Steps}
    (h : Discarded steps steps') : E.expectedWriteId steps' = E.expectedWriteId steps := by
  rcases h with rfl | ⟨count, hcount, rfl⟩
  · rfl
  · exact (LawfulSteps.discard_ok steps count hcount).2.2

/-- A GameStep request stores steps and changes nothing else. -/
theorem StoredFor.of_readIncomingSteps [LawfulSteps E] (s : Server E S) (t : ConnectionPtr)
    (inStream : InStream) (uninitialized : Uninitialized S) :
    StoredFor s (readIncomingSteps s t inStream uninitialized).2.2 := by
  obtain ⟨steps, hsteps, hread⟩ := readIncomingSteps_cases s t inStream uninitialized
  -- Room is made in the authoritative buffer first, which drops old steps and no new ones.
  have hdiscard : StoredFor s { s with game := { s.game with authoritativeSteps := steps } } :=
    { StoredFor.refl s with
      parties := (SameParties.refl s).setGame _
      nextStepId := hsteps.expectedWriteId }
  rcases hread with hread | hread
  · rw [hread]
    exact hdiscard
  · rw [hread]
    exact StoreRule.handleIncomingSteps (StoredFor s) hdiscard
      (fun p _ => StoredFor.storeRule s p) inStream uninitialized

/-! ### Consecutive ids -/

/-- A write that succeeds moves the write id by one. -/
theorem toNat_expectedWriteId_write [LawfulSteps E] {steps : E.Steps} {octets : List UInt8}
    (h : 0 ≤ (E.nbsStepsWrite steps (E.expectedWriteId steps) octets).1) :
    (E.expectedWriteId (E.nbsStepsWrite steps (E.expectedWriteId steps) octets).2).toNat
      = (E.expectedWriteId steps).toNat + 1 := by
  obtain ⟨hstored, hread⟩ := LawfulSteps.write_ok steps (E.expectedWriteId steps) octets rfl h
  rw [LawfulSteps.writeId_eq, hread, hstored, LawfulSteps.writeId_eq, List.length_append]
  rfl

/-- The next step id after a round. -/
theorem RoundWritten.nextStepId_eq [LawfulSteps E] {s s' : Server E S} (h : RoundWritten s s') :
    (nextStepId s').toNat = (nextStepId s).toNat + 1 := by
  unfold nextStepId
  rw [h.authoritativeSteps]
  exact toNat_expectedWriteId_write h.accepted

/-- The composed steps have consecutive ids from `first` up to the next one. Each of them is
made of entries for different participants. -/
structure History (first : Nat) (s : Server E S) : Prop where
  pool : PoolInvariant s.game.participants
  ids : (composedSteps s.game.participants.log).map (fun step => step.1.toNat)
    = List.range' first (composedSteps s.game.participants.log).length
  next : (nextStepId s).toNat = first + (composedSteps s.game.participants.log).length
  entries : ∀ step ∈ composedSteps s.game.participants.log, ∃ entries,
    decodeStep E step.2 = some entries ∧ (entries.map (·.participantId)).Nodup

/-- No two entries of a step are for the same participant. -/
theorem nodup_participantId_stepEntries {s : Server E S}
    (hpool : PoolInvariant s.game.participants) :
    ((stepEntries s).map (·.participantId)).Nodup := by
  rw [map_participantId_stepEntries hpool]
  exact ((List.nodup_finRange _).filter _).map fun _ _ => slotOctet_injective hpool.capacity

/-- Whatever composes nothing keeps the history. -/
theorem History.of_same {first : Nat} {s s' : Server E S} (h : History first s)
    (hpool : PoolInvariant s'.game.participants)
    (hsteps : composedSteps s'.game.participants.log = composedSteps s.game.participants.log)
    (hnext : nextStepId s' = nextStepId s) : History first s' where
  pool := hpool
  ids := hsteps ▸ h.ids
  next := by rw [hsteps, hnext, h.next]
  entries := hsteps ▸ h.entries

/-- Every operation keeps the history, and a round appends to it. -/
theorem history_fittingRule [LawfulSteps E] [LawfulStepTypes E] (first : Nat) :
    FittingRule (E := E) (S := S) (History first) where
  pool := fun _ h => h.pool
  same := by
    intro s s' h hgame _
    refine h.of_same (by rw [hgame]; exact h.pool) (by rw [hgame]) ?_
    unfold nextStepId
    rw [hgame]
  join := by
    intro s t request uninitialized r h _ hr
    have hpool := (pool_playKeeps fun _ _ => True).join s t request uninitialized r h.pool
      trivial hr
    cases hr with
    -- Only a new party is written to the log.
    | created p i participants htype hfind hplace hjoin =>
      obtain ⟨-, -, -, -, -, -, -, hlog⟩ := hjoin.taken
      refine h.of_same hpool ?_ rfl
      show composedSteps participants.log = _
      rw [hlog, composedSteps_joined]
    | _ => exact h.of_same hpool rfl rfl
  joinFault := fun _ _ _ _ => trivial
  tick := by
    intro s p s' h hs'
    have hpool := (pool_playKeeps fun _ _ => True).tick s p s' h.pool hs'
    refine h.of_same hpool ?_ ?_
    · rw [hs'.log]
    · unfold nextStepId
      rw [hs'.authoritativeSteps]
  tickFault := fun _ _ _ _ _ => trivial
  connectionFault := fun _ _ => trivial
  store := by
    intro s t inStream uninitialized h
    have hstored := StoredFor.of_readIncomingSteps s t inStream uninitialized
    exact h.of_same ((pool_playKeeps fun _ _ => True).readIncomingSteps h.pool t inStream
      uninitialized) hstored.composedSteps hstored.nextStepId
  round := by
    intro s s' h hround
    have hsteps : composedSteps s'.game.participants.log
        = composedSteps s.game.participants.log
          ++ [(nextStepId s, encodeStep E (stepEntries s))] := by
      rw [hround.log, composedSteps_composed]
    refine ⟨hround.pool, ?_, ?_, ?_⟩
    · rw [hsteps, List.map_append, h.ids, List.length_append, List.length_singleton,
        List.range'_concat, Nat.one_mul, List.map_singleton, h.next]
    · rw [hround.nextStepId_eq, h.next, hsteps, List.length_append]
      rfl
    · rw [hsteps]
      intro step hstep
      rcases List.mem_append.mp hstep with hstep | hstep
      · exact h.entries step hstep
      · -- The new step is read back as the entries it was composed from.
        rw [List.mem_singleton.mp hstep]
        exact ⟨_, decodeStep_stepEntries h.pool, nodup_participantId_stepEntries h.pool⟩

/-- There is a history in every state of a game whose steps fit. -/
theorem history_reachable [LawfulSteps E] [LawfulStepTypes E] [LawfulOutStreams E]
    {start s : Server E S} (hstart : StartsGame start)
    (hrun : Reaches Server.step (fun s op => op.IsPlay ∧ FitsWhenComposed s op) start s) :
    ∃ first, History first s := by
  obtain ⟨before, stepId, hinit⟩ := hstart
  obtain ⟨hpool, -, hlog, -, -, -, -⟩ :=
    (nimbleServerReInitWithGame_ensures before stepId).of_ok hinit
  -- The first id is the one the game starts with.
  have hstart : History (nextStepId start).toNat start := by
    refine ⟨hpool, ?_, ?_, ?_⟩
    · rw [hlog]
      rfl
    · rw [hlog]
      rfl
    · rw [hlog]
      exact List.forall_mem_nil _
  exact ⟨_, (history_fittingRule _).reachable hstart hrun⟩

end NimbleServer
