import NimbleServer.Model.PlainServer
import NimbleServer.Proofs.OperationRules
import NimbleServer.Proofs.Storing

/-!
# `NimbleServer.Proofs.AuthoritativeBuffer`: the buffer of authoritative steps does not jam

Two thresholds in two files keep the authoritative buffer from filling up. A GameStep
request first discards steps until at most a third of the window is filled. Then steps are
composed as long as less than half of the window is filled. So the loop always has room to
compose when it is entered, and a step that it writes brings it closer to its end.

`authoritative_buffer_never_jams` says this for every window of at least two steps. There is
one exception: a third of three is as much as half of three, so with a window of three steps
the loop can be entered without room, and then no step is ever composed again
(`window_of_three_jams`).
-/

set_option autoImplicit false

namespace NimbleServer

open NimbleServer.Lib

variable {E : External} {S : Setup}

/-- How many authoritative steps are in the buffer. -/
def authoritativeCount (s : Server E S) : Nat := E.stepsCount s.game.authoritativeSteps

/-! ### Runs of requests

A GameStep request is one step of the run here, together with its reply. The game can be
frozen and thawed at any time, and all other operations can come between. -/

/-- One step of a run of requests. -/
inductive RequestOp (S : Setup)
  | gameStep (t : ConnectionPtr) (inStream : InStream) (outStream : OutStream)
      (uninitialized : Uninitialized S)
  | setFrozen (debugIsFrozen : Bool)
  | other (op : Op S)

/-- The state after one step of a run of requests. -/
def requestStep (s : Server E S) : RequestOp S → Result (Server E S)
  | .gameStep t inStream outStream uninitialized =>
    (nimbleServerReqGameStep s t inStream outStream uninitialized).map (·.2.2.2)
  | .setFrozen debugIsFrozen => pure { s with game := { s.game with debugIsFrozen } }
  | .other op => s.step op

/-- When the step can come next. -/
def RequestEnabled (s : Server E S) : RequestOp S → Prop
  | .gameStep t _ _ _ => s.Serving t
  | .setFrozen _ => True
  | .other op => s.Enabled op

/-- Each condition is one that can be evaluated. -/
instance (s : Server E S) : (op : RequestOp S) → Decidable (RequestEnabled s op)
  | .gameStep t _ _ _ => inferInstanceAs (Decidable (s.Serving t))
  | .setFrozen _ => inferInstanceAs (Decidable True)
  | .other op => inferInstanceAs (Decidable (s.Enabled op))

/-! ### Discarding and composing -/

/-- A step is composed only while less than half of the window is filled. -/
theorem count_lt_of_shouldAdvance {s : Server E S}
    (h : shouldAdvanceAuthoritative s.game.participants s.game.authoritativeSteps = true) :
    authoritativeCount s < E.NBS_WINDOW_SIZE / 2 := by
  simp only [shouldAdvanceAuthoritative, canAdvanceDueToDistanceFromLastState, Bool.and_eq_true,
    decide_eq_true_eq] at h
  exact h.2

/-- Composing the entries of a step does not touch the authoritative buffer, and it is not
what makes a loop diverge. -/
theorem composeOneAuthoritativeStep_buffer (s : Server E S) (lookingFor : StepId)
    (maxLength : Nat) :
    Ensures (composeOneAuthoritativeStep s lookingFor maxLength)
      (fun composed => composed.server.game.authoritativeSteps = s.game.authoritativeSteps)
      (fun fault => fault ≠ .composeDiverged) := by
  have hrule : ComposeStepRule
      (fun s' : Server E S => s'.game.authoritativeSteps = s.game.authoritativeSteps)
      (fun fault => fault ≠ .composeDiverged) :=
    { steps := fun _ _ _ h => h
      quality := fun _ _ _ h => h
      joined := fun _ _ h _ _ => h
      left := by
        intro s' i h _ _
        refine (nimbleServerParticipantsDestroy_fault s'.game.participants _).mono
          (fun _ _ => h) ?_
        -- Destroying a participant has its own stops, and this is none of them.
        rintro fault (rfl | rfl | rfl | rfl | rfl | rfl) <;> decide
      nullParty := fun _ _ _ _ _ => by decide
      stepsCorrupt := by decide }
  exact hrule.composeOneAuthoritativeStep rfl lookingFor maxLength

section Counted

variable [CountedSteps E]

/-- A request starts with at most a third of the window, whatever becomes of it. -/
theorem readIncomingSteps_count (s : Server E S) (t : ConnectionPtr) (inStream : InStream)
    (uninitialized : Uninitialized S) :
    authoritativeCount (readIncomingSteps s t inStream uninitialized).2.2
      ≤ E.NBS_WINDOW_SIZE / 3 := by
  have hdiscard : authoritativeCount (discardAuthoritativeStepsIfBufferGettingFull s).2
      ≤ E.NBS_WINDOW_SIZE / 3 := by
    simp only [discardAuthoritativeStepsIfBufferGettingFull]
    split
    · -- What is above the third is discarded.
      rename_i hfull
      show E.stepsCount (E.nbsStepsDiscardCount _ _).2 ≤ _
      rw [CountedSteps.discard_count _ _ (Nat.sub_le _ _)]
      omega
    · rename_i hroom
      exact Nat.not_lt.mp hroom
  unfold readIncomingSteps
  revert hdiscard
  rcases discardAuthoritativeStepsIfBufferGettingFull s with ⟨code, s1⟩
  intro hdiscard
  dsimp only at hdiscard ⊢
  split
  · exact hdiscard
  · unfold authoritativeCount
    rw [handleIncomingSteps_authoritativeSteps]
    exact hdiscard

/-- A round that writes a step adds one. Any round adds at most one. -/
theorem composeRound_count (s : Server E S) :
    Ensures (composeRound s)
      (fun r => authoritativeCount r.2 ≤ authoritativeCount s + 1 ∧
        (r.1 = none → authoritativeCount r.2 = authoritativeCount s + 1))
      (fun fault => fault ≠ .composeDiverged) := by
  unfold composeRound authoritativeCount
  refine (composeOneAuthoritativeStep_buffer s _ _).bind ?_
  intro composed hbuffer
  split
  · -- A step that could not be composed, or that is empty, is not written.
    exact ⟨by rw [hbuffer]; omega, by rintro ⟨⟩⟩
  · exact ⟨by rw [hbuffer]; omega, by rintro ⟨⟩⟩
  · dsimp only
    rw [hbuffer]
    split
    · rename_i hfailed
      exact ⟨CountedSteps.write_failed _ _ _ hfailed, by rintro ⟨⟩⟩
    · rename_i hwritten
      have hone := CountedSteps.write_count _ _ _ (Int.not_lt.mp hwritten)
      exact ⟨Nat.le_of_eq hone, fun _ => hone⟩

/-- The loop ends within the rounds that are left up to half of the window. Induction on the
bound of the loop. -/
theorem composeRounds_not_diverged (fuel : Nat) : ∀ (written : Nat) (s : Server E S),
    E.NBS_WINDOW_SIZE / 2 - authoritativeCount s ≤ fuel →
      composeRounds fuel written s ≠ .error .composeDiverged := by
  induction fuel with
  | zero =>
    intro written s hfuel hdiverged
    unfold composeRounds at hdiverged
    split at hdiverged
    · -- No round is left and yet there is room for a step: that is the contradiction.
      rename_i hadvance
      have := count_lt_of_shouldAdvance hadvance
      omega
    · cases hdiverged
  | succ fuel ih =>
    intro written s hfuel
    unfold composeRounds
    split
    · have hround := composeRound_count s
      revert hround
      rcases composeRound s with fault | ⟨_ | code, s'⟩
      · intro hfault hdiverged
        cases hdiverged
        exact hfault rfl
      · -- A step was written, so one round less is left.
        rintro ⟨-, hone⟩
        have := hone rfl
        dsimp only at this
        exact ih (written + 1) s' (by omega)
      · rintro - ⟨⟩
    · rintro ⟨⟩

/-- The loop stays within half of the window: it is left there, and a round adds at most one
step. -/
theorem composeRounds_count (fuel written : Nat) (s : Server E S)
    (hs : authoritativeCount s ≤ E.NBS_WINDOW_SIZE / 2) :
    Ensures (composeRounds fuel written s)
      (fun r => authoritativeCount r.2 ≤ E.NBS_WINDOW_SIZE / 2) (fun _ => True) := by
  refine composeRounds_ensures (fun s => authoritativeCount s ≤ E.NBS_WINDOW_SIZE / 2) trivial
    (fun _ _ hs => hs) ?_ fuel written s hs
  intro s _ hadvance
  have hroom := count_lt_of_shouldAdvance hadvance
  refine (composeRound_count s).mono ?_ fun _ _ => trivial
  rintro r ⟨hone, -⟩
  have hcount : authoritativeCount r.2 ≤ E.NBS_WINDOW_SIZE / 2 := by omega
  exact ⟨hcount, fun _ _ => hcount⟩

end Counted

/-- A loop that ends within its bound does the same under any larger bound. Induction on the
bound. -/
theorem composeRounds_add (fuel extra : Nat) : ∀ (written : Nat) (s : Server E S),
    composeRounds fuel written s ≠ .error .composeDiverged →
      composeRounds (fuel + extra) written s = composeRounds fuel written s := by
  induction fuel with
  | zero =>
    intro written s hends
    unfold composeRounds at hends
    split at hends
    · exact absurd rfl hends
    · rename_i hadvance
      cases extra <;> simp [composeRounds, hadvance]
  | succ fuel ih =>
    intro written s hends
    rw [Nat.add_right_comm]
    unfold composeRounds at hends ⊢
    by_cases hadvance :
        shouldAdvanceAuthoritative s.game.participants s.game.authoritativeSteps = true
    · rw [if_pos hadvance] at hends
      rw [if_pos hadvance, if_pos hadvance]
      revert hends
      -- Both bounds run the same first round.
      rcases composeRound s with fault | ⟨_ | code, s'⟩
      · intro _
        rfl
      · exact ih (written + 1) s'
      · intro _
        rfl
    · rw [if_neg hadvance, if_neg hadvance]

/-! ### Runs -/

section Runs

variable [CountedSteps E]

/-- A new game starts with an empty buffer. -/
theorem reInitWithGame_count (s : Server E S) (stepId : StepId) :
    Ensures (nimbleServerReInitWithGame s stepId) (fun s' => authoritativeCount s' = 0)
      (fun _ => True) := by
  unfold nimbleServerReInitWithGame
  refine Ensures.bind_of (fun _ => True) (Ensures.of_eq_ok fun _ _ => trivial) fun game _ => ?_
  exact CountedSteps.reInit_count _ _

/-- No operation fills more than half of the window. -/
theorem step_count {s : Server E S} (hs : authoritativeCount s ≤ E.NBS_WINDOW_SIZE / 2)
    {op : Op S} (hop : s.Enabled op) :
    Ensures (s.step op) (fun s' => authoritativeCount s' ≤ E.NBS_WINDOW_SIZE / 2)
      (fun _ => True) := by
  -- Most operations leave the buffer alone.
  have hsame : ∀ s' : Server E S, s'.game.authoritativeSteps = s.game.authoritativeSteps →
      authoritativeCount s' ≤ E.NBS_WINDOW_SIZE / 2 := by
    intro s' hbuffer
    unfold authoritativeCount
    rw [hbuffer]
    exact hs
  have hconnection : op.IsConnection → Ensures (s.step op)
      (fun s' => authoritativeCount s' ≤ E.NBS_WINDOW_SIZE / 2) (fun _ => True) := fun hc =>
    (step_isConnection_ensures s hc).mono (fun s' h => hsame s' (by rw [h.1]))
      (fun _ _ => trivial)
  cases op with
  | join t request uninitialized =>
    exact Ensures.map ((joinGame_ensures s t request uninitialized).mono
      (fun r hr => hsame r.2 hr.authoritativeSteps) (fun _ _ => trivial))
  -- A third is not more than half, whatever was in the buffer before.
  | incomingSteps t inStream uninitialized =>
    have hthird := readIncomingSteps_count s t inStream uninitialized
    show authoritativeCount (readIncomingSteps s t inStream uninitialized).2.2 ≤ _
    omega
  | composeRound =>
    -- The round was enabled, so there was room for one more.
    have hroom := count_lt_of_shouldAdvance hop
    refine Ensures.map ((composeRound_count s).mono ?_ (fun _ _ => trivial))
    rintro ⟨result, s'⟩ ⟨hone, -⟩
    dsimp only at hone ⊢
    omega
  | tick =>
    refine tickParties_ensures hs ?_ (fun _ _ _ _ _ => trivial)
    intro s p s' h hs'
    unfold authoritativeCount
    rw [hs'.authoritativeSteps]
    exact h
  | reInitWithGame stepId =>
    refine (reInitWithGame_count s stepId).mono (fun s' h => ?_) (fun _ _ => trivial)
    rw [h]
    exact Nat.zero_le _
  | hostMigration infos uninitialized =>
    exact Ensures.map ((nimbleServerHostMigration_ensures
      (fun s' => authoritativeCount s' ≤ E.NBS_WINDOW_SIZE / 2) hs (fun _ _ h => h)
      (fun _ _ h _ => h) (fun _ _ _ _ h _ => h) infos uninitialized).mono (fun _ h => h)
      (fun _ _ => trivial))
  | connectionDisconnected t =>
    exact Ensures.map ((connectionDisconnected_ensures
      (fun s' => authoritativeCount s' ≤ E.NBS_WINDOW_SIZE / 2) hs t fun _ _ _ => hs).mono
      (fun _ h => h) (fun _ _ => trivial))
  | _ => exact hconnection trivial

/-- A whole GameStep request, with all the steps it composes. -/
theorem reqGameStep_count (s : Server E S) (t : ConnectionPtr) (inStream : InStream)
    (outStream : OutStream) (uninitialized : Uninitialized S) :
    Ensures (nimbleServerReqGameStep s t inStream outStream uninitialized)
      (fun r => authoritativeCount r.2.2.2 ≤ E.NBS_WINDOW_SIZE / 2) (fun _ => True) := by
  have hread := readIncomingSteps_count s t inStream uninitialized
  unfold nimbleServerReqGameStep
  refine Ensures.bind_of (fun r => authoritativeCount r.2.2 ≤ E.NBS_WINDOW_SIZE / 2)
    (readIncomingStepsAndCreateAuthoritativeSteps_ensures (by omega)
      (composeRounds_count (E.NBS_WINDOW_SIZE / 2) 0)) ?_
  rintro ⟨code | ⟨waitingFor, receiveMask⟩, rest, s1⟩ hs1
  · exact hs1
  · exact hs1

/-- In every state of a run of requests at most half of the window is filled. -/
theorem authoritativeCount_reachable {start s : Server E S} (hstart : StartsGame start)
    (hrun : Reaches requestStep RequestEnabled start s) :
    authoritativeCount s ≤ E.NBS_WINDOW_SIZE / 2 := by
  have hempty : authoritativeCount start ≤ E.NBS_WINDOW_SIZE / 2 := by
    obtain ⟨before, stepId, hinit⟩ := hstart
    rw [(reInitWithGame_count before stepId).of_ok hinit]
    exact Nat.zero_le _
  have hstep : ∀ (s : Server E S) op, authoritativeCount s ≤ E.NBS_WINDOW_SIZE / 2 →
      RequestEnabled s op → Ensures (requestStep s op)
        (fun s' => authoritativeCount s' ≤ E.NBS_WINDOW_SIZE / 2) (fun _ => True) := by
    intro s op hs hop
    cases op with
    | gameStep t inStream outStream uninitialized =>
      exact Ensures.map (reqGameStep_count s t inStream outStream uninitialized)
    | setFrozen debugIsFrozen => exact hs
    | other op => exact step_count hs hop
  exact hrun.invariant _ hempty hstep

/-- On every run of GameStep requests and other operations, for every window of at least two
steps: at most half of the window is filled. When a request comes to the compose loop at
most a third is filled, so there is room for a step unless the window has exactly three. And
from any state the loop ends within as many rounds as are left up to half of the window: a
larger bound on its rounds changes nothing. -/
theorem authoritative_buffer_never_jams {start s : Server E S}
    (hwindow : 2 ≤ E.NBS_WINDOW_SIZE) (hstart : StartsGame start)
    (hrun : Reaches requestStep RequestEnabled start s) :
    E.stepsCount s.game.authoritativeSteps ≤ E.NBS_WINDOW_SIZE / 2 ∧
    (∀ t inStream uninitialized waitingFor rest s',
      readIncomingSteps s t inStream uninitialized = (.ok waitingFor, rest, s') →
        E.stepsCount s'.game.authoritativeSteps ≤ E.NBS_WINDOW_SIZE / 3 ∧
        (E.NBS_WINDOW_SIZE ≠ 3 →
          canAdvanceDueToDistanceFromLastState s'.game.authoritativeSteps = true)) ∧
    (∀ (x : Server E S) (rounds : Nat),
      E.NBS_WINDOW_SIZE / 2 - E.stepsCount x.game.authoritativeSteps ≤ rounds →
        composeRounds rounds 0 x ≠ .error .composeDiverged ∧
        composeRounds rounds 0 x = composeRounds
          (E.NBS_WINDOW_SIZE / 2 - E.stepsCount x.game.authoritativeSteps) 0 x) := by
  refine ⟨authoritativeCount_reachable hstart hrun, ?_, ?_⟩
  · intro t inStream uninitialized waitingFor rest s' hread
    have hthird := readIncomingSteps_count s t inStream uninitialized
    rw [hread] at hthird
    refine ⟨hthird, fun hthree => ?_⟩
    have hcount : E.stepsCount s'.game.authoritativeSteps ≤ E.NBS_WINDOW_SIZE / 3 := hthird
    -- The two thresholds are different for every other window of at least two steps.
    have hroom : E.NBS_WINDOW_SIZE / 3 < E.NBS_WINDOW_SIZE / 2 := by omega
    simpa [canAdvanceDueToDistanceFromLastState] using Nat.lt_of_le_of_lt hcount hroom
  · -- The rounds that are left suffice, and a loop that has ended does not use more.
    intro x rounds hrounds
    have hends := composeRounds_not_diverged
      (E.NBS_WINDOW_SIZE / 2 - E.stepsCount x.game.authoritativeSteps) 0 x (Nat.le_refl _)
    have hadd := composeRounds_add _ (rounds - (E.NBS_WINDOW_SIZE / 2
      - E.stepsCount x.game.authoritativeSteps)) 0 x hends
    rw [Nat.add_sub_of_le hrounds] at hadd
    exact ⟨fun hdiverged => hends (hadd.symm.trans hdiverged), hadd⟩

end Runs

/-- A client joins and sends four steps in one request. A step was composed, and there is
room for the next request. -/
theorem authoritative_buffer_never_jams_composed :
    ∃ start s : Server plainExternal (plainSetup 1), StartsGame start ∧
      Reaches requestStep RequestEnabled start s ∧
      0 < plainExternal.stepsCount s.game.authoritativeSteps ∧
      plainExternal.stepsCount s.game.authoritativeSteps ≤ 60 := by
  obtain ⟨start, s, hstart, hrun, hcomposed⟩ :=
    exists_run requestStep RequestEnabled
      (fun s : Server plainExternal (plainSetup 1) =>
        0 < plainExternal.stepsCount s.game.authoritativeSteps)
      (plainGame 1) [.other (.receive 0), .other (.join 0 onePlayer (zeroLocals _)),
        .gameStep 0 (gameStep 0 [[7], [7], [7], [7]]) (plainExternal.fldOutStreamInit 100)
          (zeroLocals _)]
      (by decide +kernel)
  have hgame := startsGame_of_blankGame hstart
  exact ⟨start, s, hgame, hrun, hcomposed,
    (authoritative_buffer_never_jams (by decide) hgame hrun).1⟩

/-- Libraries with a window of three steps. -/
def narrowExternal : External := { plainExternal with NBS_WINDOW_SIZE := 3 }

/-- The window does not occur in how steps are counted. -/
instance narrowExternal_countedSteps : CountedSteps narrowExternal where
  reInit_count := plainExternal_countedSteps.reInit_count
  write_count := plainExternal_countedSteps.write_count
  write_failed := plainExternal_countedSteps.write_failed
  discard_count := plainExternal_countedSteps.discard_count

/-- With a window of three steps: a client joins and sends four steps, and one step is
composed. At the next request the loop is entered without room for a step. -/
theorem window_of_three_jams :
    narrowExternal.NBS_WINDOW_SIZE = 3 ∧ CountedSteps narrowExternal ∧
    ∃ start s : Server narrowExternal (plainSetup 1), StartsGame start ∧
      Reaches requestStep RequestEnabled start s ∧
      ∃ waitingFor rest s', readIncomingSteps s 0 (gameStep 4 [[7], [7], [7], [7]])
          (zeroLocals _) = (.ok waitingFor, rest, s') ∧
        canAdvanceDueToDistanceFromLastState s'.game.authoritativeSteps = false := by
  obtain ⟨start, s, hstart, hrun, hread, hjam⟩ :=
    exists_run requestStep RequestEnabled
      (fun s : Server narrowExternal (plainSetup 1) =>
        (readIncomingSteps s 0 (gameStep 4 [[7], [7], [7], [7]]) (zeroLocals _)).1
          = .ok (0, 0) ∧
        canAdvanceDueToDistanceFromLastState (readIncomingSteps s 0
          (gameStep 4 [[7], [7], [7], [7]]) (zeroLocals _)).2.2.game.authoritativeSteps = false)
      (blankGame narrowExternal (plainSetup 1)) [.other (.receive 0),
        .other (.join 0 onePlayer (zeroLocals _)),
        .gameStep 0 (gameStep 0 [[7], [7], [7], [7]]) (plainExternal.fldOutStreamInit 100)
          (zeroLocals _)]
      (by decide +kernel)
  exact ⟨rfl, narrowExternal_countedSteps, start, s, startsGame_of_blankGame hstart, hrun, _, _, _,
    Prod.ext hread rfl, hjam⟩

end NimbleServer
