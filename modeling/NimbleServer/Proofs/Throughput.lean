import NimbleServer.Proofs.AuthoritativeBuffer
import NimbleServer.Proofs.LockstepRefinement

/-!
# `NimbleServer.Proofs.Throughput`: how many steps a request composes

`nimbleServerComposeAuthoritativeSteps` composes one step after the other until its loop
condition fails. In the game in lockstep the condition is that a round is due and that the
authoritative buffer has room (`shouldAdvance_iff`), so the number of steps has a closed form.
With `fastest` and `slowest` the inputs of the place that is furthest and of the one that is
least ahead, and nobody leaving, it is

  `max (fastest - 4) (min (fastest - 2) slowest)`

or the room in the buffer, whichever is less (`composed_steps_exact`). Two consequences can be
read off. Somebody who sends nothing holds the others back by four steps and no more. And
somebody who is three inputs ahead with everybody else having one gets a step composed.
-/

set_option autoImplicit false

namespace NimbleServer

open NimbleServer.Lib

variable {E : External} {S : Setup}

/-! ### The loop condition -/

/-- No buffer is so full that the source's count of its steps wraps around. -/
def CountsExactly (s : Server E S) : Prop := ∀ i, (gameOf s).ahead i < 2 ^ 32 - 1

/-- The source asks for a count above 5, or above 3 if everybody contributes. Its count is one
more than the inputs, so 5 inputs are enough, or 3. -/
theorem shouldCompose_iff_due [LawfulSteps E] {s : Server E S} (h : BackReferences s)
    (hweaving : Weaving s) (hexact : CountsExactly s) :
    shouldComposeNewAuthoritativeStep s.game.participants (nextStepId s) = true ↔
      (gameOf s).Due 3 5 := by
  have hread := fun i hi => (hweaving.buffers i hi).readId
  have hahead := fun i hi => ahead_gameOf (i := i) hi (h.inParty i hi) (hread i hi)
  -- Only a taken place has inputs.
  have hused : ∀ i, 0 < (gameOf s).ahead i → (s.participant i).isUsed = true := by
    intro i hi
    refine isSome_seat_gameOf ?_
    cases hseat : (gameOf s).seat i with
    | none =>
      rw [Lockstep.ahead_of_none hseat] at hi
      exact absurd hi (Nat.lt_irrefl 0)
    | some seat => rfl
  -- The source counts one more than there are inputs, if there are any.
  have hcount : ∀ i bound, (s.participant i).isUsed = true → 0 < bound →
      (bound < participantCanAdvanceStepCount (s.participant i).steps (nextStepId s) ↔
        bound ≤ (gameOf s).ahead i) := by
    intro i bound hi hbound
    have hlt := hexact i
    rw [hahead i hi] at hlt ⊢
    rw [participantCanAdvanceStepCount_eq (hread i hi)]
    split
    · omega
    · omega
  have hcontributes : ∀ i, (s.participant i).isUsed = true →
      (Contributes (s.participant i).steps (nextStepId s) ↔ 0 < (gameOf s).ahead i) := by
    intro i hi
    have hle := UInt32.le_iff_toNat_le.mp (hread i hi)
    rw [contributes_iff (hread i hi), mem_storedIds, hahead i hi, storedFrom_eq (hread i hi)]
    omega
  have hexists : ∀ bound, 0 < bound →
      ((∃ i, (s.participant i).isUsed = true ∧
        bound < participantCanAdvanceStepCount (s.participant i).steps (nextStepId s)) ↔
        ∃ i, bound ≤ (gameOf s).ahead i) := by
    intro bound hbound
    constructor
    · rintro ⟨i, hi, hlt⟩
      exact ⟨i, (hcount i bound hi hbound).mp hlt⟩
    · rintro ⟨i, hi⟩
      have hi' := hused i (by omega)
      exact ⟨i, hi', (hcount i bound hi' hbound).mpr hi⟩
  have hall : (∀ i, (s.participant i).isUsed = true →
      Contributes (s.participant i).steps (nextStepId s)) ↔
      ∀ i, ((gameOf s).seat i).isSome → 0 < (gameOf s).ahead i := by
    constructor
    · intro hall i hi
      have hi' := isSome_seat_gameOf hi
      exact (hcontributes i hi').mp (hall i hi')
    · intro hall i hi
      obtain ⟨p, hp⟩ := Option.ne_none_iff_exists'.mp (h.inParty i hi)
      have hseat : (gameOf s).seat i = _ := seatOf_of_isUsed hi hp rfl rfl
      exact (hcontributes i hi).mpr (hall i (hseat ▸ rfl))
  refine (shouldComposeNewAuthoritativeStep_iff s.game.participants (nextStepId s)).trans ?_
  unfold Lockstep.Due
  exact or_comm.trans
    (or_congr (hexists 5 (by decide)) (and_congr (hexists 3 (by decide)) hall))

/-- The loop goes on as long as a round is due and the buffer has room. -/
theorem shouldAdvance_iff [LawfulSteps E] {s : Server E S} (h : BackReferences s)
    (hweaving : Weaving s) (hexact : CountsExactly s) :
    s.Enabled .composeRound ↔
      0 < (gameOf s).roundsInARow 3 5 ∧ authoritativeCount s < E.NBS_WINDOW_SIZE / 2 := by
  rw [← Lockstep.due_iff_roundsInARow (by decide) (by decide),
    ← shouldCompose_iff_due h hweaving hexact]
  exact Bool.and_eq_true_iff.trans (and_congr Iff.rfl decide_eq_true_iff)

/-! ### A round does not stop -/

/-- In a state that is in order nothing stops the round, the pool apart. -/
theorem PlayedFrom.not_composeStops [LawfulSteps E] {start s : Server E S}
    (h : PlayedFrom start s) {fault : Fault} (hpool : ¬fault.IsPool) :
    ¬ComposeStops (nextStepId s) (List.finRange S.maxParticipantCount) s fault := by
  intro hstops
  cases hstops with
  | nullParty i hi hused hparty => exact h.back.inParty i hused hparty
  | stepsCorrupt i hi hused code hcode hread =>
    have hreadId := (h.weaving.buffers i hused).readId
    by_cases hlt : nextStepId s < E.expectedWriteId (s.participant i).steps
    · rw [(LawfulSteps.readExact_stored _ _ hreadId hlt).1] at hread
      cases hread
    · rw [(LawfulSteps.readExact_missing _ _ (UInt32.not_lt.mp hlt)).1] at hread
      cases hread
      exact hcode rfl
  | freeListFull hfull => exact hpool trivial

/-- A round whose step fits returns, and its step is written. -/
theorem PlayedFrom.composeRound_eq [LawfulSteps E] [LawfulOutStreams E] {start s : Server E S}
    (h : PlayedFrom start s) (hfits : StepFits s) :
    ∃ s', composeRound s = .ok (none, s') ∧ RoundWritten s s' := by
  have hpool : Ensures (composeRound s) (fun _ => True) (fun f => ¬f.IsPool) :=
    ((pool_playKeeps fun _ _ => True).toComposeKeeps.composeRule.composeRound
      h.weaving.pool).mono (fun _ _ => trivial) fun _ hf => hf
  have hreturns : Ensures (composeRound s) (fun r => r.1 = none ∧ RoundWritten s r.2)
      (fun _ => False) :=
    (((composeRound_fits h.weaving.pool hfits).and
      (composeRound_outcome h.weaving.pool.counted)).and hpool).mono
      (fun _ hr => hr.1.1) fun _ hf => h.not_composeStops hf.2 hf.1.2
  obtain ⟨⟨result, s'⟩, hround, hnone, hwritten⟩ := hreturns.exists_ok
  exact ⟨s', by rw [hround, show result = none from hnone], hwritten⟩

/-- A written step is one more in the authoritative buffer. -/
theorem RoundWritten.count [LawfulSteps E] {s s' : Server E S} (h : RoundWritten s s') :
    authoritativeCount s' = authoritativeCount s + 1 := by
  obtain ⟨hstored, -⟩ := LawfulSteps.write_ok s.game.authoritativeSteps (nextStepId s) _ rfl
    h.accepted
  unfold authoritativeCount
  rw [h.authoritativeSteps, LawfulSteps.stepsCount_eq, LawfulSteps.stepsCount_eq, hstored,
    List.length_append, List.length_singleton]

/-! ### The loop -/

/-- Every round that the loop can enter from here fits its buffers. -/
def RoundsFit (s : Server E S) : Prop :=
  ∀ s', Reaches Server.step (fun s op => op = .composeRound ∧ s.Enabled op) s s' →
    s'.Enabled .composeRound → StepFits s'

/-- The loop with enough fuel. Induction on the fuel. -/
theorem composeRounds_exact [LawfulSteps E] [LawfulStepTypes E] [LawfulOutStreams E]
    {start : Server E S} (fuel : Nat) :
    ∀ (written : Nat) (s : Server E S), PlayedFrom start s → CountsExactly s →
      RoundsFit s → E.NBS_WINDOW_SIZE / 2 - authoritativeCount s ≤ fuel →
      ∃ (count : Nat) (s' : Server E S),
        count = min (E.NBS_WINDOW_SIZE / 2 - authoritativeCount s)
          ((gameOf s).roundsInARow 3 5) ∧
        composeRounds fuel written s = .ok (((written + count : Nat) : Int), s') ∧
        gameOf s' = Lockstep.advance^[count] (gameOf s) := by
  -- The loop ends here. Either no round is due or there is no room, so the minimum is zero.
  have hended : ∀ (fuel written : Nat) (s : Server E S), PlayedFrom start s → CountsExactly s →
      ¬s.Enabled .composeRound →
      ∃ (count : Nat) (s' : Server E S),
        count = min (E.NBS_WINDOW_SIZE / 2 - authoritativeCount s)
          ((gameOf s).roundsInARow 3 5) ∧
        composeRounds fuel written s = .ok (((written + count : Nat) : Int), s') ∧
        gameOf s' = Lockstep.advance^[count] (gameOf s) := by
    intro fuel written s h hexact hnot
    have hloop : composeRounds fuel written s = .ok ((written : Int), s) := by
      cases fuel <;> exact if_neg hnot
    rw [shouldAdvance_iff h.back h.weaving hexact] at hnot
    exact ⟨0, s, by omega, hloop, rfl⟩
  induction fuel with
  | zero =>
    intro written s h hexact hfit hfuel
    refine hended 0 written s h hexact fun hadvance => ?_
    have hroom := ((shouldAdvance_iff h.back h.weaving hexact).mp hadvance).2
    omega
  | succ fuel ih =>
    intro written s h hexact hfit hfuel
    by_cases hadvance : s.Enabled .composeRound
    · obtain ⟨hdue, hroom⟩ := (shouldAdvance_iff h.back h.weaving hexact).mp hadvance
      have hfits := hfit s .refl hadvance
      obtain ⟨s1, hround, hwritten⟩ := h.composeRound_eq hfits
      have hstep : s.step .composeRound = .ok s1 := by
        show (composeRound s).map (·.2) = _
        rw [hround]
        rfl
      have hgame := gameOf_round h.back h.weaving hwritten
      have hplay : (Op.composeRound : Op S).IsPlay := .inl trivial
      have h1 : PlayedFrom start s1 :=
        ((PlayedFrom.playRule start).step h ⟨hplay, hadvance, hfits⟩ hplay).of_ok hstep
      -- A round takes inputs away and adds none.
      have hexact1 : CountsExactly s1 := by
        intro i
        rw [hgame]
        exact Nat.lt_of_le_of_lt (Lockstep.ahead_advance_le _ i) (hexact i)
      have hfit1 : RoundsFit s1 := fun s' hs' =>
        hfit s' ((Reaches.single ⟨rfl, hadvance⟩ hstep).trans hs')
      have hcount := hwritten.count
      have hrounds := Lockstep.roundsInARow_advance hdue
      obtain ⟨count, s', hcount', hloop, hgame'⟩ :=
        ih (written + 1) s1 h1 hexact1 hfit1 (by omega)
      refine ⟨count + 1, s', ?_, ?_, ?_⟩
      · rw [hgame, hcount] at hcount'
        omega
      · have hfirst : composeRounds (fuel + 1) written s = composeRounds fuel (written + 1) s1 := by
          refine (if_pos hadvance).trans ?_
          rw [hround]
          rfl
        rw [hfirst, hloop, Nat.add_right_comm, Nat.add_assoc]
      · rw [hgame', hgame, Function.iterate_succ_apply]
    · exact hended (fuel + 1) written s h hexact hadvance

/-- In every state of a game whose steps fit their buffers, a call of
`nimbleServerComposeAuthoritativeSteps` returns how many steps it composed: as many as rounds
are due in a row, but not more than the authoritative buffer has room for. If nobody is
leaving, the rounds that are due depend on the place that is furthest ahead and the one that
is least ahead. -/
theorem composed_steps_exact [LawfulSteps E] [LawfulStepTypes E] [LawfulOutStreams E]
    {start s : Server E S} (hstart : StartsGame start) (hrun : Reaches Server.step
      (fun s op => op.IsPlay ∧ s.Enabled op ∧ FitsWhenComposed s op) start s)
    (hexact : CountsExactly s) (hfit : RoundsFit s) :
    ∃ (count : Nat) (s' : Server E S),
      nimbleServerComposeAuthoritativeSteps s = .ok ((count : Int), s') ∧
      gameOf s' = Lockstep.advance^[count] (gameOf s) ∧
      count = min (E.NBS_WINDOW_SIZE / 2 - authoritativeCount s)
        ((gameOf s).roundsInARow 3 5) ∧
      ((∀ i, (s.participant i).isUsed = true → (s.participant i).state ≠ .leaving) →
        count = min (E.NBS_WINDOW_SIZE / 2 - authoritativeCount s)
          (max ((gameOf s).fastest - 4) (min ((gameOf s).fastest - 2) (gameOf s).slowest))) := by
  have h := playedFrom_reachable hstart hrun
  obtain ⟨count, s', hcount, hloop, hgame⟩ :=
    composeRounds_exact (E.NBS_WINDOW_SIZE / 2) 0 s h hexact hfit (Nat.sub_le _ _)
  rw [Nat.zero_add] at hloop
  refine ⟨count, s', hloop, hgame, hcount, fun hstay => ?_⟩
  -- The phases of the game are the states of the participants.
  have hnobody : (gameOf s).NobodyLeaves := by
    intro i seat hseat hleaving
    have hi := isSome_seat_gameOf (hseat ▸ rfl : ((gameOf s).seat i).isSome)
    obtain ⟨p, hp⟩ := Option.ne_none_iff_exists'.mp (h.back.inParty i hi)
    have hseat' : (gameOf s).seat i = _ := seatOf_of_isUsed hi hp rfl rfl
    rw [hseat, Option.some.injEq] at hseat'
    rw [hseat'] at hleaving
    exact hstay i hi (phaseOf_eq_leaving.mp hleaving)
  rw [Lockstep.roundsInARow_of_nobodyLeaves hnobody] at hcount
  exact hcount

/-- Whether the rounds that the loop enters fit, computed round by round. -/
def plainRoundsFit : Nat → Server plainExternal S → Bool
  | 0, s => !decide (s.Enabled .composeRound)
  | fuel + 1, s => !decide (s.Enabled .composeRound) ||
    (decide (PlainFits s .composeRound) &&
      (s.step .composeRound).toOption.all (plainRoundsFit fuel))

/-- What was computed for every round is true of every state that the loop reaches. -/
theorem roundsFit_of_plainRoundsFit {fuel : Nat} {s : Server plainExternal S}
    (h : plainRoundsFit fuel s = true) : RoundsFit s := by
  intro s' hs' hadvance'
  have hinv : ∃ fuel, plainRoundsFit fuel s' = true := by
    induction hs' with
    | refl => exact ⟨fuel, h⟩
    | tail _ hop hstep ih =>
      obtain ⟨rfl, hadvance⟩ := hop
      obtain ⟨fuel, hfuel⟩ := ih hadvance
      have hentered := decide_eq_true hadvance
      cases fuel with
      | zero => simp [plainRoundsFit, hentered] at hfuel
      | succ fuel =>
        simp only [plainRoundsFit, hentered, hstep, Except.toOption, Bool.not_true,
          Bool.false_or, Option.all_some, Bool.and_eq_true] at hfuel
        exact ⟨fuel, hfuel.2⟩
  obtain ⟨fuel, hfuel⟩ := hinv
  have hentered := decide_eq_true hadvance'
  cases fuel with
  | zero => simp [plainRoundsFit, hentered] at hfuel
  | succ fuel =>
    simp only [plainRoundsFit, hentered, Bool.not_true, Bool.false_or, Bool.and_eq_true,
      decide_eq_true_eq] at hfuel
    exact hfuel.1.fitsWhenComposed

/-- Two clients join. The first sends one step and the second six, and two steps are
composed: the second client keeps a lead of four. -/
theorem composed_steps_exact_twoPlayers :
    ∃ s s' : Server plainExternal (plainSetup 2),
      nimbleServerComposeAuthoritativeSteps s = .ok (2, s') ∧
      gameOf s' = Lockstep.advance^[2] (gameOf s) := by
  obtain ⟨start, s, hstart, hrun, hexact, hfit, hstay, hroom, hfastest, hslowest⟩ :=
    exists_run Server.step (fun s op => op.IsPlay ∧ s.Enabled op ∧ PlainFits s op)
      (fun s : Server plainExternal (plainSetup 2) =>
        (∀ i, (gameOf s).ahead i < 2 ^ 32 - 1) ∧ plainRoundsFit 3 s = true ∧
        (∀ i, (s.participant i).isUsed = true → (s.participant i).state ≠ .leaving) ∧
        plainExternal.NBS_WINDOW_SIZE / 2 - authoritativeCount s = 60 ∧
        (gameOf s).fastest = 6 ∧ (gameOf s).slowest = 1)
      (plainGame 2)
      [.receive 0, .receive 1, .join 0 onePlayer (zeroLocals _),
        .join 1 onePlayer (zeroLocals _),
        .incomingSteps 0 (gameStep 0 [[7]]) (zeroLocals _),
        .incomingSteps 1 (gameStep 0 (List.replicate 6 [8])) (zeroLocals _)]
      (by decide +kernel)
  have hfits : Reaches Server.step
      (fun s op => op.IsPlay ∧ s.Enabled op ∧ FitsWhenComposed s op) start s :=
    hrun.mono fun _ _ h => ⟨h.1, h.2.1, h.2.2.fitsWhenComposed⟩
  obtain ⟨count, s', hloop, hgame, -, hcount⟩ :=
    composed_steps_exact (startsGame_of_blankGame hstart) hfits hexact
      (roundsFit_of_plainRoundsFit hfit)
  have htwo : count = 2 := by
    rw [hcount hstay, hroom, hfastest, hslowest]
    rfl
  subst htwo
  exact ⟨s, s', hloop, hgame⟩

end NimbleServer
