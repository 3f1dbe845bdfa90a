import NimbleServer.Lib.Lockstep
import NimbleServer.Proofs.Contribution
import NimbleServer.Proofs.Rejoining
import NimbleServer.Proofs.Weaving

/-!
# `NimbleServer.Proofs.LockstepRefinement`: the server plays a game in lockstep

`Lib/Lockstep.lean` is what the server is for: players hand in inputs, and a round takes one
input of each. `gameOf` reads such a game off the server. A seat is a used participant, its
group is its party, and its inputs are what its buffer holds from the next step on. Buffers,
step ids, pools, references, connections and qualities are not seen any more.

`server_refines_lockstep` says that the server plays this game on every run whose steps fit
their buffers: each operation is a few moves of the game or none, a round is composed only
when one is due, and the authoritative steps are, octet for octet, the encoded reports of
the rounds. A predicted step that comes too late is no move at all.
-/

set_option autoImplicit false

namespace NimbleServer

open NimbleServer.Lib

variable {E : External} {S : Setup}

/-! ### The inputs in a buffer -/

/-- The payloads that the buffer holds from a step on. -/
def pendingFrom (steps : E.Steps) (next : Nat) : List (List UInt8) :=
  (E.storedPayloads steps).drop (next - (E.expectedReadId steps).toNat)

section Buffer

variable [LawfulSteps E] {steps steps' : E.Steps} {next : StepId}

/-- The number of inputs is the distance to the write id. -/
theorem length_pendingFrom (hread : E.expectedReadId steps ≤ next) :
    (pendingFrom steps next.toNat).length = (E.expectedWriteId steps).toNat - next.toNat := by
  have hle := UInt32.le_iff_toNat_le.mp hread
  have hwrite := LawfulSteps.writeId_eq steps
  unfold pendingFrom
  rw [List.length_drop]
  omega

/-- It is the number of stored steps from the next one on. -/
theorem length_pendingFrom_eq_storedFrom (hread : E.expectedReadId steps ≤ next) :
    (pendingFrom steps next.toNat).length = storedFrom steps next := by
  rw [length_pendingFrom hread, storedFrom_eq hread]

/-- A new buffer holds no inputs. -/
theorem pendingFrom_reInit (steps : E.Steps) (next : StepId) :
    pendingFrom (E.nbsStepsReInit steps next) next.toNat = [] := by
  unfold pendingFrom
  rw [LawfulSteps.reInit_stored, List.drop_nil]

omit [LawfulSteps E] in
/-- A step that is not late goes to the end, and a late one is not seen. -/
theorem pendingFrom_oneMore (hread : E.expectedReadId steps ≤ next)
    (hmore : OneMore steps steps') :
    (∃ payload, pendingFrom steps' next.toNat = pendingFrom steps next.toNat ++ [payload]) ∨
      pendingFrom steps' next.toNat = pendingFrom steps next.toNat := by
  have hle := UInt32.le_iff_toNat_le.mp hread
  obtain ⟨payload, -, hstored⟩ := hmore.payload
  unfold pendingFrom
  rw [hstored, hmore.readId]
  by_cases hlate : next.toNat - (E.expectedReadId steps).toNat
      ≤ (E.storedPayloads steps).length
  · exact .inl ⟨payload, List.drop_append_of_le_length hlate⟩
  · -- The buffer is behind the next step, so both sides are empty.
    refine .inr ?_
    have hlength : (E.storedPayloads steps ++ [payload]).length
        = (E.storedPayloads steps).length + 1 := List.length_append
    rw [List.drop_eq_nil_of_le (by omega), List.drop_eq_nil_of_le (by omega)]

/-- The step that the server looks for is the first one. -/
theorem head?_pendingFrom (hread : E.expectedReadId steps ≤ next) :
    (pendingFrom steps next.toNat).head?
      = (E.nbsStepsReadExactStepId steps next).1.toOption := by
  have hle := UInt32.le_iff_toNat_le.mp hread
  rw [toOption_readExact hread]
  unfold pendingFrom bufferedPayload
  rw [List.head?_drop, windowAt_of_le hle]

/-- Reading takes it off. -/
theorem pendingFrom_readExact (hread : E.expectedReadId steps ≤ next) :
    pendingFrom (E.nbsStepsReadExactStepId steps next).2 (next.toNat + 1)
      = (pendingFrom steps next.toNat).tail := by
  have hle := UInt32.le_iff_toNat_le.mp hread
  have hwrite := LawfulSteps.writeId_eq steps
  have hwrite' := LawfulSteps.writeId_eq (E.nbsStepsReadExactStepId steps next).2
  unfold pendingFrom
  rw [List.tail_drop]
  by_cases hlt : next < E.expectedWriteId steps
  · have hlt' := UInt32.lt_iff_toNat_lt.mp hlt
    obtain ⟨-, hstored, hsame⟩ := LawfulSteps.readExact_stored steps next hread hlt
    rw [hsame, hstored, List.length_drop] at hwrite'
    rw [hstored, List.drop_drop]
    congr 1
    omega
  · -- There is no such step, and nothing before or after the read.
    have hge := UInt32.not_lt.mp hlt
    have hge' := UInt32.le_iff_toNat_le.mp hge
    obtain ⟨-, -, hsame⟩ := LawfulSteps.readExact_missing steps next hge
    rw [hsame] at hwrite'
    rw [List.drop_eq_nil_of_le (by omega), List.drop_eq_nil_of_le (by omega)]

end Buffer

/-! ### The game on the server -/

/-- What a participant is doing. A used participant is never destroyed. -/
def phaseOf : ParticipantState → SeatPhase
  | .justJoined => .entering
  | .normal | .destroyed => .playing
  | .waitingForRejoin => .absent
  | .leaving => .leaving

/-- The seat of a participant. -/
def seatOf (x : Participant E S) (next : Nat) : Option (Seat (PartyPtr S) (List UInt8)) :=
  if x.isUsed then
    x.inParty.map fun p =>
      { group := p, phase := phaseOf x.state, pending := pendingFrom x.steps next }
  else none

/-- The game in lockstep that the server plays. -/
def gameOf (s : Server E S) : Lockstep (ParticipantPtr S) (PartyPtr S) (List UInt8) where
  round := (nextStepId s).toNat
  seat := fun i => seatOf (s.participant i) (nextStepId s).toNat

/-- A slot that is not used is an empty place. -/
theorem seatOf_of_not_isUsed {x : Participant E S} (h : x.isUsed = false) (next : Nat) :
    seatOf x next = none := by
  unfold seatOf
  rw [h]
  rfl

/-- A used participant has a seat with these parts. -/
theorem seatOf_of_isUsed {x : Participant E S} {next : Nat} {p : PartyPtr S}
    {phase : SeatPhase} {pending : List (List UInt8)} (h : x.isUsed = true)
    (hparty : x.inParty = some p) (hphase : phaseOf x.state = phase)
    (hpending : pendingFrom x.steps next = pending) :
    seatOf x next = some { group := p, phase, pending } := by
  unfold seatOf
  rw [if_pos h, hparty, hphase.symm, hpending.symm]
  rfl

/-- Only the participants and the next step matter to the game. -/
theorem gameOf_congr {s s' : Server E S}
    (hparticipant : ∀ i, s'.participant i = s.participant i)
    (hnext : nextStepId s' = nextStepId s) : gameOf s' = gameOf s := by
  unfold gameOf
  rw [hnext]
  simp only [hparticipant]

/-- The parties and connections do not matter to it. -/
theorem gameOf_eq_of_game {s s' : Server E S} (h : s'.game = s.game) : gameOf s' = gameOf s :=
  gameOf_congr (fun i => congrArg (fun game => game.participants.get i) h)
    (congrArg (fun game : Game E S => E.expectedWriteId game.authoritativeSteps) h)

/-! ### The steps of the game -/

/-- What a step says about a participant, given the report. -/
def reportContent : Report (PartyPtr S) (List UInt8) → EntryContent
  | .entered p input => .joined (UInt8.ofNat p.val) (input.getD [])
  | .played input => wovenContent input
  | .absent => .waitingForReJoin
  | .left => .left

/-- The entries of a round, in the order of the places. -/
def roundEntries (reports : ParticipantPtr S → Option (Report (PartyPtr S) (List UInt8))) :
    List StepEntry :=
  (List.finRange S.maxParticipantCount).filterMap fun i =>
    (reports i).map fun report => ⟨slotOctet i, reportContent report⟩

/-- The authoritative step of a round. -/
def roundStep (E : External)
    (round : Nat × (ParticipantPtr S → Option (Report (PartyPtr S) (List UInt8)))) :
    StepId × List UInt8 :=
  (UInt32.ofNat round.1, encodeStep E (roundEntries round.2))

/-! ### Moves -/

/-- From the first state to the second the game is played on, and the steps that were
composed are those of its rounds. -/
def PlaysOnTo (s s' : Server E S) : Prop :=
  ∃ rounds, Lockstep.Run 3 5 (gameOf s) rounds (gameOf s') ∧
    composedSteps s'.game.participants.log
      = composedSteps s.game.participants.log ++ rounds.map (roundStep E)

namespace PlaysOnTo

variable {s s' s'' : Server E S}

/-- Playing on twice. -/
theorem trans (h : PlaysOnTo s s') (h' : PlaysOnTo s' s'') : PlaysOnTo s s'' := by
  obtain ⟨rounds, hrun, hsteps⟩ := h
  obtain ⟨rounds', hrun', hsteps'⟩ := h'
  refine ⟨rounds ++ rounds', hrun.trans hrun', ?_⟩
  rw [hsteps', hsteps, List.map_append, List.append_assoc]

/-- The game is not touched. -/
theorem of_eq (hgame : gameOf s' = gameOf s)
    (hsteps : composedSteps s'.game.participants.log = composedSteps s.game.participants.log) :
    PlaysOnTo s s' := by
  refine ⟨[], ?_, ?_⟩
  · rw [hgame]
    exact .refl
  · rw [hsteps, List.map_nil, List.append_nil]

/-- One move between two rounds. -/
theorem of_move (m : Move (ParticipantPtr S) (PartyPtr S) (List UInt8))
    (hpermits : (gameOf s).Permits m) (hgame : gameOf s' = (gameOf s).play m)
    (hsteps : composedSteps s'.game.participants.log = composedSteps s.game.participants.log) :
    PlaysOnTo s s' := by
  refine ⟨[], ?_, ?_⟩
  · rw [hgame]
    exact .move m .refl hpermits
  · rw [hsteps, List.map_nil, List.append_nil]

end PlaysOnTo

/-- A new participant takes its seat. -/
theorem playsOnTo_create [LawfulSteps E] {s : Server E S} {t : ConnectionPtr} {p : PartyPtr S}
    {players : List Nat} {i : ParticipantPtr S} {participants : Participants E S}
    (hjoin : ParticipantsJoinOutcome s.game.participants players p
      (E.expectedWriteId s.game.authoritativeSteps) (.ok i, participants)) :
    PlaysOnTo s (assignParty
      (addParty ((nameParty s p).setParticipants participants) p (some t) [i]) t p) := by
  obtain ⟨hfree, x, hused, hparty, hstate, hsteps, hget, hlog⟩ := hjoin.taken
  refine .of_move (.enter i p) (seatOf_of_not_isUsed hfree _) ?_ ?_
  · refine Lockstep.ext rfl (funext fun j => ?_)
    show seatOf (participants.get j) _ = Function.update (gameOf s).seat i _ j
    rw [hget j]
    by_cases hij : i = j
    · -- The buffer of the new participant starts at the next step and is empty.
      subst hij
      rw [if_pos rfl, Function.update_self]
      refine seatOf_of_isUsed hused hparty (by rw [hstate]; rfl) ?_
      rw [hsteps]
      exact pendingFrom_reInit _ _
    · rw [if_neg hij, Function.update_of_ne (Ne.symm hij)]
      rfl
  · show composedSteps participants.log = _
    rw [hlog, composedSteps_joined]

/-- In the game, the participants that a party references are its group without those that
are leaving. -/
theorem BackReferences.mem_iff {s : Server E S} (h : BackReferences s) {p : PartyPtr S}
    (hused : (s.party p).isUsed = true) {i : ParticipantPtr S} :
    i ∈ (s.party p).participantReferences ↔ (s.participant i).isUsed = true ∧
      (s.participant i).inParty = some p ∧ (s.participant i).state ≠ .leaving := by
  constructor
  · intro hi
    obtain ⟨hi, hin, hleaving, -⟩ := (h.references.parties p hused).member i hi
    exact ⟨hi, hin, hleaving⟩
  · rintro ⟨hi, hin, hleaving⟩
    obtain ⟨q, hq, hmem⟩ := h.owner i hi hleaving
    have hin' := ((h.references.parties q hq).member i hmem).2.1
    rw [hin, Option.some.injEq] at hin'
    exact hin' ▸ hmem

/-- Only a leaving participant has a leaving seat. -/
theorem phaseOf_eq_leaving {state : ParticipantState} :
    phaseOf state = .leaving ↔ state = .leaving := by
  cases state <;> simp [phaseOf]

/-- The states of the participants of a party are set, so its group changes its phase. -/
theorem gameOf_regroup {s s' : Server E S} (h : BackReferences s) {p : PartyPtr S}
    (hused : (s.party p).isUsed = true) {state : ParticipantState}
    (hparticipant : ∀ i, s'.participant i
      = if i ∈ (s.party p).participantReferences then { s.participant i with state }
        else s.participant i)
    (hnext : nextStepId s' = nextStepId s) :
    gameOf s' = { gameOf s with
      seat := fun i => ((gameOf s).seat i).map (Seat.regroup p (phaseOf state)) } := by
  refine Lockstep.ext (congrArg UInt32.toNat hnext) (funext fun i => ?_)
  show seatOf (s'.participant i) (nextStepId s').toNat
    = (seatOf (s.participant i) (nextStepId s).toNat).map _
  rw [hnext, hparticipant i]
  by_cases hi : (s.participant i).isUsed = true
  · obtain ⟨q, hq⟩ := Option.ne_none_iff_exists'.mp (h.inParty i hi)
    rw [seatOf_of_isUsed (x := s.participant i) hi hq rfl rfl, Option.map_some]
    unfold Seat.regroup
    dsimp only
    by_cases hmem : i ∈ (s.party p).participantReferences
    · -- In the source the party lists its participants, in the game each seat names its group.
      obtain ⟨-, hin, hleaving⟩ := (h.mem_iff hused).mp hmem
      rw [hq, Option.some.injEq] at hin
      rw [if_pos hmem, if_pos ⟨hin, fun hl => hleaving (phaseOf_eq_leaving.mp hl)⟩]
      exact seatOf_of_isUsed hi hq rfl rfl
    · rw [if_neg hmem, if_neg]
      · exact seatOf_of_isUsed hi hq rfl rfl
      rintro ⟨hqp, hleaving⟩
      exact hmem ((h.mem_iff hused).mpr
        ⟨hi, hqp ▸ hq, fun hl => hleaving (phaseOf_eq_leaving.mpr hl)⟩)
  · have hfree : (s.participant i).isUsed = false := Bool.eq_false_iff.mpr hi
    have hmem : i ∉ (s.party p).participantReferences :=
      fun hmem => hi ((h.mem_iff hused).mp hmem).1
    rw [if_neg hmem, seatOf_of_not_isUsed hfree]
    rfl

/-- The round of a party in a tick is at most one move: a group is suspended or withdrawn. -/
theorem playsOnTo_tick {s s' : Server E S} {p : PartyPtr S} (h : BackReferences s)
    (hs' : TickOutcome s p s') : PlaysOnTo s s' := by
  have hlog := hs'.log
  have hsteps : composedSteps s'.game.participants.log
      = composedSteps s.game.participants.log := by rw [hlog]
  have hnext : nextStepId s' = nextStepId s := by
    unfold nextStepId
    rw [hs'.authoritativeSteps]
  cases hs' with
  | unused hused => exact .of_eq rfl rfl
  | kept counter hused hstate hcounter => exact .of_eq rfl rfl
  | waited hused hstate => exact .of_eq rfl rfl
  | stale hused hstate => exact .of_eq rfl rfl
  -- Only these three touch the participants.
  | lost counter hused hstate hfailing =>
    exact .of_move (.suspend p) trivial
      (gameOf_regroup h hused (participant_lost s p counter) hnext) hsteps
  | dissolved hused hstate hcount hconnection =>
    exact .of_move (.withdraw p) trivial
      (gameOf_regroup h hused (participant_dissolved s p) hnext) hsteps
  | disconnected t hused hstate hcount hconnection hfull =>
    exact .of_move (.withdraw p) trivial
      (gameOf_regroup h hused (participant_dissolved s p) hnext) hsteps

/-- A stored step is an input that is handed in, if it is not late. -/
theorem playsOnTo_storeStep [LawfulSteps E] {s : Server E S} (h : BackReferences s)
    {i : ParticipantPtr S} (hused : (s.participant i).isUsed = true)
    (hstate : (s.participant i).state ≠ .leaving)
    (hread : E.expectedReadId (s.participant i).steps ≤ nextStepId s) {steps : E.Steps}
    (hmore : OneMore (s.participant i).steps steps) (stepId : StepId) :
    PlaysOnTo s (storeStep s i stepId steps) := by
  obtain ⟨p, hp⟩ := Option.ne_none_iff_exists'.mp (h.inParty i hused)
  have hseat : (gameOf s).seat i = some {
      group := p
      phase := phaseOf (s.participant i).state
      pending := pendingFrom (s.participant i).steps (nextStepId s).toNat } :=
    seatOf_of_isUsed hused hp rfl rfl
  have hother : ∀ j, i ≠ j → (storeStep s i stepId steps).participant j = s.participant j :=
    fun j hij => (participant_storeStep s i j stepId steps).trans (if_neg hij)
  have hself : (storeStep s i stepId steps).participant i = { s.participant i with steps } :=
    (participant_storeStep s i i stepId steps).trans (if_pos rfl)
  have hsteps : composedSteps (storeStep s i stepId steps).game.participants.log
      = composedSteps s.game.participants.log := composedSteps_stored i stepId steps _
  rcases pendingFrom_oneMore hread hmore with ⟨payload, hpending⟩ | hpending
  · refine .of_move (.provide i payload)
      ⟨_, hseat, fun hl => hstate (phaseOf_eq_leaving.mp hl)⟩ ?_ hsteps
    refine Lockstep.ext rfl (funext fun j => ?_)
    show seatOf ((storeStep s i stepId steps).participant j) (nextStepId s).toNat
      = Function.update (gameOf s).seat i (((gameOf s).seat i).map _) j
    by_cases hij : i = j
    · subst hij
      rw [hself, Function.update_self, hseat]
      exact seatOf_of_isUsed hused hp rfl hpending
    · rw [hother j hij, Function.update_of_ne (Ne.symm hij)]
      rfl
  · -- A late step is in the buffer and not in the game.
    refine .of_eq (Lockstep.ext rfl (funext fun j => ?_)) hsteps
    show seatOf ((storeStep s i stepId steps).participant j) (nextStepId s).toNat
      = (gameOf s).seat j
    by_cases hij : i = j
    · subst hij
      rw [hself, hseat]
      exact seatOf_of_isUsed hused hp rfl hpending
    · rw [hother j hij]
      rfl

/-! ### Rounds -/

/-- When the source composes, in terms of single participants. -/
theorem shouldComposeNewAuthoritativeStep_iff (participants : Participants E S)
    (lookingFor : StepId) :
    shouldComposeNewAuthoritativeStep participants lookingFor = true ↔
      ((∃ i, (participants.get i).isUsed = true ∧
          3 < participantCanAdvanceStepCount (participants.get i).steps lookingFor) ∧
        ∀ i, (participants.get i).isUsed = true →
          Contributes (participants.get i).steps lookingFor) ∨
      ∃ i, (participants.get i).isUsed = true ∧
        5 < participantCanAdvanceStepCount (participants.get i).steps lookingFor := by
  unfold shouldComposeNewAuthoritativeStep
  rw [maxPredicted_eq]
  simp only [Bool.or_eq_true, Bool.and_eq_true, decide_eq_true_eq, beq_iff_eq, gt_iff_lt,
    Finset.lt_sup_iff, mem_usedSlots, Finset.card_eq_zero, Finset.filter_eq_empty_iff, not_not]

/-- The number of inputs at a place. -/
theorem ahead_gameOf [LawfulSteps E] {s : Server E S} {i : ParticipantPtr S}
    (hused : (s.participant i).isUsed = true) (hparty : (s.participant i).inParty ≠ none)
    (hread : E.expectedReadId (s.participant i).steps ≤ nextStepId s) :
    (gameOf s).ahead i = storedFrom (s.participant i).steps (nextStepId s) := by
  obtain ⟨p, hp⟩ := Option.ne_none_iff_exists'.mp hparty
  have hseat : (gameOf s).seat i = _ := seatOf_of_isUsed hused hp rfl rfl
  rw [Lockstep.ahead_of_seat hseat]
  exact length_pendingFrom_eq_storedFrom hread

/-- Seats are taken by used participants only. -/
theorem isSome_seat_gameOf {s : Server E S} {i : ParticipantPtr S}
    (h : ((gameOf s).seat i).isSome) : (s.participant i).isUsed = true := by
  by_contra hused
  have hnone : (gameOf s).seat i = none :=
    seatOf_of_not_isUsed (Bool.eq_false_iff.mpr hused) _
  rw [hnone] at h
  cases h

/-- A round is composed only when one is due. -/
theorem due_of_enabled [LawfulSteps E] {s : Server E S} (h : BackReferences s)
    (hweaving : Weaving s) (henabled : s.Enabled .composeRound) : (gameOf s).Due 3 5 := by
  have hread := fun i hi => (hweaving.buffers i hi).readId
  have hahead := fun i hi => ahead_gameOf (i := i) hi (h.inParty i hi) (hread i hi)
  -- The source counts one step too many, and compares with one more.
  have hcount : ∀ i bound, (s.participant i).isUsed = true →
      bound < participantCanAdvanceStepCount (s.participant i).steps (nextStepId s) →
      bound ≤ (gameOf s).ahead i := by
    intro i bound hi hlt
    rw [participantCanAdvanceStepCount_eq (hread i hi)] at hlt
    rw [hahead i hi]
    split at hlt
    · omega
    · omega
  have hshould : shouldComposeNewAuthoritativeStep s.game.participants (nextStepId s) = true :=
    (Bool.and_eq_true_iff.mp henabled).1
  rcases (shouldComposeNewAuthoritativeStep_iff s.game.participants (nextStepId s)).mp hshould
    with ⟨⟨i, hi, hlt⟩, hall⟩ | ⟨i, hi, hlt⟩
  · refine .inr ⟨⟨i, hcount i 3 hi hlt⟩, fun j hj => ?_⟩
    have hj := isSome_seat_gameOf hj
    have hmem := (contributes_iff (hread j hj)).mp (hall j hj)
    rw [mem_storedIds] at hmem
    rw [hahead j hj, storedFrom_eq (hread j hj)]
    omega
  · exact .inl ⟨i, hcount i 5 hi hlt⟩

/-- The seat of a participant after its entry was composed. -/
theorem seatOf_composedParticipant [LawfulSteps E] {x : Participant E S} {p : PartyPtr S}
    {next : StepId} (hused : x.isUsed = true) (hparty : x.inParty = some p)
    (hread : E.expectedReadId x.steps ≤ next) :
    seatOf (composedParticipant x next) (next.toNat + 1) = Seat.next {
      group := p
      phase := phaseOf x.state
      pending := pendingFrom x.steps next.toNat } := by
  have hpending := pendingFrom_readExact hread
  unfold composedParticipant
  cases hstate : x.state with
  -- Composing the entry of a leaving participant destroys it, so the place is empty.
  | leaving => exact seatOf_of_not_isUsed rfl _
  | justJoined => exact seatOf_of_isUsed hused hparty rfl hpending
  | waitingForRejoin | normal | destroyed =>
    exact seatOf_of_isUsed hused hparty rfl hpending

/-- A round on the server is a round of the game. -/
theorem gameOf_round [LawfulSteps E] {s s' : Server E S} (h : BackReferences s)
    (hweaving : Weaving s) (hround : RoundWritten s s') : gameOf s' = (gameOf s).advance := by
  have hnext := hround.nextStepId_eq
  refine Lockstep.ext hnext (funext fun i => ?_)
  show seatOf (s'.participant i) (nextStepId s').toNat
    = (seatOf (s.participant i) (nextStepId s).toNat).bind Seat.next
  rw [hnext, hround.participant i]
  by_cases hi : (s.participant i).isUsed = true
  · obtain ⟨p, hp⟩ := Option.ne_none_iff_exists'.mp (h.inParty i hi)
    rw [if_pos hi, seatOf_composedParticipant hi hp (hweaving.buffers i hi).readId,
      seatOf_of_isUsed (x := s.participant i) hi hp rfl rfl]
    rfl
  · rw [if_neg hi, seatOf_of_not_isUsed (Bool.eq_false_iff.mpr hi),
      seatOf_of_not_isUsed (Bool.eq_false_iff.mpr hi)]
    rfl

/-- The entry of a participant is its report. -/
theorem composedEntry_eq_report [LawfulSteps E] {s : Server E S} (h : BackReferences s)
    (hnamed : PartiesNamed s) (hweaving : Weaving s) {i : ParticipantPtr S} {p : PartyPtr S}
    (hi : (s.participant i).isUsed = true) (hp : (s.participant i).inParty = some p) :
    composedEntry s (nextStepId s) i = ⟨slotOctet i, reportContent (Seat.report {
      group := p
      phase := phaseOf (s.participant i).state
      pending := pendingFrom (s.participant i).steps (nextStepId s).toNat })⟩ := by
  have hid : (s.participant i).id = slotOctet i := hweaving.pool.id i hi
  have hhead : (pendingFrom (s.participant i).steps (nextStepId s).toNat).head?
      = providedStep (s.participant i) (nextStepId s) :=
    head?_pendingFrom (hweaving.buffers i hi).readId
  have hprovided := hweaving.providedStep_eq hi
  have hcounted := hweaving.countedOctets_accepted hi
  unfold composedEntry composedType Seat.report
  rw [hid]
  refine congrArg (StepEntry.mk (slotOctet i)) ?_
  dsimp only
  rw [hhead]
  cases hstate : (s.participant i).state with
  | waitingForRejoin | leaving => rfl
  | justJoined =>
    -- The party of a participant that just joined is in use, so its id is its slot.
    obtain ⟨q, hq, hmem⟩ := h.owner i hi (by rw [hstate]; rintro ⟨⟩)
    have hpq := ((h.references.parties q hq).member i hmem).2.1
    rw [hp, Option.some.injEq] at hpq
    have hparty : partyIdOf s (s.participant i) = UInt8.ofNat p.val := by
      unfold partyIdOf
      rw [hp]
      exact hnamed p (hpq ▸ hq)
    show EntryContent.joined (partyIdOf s (s.participant i)) (countedOctets _)
      = .joined (UInt8.ofNat p.val) _
    rw [hparty, hprovided, hcounted]
  | normal | destroyed =>
    show entryContent (if (providedStep (s.participant i) (nextStepId s)).isSome then _ else _)
      _ _ = wovenContent (providedStep (s.participant i) (nextStepId s))
    rw [hprovided]
    cases haccepted : acceptedPayload i (nextStepId s) s.game.participants.log with
    | none => rfl
    | some payload =>
      exact congrArg EntryContent.normal
        (countedOctets_of_lt (hweaving.length_accepted hi haccepted))

/-- The entries of a step are the reports of the round. -/
theorem stepEntries_eq_roundEntries [LawfulSteps E] {s : Server E S} (h : BackReferences s)
    (hnamed : PartiesNamed s) (hweaving : Weaving s) :
    stepEntries s = roundEntries (gameOf s).reports := by
  unfold stepEntries composedEntries roundEntries
  rw [← List.filterMap_eq_map, List.filterMap_filter]
  refine List.filterMap_congr fun i _ => ?_
  show (if (s.participant i).isUsed = true then some (composedEntry s (nextStepId s) i) else none)
    = ((seatOf (s.participant i) (nextStepId s).toNat).map Seat.report).map _
  by_cases hi : (s.participant i).isUsed = true
  · obtain ⟨p, hp⟩ := Option.ne_none_iff_exists'.mp (h.inParty i hi)
    rw [if_pos hi, seatOf_of_isUsed (x := s.participant i) hi hp rfl rfl,
      composedEntry_eq_report h hnamed hweaving hi hp]
    rfl
  · rw [if_neg hi, seatOf_of_not_isUsed (Bool.eq_false_iff.mpr hi)]
    rfl

/-- A round that is composed when one is due is a round of the game. -/
theorem playsOnTo_round [LawfulSteps E] {s s' : Server E S} (h : BackReferences s)
    (hnamed : PartiesNamed s) (hweaving : Weaving s) (henabled : s.Enabled .composeRound)
    (hround : RoundWritten s s') : PlaysOnTo s s' := by
  refine ⟨[((gameOf s).round, (gameOf s).reports)], ?_, ?_⟩
  · rw [gameOf_round h hweaving hround]
    exact .advance .refl (due_of_enabled h hweaving henabled)
  · rw [hround.log, composedSteps_composed, stepEntries_eq_roundEntries h hnamed hweaving]
    have hid : UInt32.ofNat (nextStepId s).toNat = nextStepId s := UInt32.ofNat_toNat
    show _ = _ ++ [(UInt32.ofNat (nextStepId s).toNat, _)]
    rw [hid]

/-! ### The refinement -/

/-- The state is in order, and the game was played from `start` on. -/
structure PlayedFrom (start s : Server E S) : Prop where
  back : BackReferences s
  named : PartiesNamed s
  weaving : Weaving s
  plays : PlaysOnTo start s

namespace PlayedFrom

variable {start s : Server E S}

/-- Storing predicted steps, one by one. -/
theorem store [LawfulSteps E] (h : PlayedFrom start s) (t : ConnectionPtr)
    (inStream : InStream) (uninitialized : Uninitialized S) :
    PlayedFrom start (readIncomingSteps s t inStream uninitialized).2.2 := by
  have hback := backReferences_storeKeeps.readIncomingSteps h.back t inStream uninitialized
  have hweaving := weaving_bufferRule.store h.weaving t inStream uninitialized
  have hnamed := h.named.of_sameParties
    (SameParties.of_readIncomingSteps s t inStream uninitialized)
  refine ⟨hback, hnamed, hweaving, ?_⟩
  -- The three parts go together: an input is handed in by a seat in order, and its step is not
  -- early.
  have hrule : ∀ p : PartyPtr S, StoreRule p fun s' : Server E S =>
      BackReferences s' ∧ Weaving s' ∧ PlaysOnTo start s' := by
    intro p
    refine ⟨fun s' i stepId inStream hs' hi => ?_, fun s' steps total hs' => ?_⟩
    · obtain ⟨hback, hweaving, hplays⟩ := hs'
      refine ⟨(backReferences_storeKeeps.storeRule p).single s' i stepId inStream hback hi,
        (weaving_bufferRule.storeRule p).single s' i stepId inStream hweaving hi, ?_⟩
      have houtcome := deserializeSingleStep_outcome s' i stepId inStream
      generalize nimbleServerParticipantDeserializeSingleStep s' i stepId inStream = r
        at houtcome ⊢
      obtain ⟨code, rest, after⟩ := r
      dsimp only at houtcome ⊢
      cases houtcome with
      | failed code hcode => exact hplays
      | ignored hid => exact hplays
      | stored steps hid hmore =>
        obtain ⟨hused, -, hleaving, -⟩ :=
          (hback.references.parties p (hback.isUsed hi)).member i hi
        exact hplays.trans (playsOnTo_storeStep hback hused hleaving
          (hweaving.buffers i hused).readId hmore stepId)
    · obtain ⟨hback, hweaving, hplays⟩ := hs'
      exact ⟨(backReferences_storeKeeps.storeRule p).note s' steps total hback,
        (weaving_bufferRule.storeRule p).note s' steps total hweaving,
        hplays.trans (.of_eq rfl rfl)⟩
  obtain ⟨steps, hsteps, hread⟩ := readIncomingSteps_cases s t inStream uninitialized
  have hdiscard : BackReferences { s with game := { s.game with authoritativeSteps := steps } } ∧
      Weaving { s with game := { s.game with authoritativeSteps := steps } } ∧
      PlaysOnTo start { s with game := { s.game with authoritativeSteps := steps } } :=
    ⟨backReferences_storeKeeps.authoritativeSteps s steps h.back,
      h.weaving.congr h.weaving.pool (fun _ => ⟨rfl, rfl⟩) rfl hsteps.expectedWriteId,
      h.plays.trans (.of_eq (gameOf_congr (fun _ => rfl) hsteps.expectedWriteId) rfl)⟩
  rcases hread with hread | hread
  · rw [hread]
    exact hdiscard.2.2
  · rw [hread]
    exact (StoreRule.handleIncomingSteps _ hdiscard (fun p _ => hrule p) inStream
      uninitialized).2.2

/-- Every operation plays the game on. -/
theorem playRule [LawfulSteps E] [LawfulStepTypes E] [LawfulOutStreams E] (start : Server E S) :
    PlayRule (fun s op => op.IsPlay ∧ s.Enabled op ∧ FitsWhenComposed s op)
      (PlayedFrom start) (fun _ => True) := by
  have hback := backReferences_requestRule (E := E) (S := S)
  have hnamed := partiesNamed_playRule (E := E) (S := S) fun _ _ => True
  have hweaving := weaving_bufferRule (E := E) (S := S) |>.requestRule fun _ _ => True
  exact {
    same := fun s s' h hgame hparties =>
      ⟨hback.same s s' h.back hgame hparties, hnamed.same s s' h.named hgame hparties,
        hweaving.same s s' h.weaving hgame hparties,
        h.plays.trans (.of_eq (gameOf_eq_of_game hgame) (by rw [hgame]))⟩
    join := by
      intro s t request uninitialized r h _ hr
      refine ⟨hback.join s t request uninitialized r h.back trivial hr,
        hnamed.join s t request uninitialized r h.named trivial hr,
        hweaving.join s t request uninitialized r h.weaving trivial hr, h.plays.trans ?_⟩
      cases hr with
      | created p i participants htype hfind hplace hjoin => exact playsOnTo_create hjoin
      | _ => exact .of_eq rfl rfl
    joinFault := fun _ _ _ _ => trivial
    tick := fun s p s' h hs' =>
      ⟨hback.tick s p s' h.back hs', hnamed.tick s p s' h.named hs',
        hweaving.tick s p s' h.weaving hs', h.plays.trans (playsOnTo_tick h.back hs')⟩
    tickFault := fun _ _ _ _ _ => trivial
    connectionFault := fun _ _ => trivial
    store := fun s t inStream uninitialized h _ => h.store t inStream uninitialized
    compose := by
      intro s h hallowed
      refine (((composeRound_fits h.weaving.pool hallowed.2.2).and
        (backReferences_composeRule.composeRound h.back)).and
        (SameParties.of_composeRound s)).mono ?_ fun _ _ => trivial
      rintro r ⟨⟨⟨-, hround⟩, hback'⟩, hparties⟩
      exact ⟨hback', h.named.of_sameParties hparties, h.weaving.round hround,
        h.plays.trans (playsOnTo_round h.back h.named h.weaving hallowed.2.1 hround)⟩ }

end PlayedFrom

/-- At the start nothing was played. -/
theorem StartsGame.playedFrom {s : Server E S} (h : StartsGame s) : PlayedFrom s s :=
  ⟨h.backReferences, h.partiesNamed, h.weaving, .of_eq rfl rfl⟩

/-- The game is played on every run whose steps fit. -/
theorem playedFrom_reachable [LawfulSteps E] [LawfulStepTypes E] [LawfulOutStreams E]
    {start s : Server E S} (hstart : StartsGame start) (hrun : Reaches Server.step
      (fun s op => op.IsPlay ∧ s.Enabled op ∧ FitsWhenComposed s op) start s) :
    PlayedFrom start s :=
  (PlayedFrom.playRule start).reachable (fun _ _ h => h.1) hstart.playedFrom hrun

/-- On every run of a game whose steps fit their buffers the server plays a game in lockstep:
from an empty table to the game that can be read off the server, with a round only when
everybody has an input and somebody three, or somebody five. The authoritative steps are
the encoded reports of the rounds. -/
theorem server_refines_lockstep [LawfulSteps E] [LawfulStepTypes E] [LawfulOutStreams E]
    {start s : Server E S} (hstart : StartsGame start) (hrun : Reaches Server.step
      (fun s op => op.IsPlay ∧ s.Enabled op ∧ FitsWhenComposed s op) start s) :
    ∃ rounds, Lockstep.Run 3 5 (Lockstep.empty (nextStepId start).toNat) rounds (gameOf s) ∧
      composedSteps s.game.participants.log = rounds.map (roundStep E) := by
  obtain ⟨rounds, hplayed, hsteps⟩ := (playedFrom_reachable hstart hrun).plays
  obtain ⟨before, stepId, hinit⟩ := hstart
  obtain ⟨-, hparticipant, hlog, -⟩ :=
    (nimbleServerReInitWithGame_ensures before stepId).of_ok hinit
  have hempty : gameOf start = Lockstep.empty (nextStepId start).toNat := by
    refine Lockstep.ext rfl (funext fun i => seatOf_of_not_isUsed ?_ _)
    rw [hparticipant i]
    rfl
  refine ⟨rounds, hempty ▸ hplayed, ?_⟩
  rw [hsteps, hlog]
  rfl

/-- One client joins and sends four steps, and two rounds are played. -/
theorem server_refines_lockstep_onePlayer :
    ∃ start s : Server plainExternal (plainSetup 1), StartsGame start ∧
      ∃ rounds, Lockstep.Run 3 5 (Lockstep.empty (nextStepId start).toNat) rounds (gameOf s) ∧
        rounds.length = 2 := by
  obtain ⟨start, s, hstart, hrun, hs⟩ :=
    exists_run Server.step (fun s op => op.IsPlay ∧ s.Enabled op ∧ PlainFits s op)
      (fun s => (composedSteps s.game.participants.log).length = 2)
      (plainGame 1)
      [.receive 0, .join 0 onePlayer (zeroLocals _),
        .incomingSteps 0 (gameStep 0 [[1], [2], [3], [4]]) (zeroLocals _),
        .composeRound, .composeRound]
      (by decide +kernel)
  have hgame := startsGame_of_blankGame hstart
  have hfits : Reaches Server.step
      (fun s op => op.IsPlay ∧ s.Enabled op ∧ FitsWhenComposed s op) start s :=
    hrun.mono fun _ _ h => ⟨h.1, h.2.1, h.2.2.fitsWhenComposed⟩
  obtain ⟨rounds, hplayed, hsteps⟩ := server_refines_lockstep hgame hfits
  refine ⟨start, s, hgame, rounds, hplayed, ?_⟩
  rw [hsteps, List.length_map] at hs
  exact hs

end NimbleServer
