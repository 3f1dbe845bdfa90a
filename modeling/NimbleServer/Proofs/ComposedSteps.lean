import NimbleServer.Proofs.MigrationPool
import NimbleServer.Proofs.Round

/-!
# `NimbleServer.Proofs.ComposedSteps`: the octets of a composed step

What `composeOneAuthoritativeStep` returns, for every pool that counts its participants.

* `composed_step_decodes`: if there is room for the entries, the octets decode to one entry
  for each used participant. `announcedContent` says what the entry of a participant is.
* `closingAssertion_iff`: the assertion at the end holds if and only if nobody leaves. It
  compares the participants that were found with a count that was lowered for each of them
  that left.
* `composed_step_complete_iff`: in which cases the octets are neither refused nor complete.
  The writes of a payload and of the octets before it are not checked, so an entry that does
  not fit leaves a gap. The step fails only if the buffer is full exactly where an entry
  starts.
-/

set_option autoImplicit false

namespace NimbleServer

open NimbleServer.Lib

variable {E : External} {S : Setup}

/-! ### What a step announces -/

/-- What a step says about a participant: its change of state, or the step it provided. -/
def announcedContent (s : Server E S) (lookingFor : StepId) (i : ParticipantPtr S) :
    EntryContent :=
  match (s.participant i).state, providedStep (s.participant i) lookingFor with
  | .justJoined, step => .joined (partyIdOf s (s.participant i)) (step.getD [])
  | .waitingForRejoin, _ => .waitingForReJoin
  | .leaving, _ => .left
  | .normal, some payload | .destroyed, some payload => .normal payload
  | .normal, none | .destroyed, none => .stepNotProvidedInTime

/-- One entry for each used participant, in the order of the slots. -/
def announcedEntries (s : Server E S) (lookingFor : StepId) : List StepEntry :=
  ((List.finRange S.maxParticipantCount).filter fun i => (s.participant i).isUsed).map
    fun i => ⟨(s.participant i).id, announcedContent s lookingFor i⟩

/-- A payload that fits its length octet is written as it is. -/
theorem composedEntry_eq_announced {s : Server E S} {lookingFor : StepId}
    {i : ParticipantPtr S}
    (h : ∀ payload, providedStep (s.participant i) lookingFor = some payload →
      payload.length ≤ 255) :
    composedEntry s lookingFor i
      = ⟨(s.participant i).id, announcedContent s lookingFor i⟩ := by
  have hcounted : countedOctets ((providedStep (s.participant i) lookingFor).getD [])
      = (providedStep (s.participant i) lookingFor).getD [] := by
    cases hstep : providedStep (s.participant i) lookingFor with
    | none => rfl
    | some payload => exact countedOctets_of_lt (Nat.lt_succ_of_le (h payload hstep))
  unfold composedEntry announcedContent composedType
  cases hstate : (s.participant i).state with
  | justJoined => simp only [entryContent, hcounted]
  | waitingForRejoin | leaving => simp only [entryContent]
  -- Only a participant in a settled state is asked for its step.
  | normal | destroyed =>
    cases hstep : providedStep (s.participant i) lookingFor with
    | none => simp [entryContent]
    | some payload =>
      rw [hstep] at hcounted
      simpa [entryContent] using hcounted

/-- Then all entries are those that are announced. -/
theorem allEntries_eq_announced {s : Server E S} {lookingFor : StepId}
    (h : ∀ i, (s.participant i).isUsed = true → ∀ payload,
      providedStep (s.participant i) lookingFor = some payload → payload.length ≤ 255) :
    allEntries s lookingFor = announcedEntries s lookingFor := by
  refine List.map_congr_left fun i hi => ?_
  exact composedEntry_eq_announced (h i (List.mem_filter.mp hi).2)

/-! ### Reading a composed step back -/

/-- For every pool that counts its participants, in one octet, and in which a participant that
leaves has the id of its slot: if there is room for the entries, the composed octets decode,
with nothing left over, to one entry for each participant that was used before, in the order of
the slots. -/
theorem composed_step_decodes [LawfulStepTypes E] [LawfulOutStreams E] (s : Server E S)
    (lookingFor : StepId) (maxLength : Nat)
    (hcount : s.game.participants.participantCount = s.game.participants.usedCount)
    (hoctet : s.game.participants.participantCount ≤ 255)
    (hslots : ∀ i, (s.participant i).isUsed = true → (s.participant i).state = .leaving →
      (s.participant i).id.toNat = i.val)
    (hids : ∀ i, (s.participant i).isUsed = true → (s.participant i).id.toNat < 64)
    (hpayloads : ∀ i, (s.participant i).isUsed = true → ∀ payload,
      providedStep (s.participant i) lookingFor = some payload → payload.length ≤ 255)
    (hfits : 1 + ((announcedEntries s lookingFor).map StepEntry.size).sum ≤ maxLength) :
    Ensures (composeOneAuthoritativeStep s lookingFor maxLength)
      (fun r => ∃ octets, r.octets = some octets ∧
        decodeStep E octets = some (announcedEntries s lookingFor))
      (ComposeStops lookingFor (List.finRange S.maxParticipantCount) s) := by
  have hpool : PoolCounted s.game.participants := ⟨hcount, hslots⟩
  have hentries := allEntries_eq_announced hpayloads
  refine (composeOneAuthoritativeStep_walk hpool lookingFor maxLength).mono ?_ (fun _ h => h)
  intro r hr
  have hall : composedOctets s lookingFor maxLength
      = some (encodeStep E (announcedEntries s lookingFor)) := by
    rw [← hentries]
    refine (composedOctets_eq_encodeStep_iff s lookingFor (by omega)).mpr ?_
    rw [hentries]
    exact hfits
  refine ⟨_, hr.octets.trans hall, decodeStep_encodeStep ?_ ?_⟩
  · -- The count octet is not cut off.
    rw [← hentries, length_allEntries hpool]
    omega
  · -- Seven bits hold an id below 64, and a payload is always cut to its length octet.
    rw [← hentries]
    intro entry hentry
    obtain ⟨i, hi, rfl⟩ := List.mem_map.mp hentry
    have hid := hids i (List.mem_filter.mp hi).2
    exact ⟨Nat.lt_trans hid (by decide), entryContent_payload_length _ _ _⟩

/-- Two participants of which the first has provided the second step of the game. -/
theorem exists_secondStep : ∃ start s : Server plainExternal (plainSetup 2),
    (StartsGame start ∧ Reaches Server.step (fun _ op => op.IsPlay) start s) ∧
    s.game.participants.participantCount = s.game.participants.usedCount ∧
    s.game.participants.participantCount ≤ 255 ∧
    (∀ i, (s.participant i).isUsed = true → (s.participant i).id.toNat = i.val) ∧
    (∀ i, (s.participant i).isUsed = true → ∀ payload,
      providedStep (s.participant i) 1 = some payload → payload.length ≤ 255) ∧
    announcedEntries s 1 = [⟨0, .normal [8]⟩, ⟨1, .stepNotProvidedInTime⟩] ∧
    (∀ i, (s.participant i).state ≠ .leaving) ∧
    (composeOneAuthoritativeStep s 1 COMPOSE_STEP_BUFFER_SIZE).toOption.any
      (·.octets.isSome) = true := by
  obtain ⟨start, s, hstart, hrun, hcount, hoctet, hslots, hpayloads, hs⟩ :=
    exists_run Server.step (fun _ op => op.IsPlay)
      (fun s => s.game.participants.participantCount = s.game.participants.usedCount ∧
        s.game.participants.participantCount ≤ 255 ∧
        (∀ i, (s.participant i).isUsed = true → (s.participant i).id.toNat = i.val) ∧
        (∀ i, ((providedStep (s.participant i) 1).getD []).length ≤ 255) ∧
        announcedEntries s 1 = [⟨0, .normal [8]⟩, ⟨1, .stepNotProvidedInTime⟩] ∧
        (∀ i, (s.participant i).state ≠ .leaving) ∧
        (composeOneAuthoritativeStep s 1 COMPOSE_STEP_BUFFER_SIZE).toOption.any
          (·.octets.isSome) = true)
      (plainGame 2)
      -- The first client is six steps ahead, so a step is due although the second sends none.
      [.receive 0, .receive 1, .join 0 onePlayer (zeroLocals _), .join 1 onePlayer (zeroLocals _),
        .incomingSteps 0 (gameStep 0 [[7], [8], [9], [9], [9], [9]]) (zeroLocals _),
        .composeRound]
      (by decide +kernel)
  refine ⟨start, s, ⟨startsGame_of_blankGame hstart, hrun⟩, hcount, hoctet, hslots, ?_, hs⟩
  intro i _ payload hpayload
  have hlength := hpayloads i
  rwa [hpayload] at hlength

/-- The second step of the game is read back: one participant has provided it. -/
theorem composed_step_decodes_secondStep :
    ∃ (s : Server plainExternal (plainSetup 2)) (r : ComposedStep plainExternal (plainSetup 2))
      (octets : List UInt8),
      composeOneAuthoritativeStep s 1 COMPOSE_STEP_BUFFER_SIZE = .ok r ∧
      r.octets = some octets ∧
      decodeStep plainExternal octets
        = some [⟨0, .normal [8]⟩, ⟨1, .stepNotProvidedInTime⟩] := by
  obtain ⟨-, s, -, hcount, hoctet, hslots, hpayloads, hentries, -, hok⟩ := exists_secondStep
  have hids : ∀ i, (s.participant i).isUsed = true → (s.participant i).id.toNat < 64 := by
    intro i hi
    rw [hslots i hi]
    exact Nat.lt_trans i.isLt (by decide)
  have hdecodes := composed_step_decodes s 1 COMPOSE_STEP_BUFFER_SIZE hcount hoctet
    (fun i hi _ => hslots i hi) hids hpayloads (by rw [hentries]; decide)
  obtain ⟨r, hcompose, -⟩ := exists_ok_of_any hok
  obtain ⟨octets, hoctets, hdecode⟩ := hdecodes.of_ok hcompose
  exact ⟨s, r, octets, hcompose, hoctets, hdecode.trans (congrArg some hentries)⟩

/-- A participant without steps. -/
def idleParticipant (id : UInt8) (party : Fin 2) (state : ParticipantState) :
    Participant plainExternal (plainSetup 2) :=
  { nimbleServerParticipantInit plainExternal (plainSetup 2) id with
    isUsed := true, inParty := some party, state }

/-- Two participants that have each other's id, and the first of them leaves. -/
def crossedIds : Server plainExternal (plainSetup 2) :=
  (zeroMemory (plainSetup 2)).setParticipants
    { participants := tabulate _ fun i =>
        if i.val = 0 then idleParticipant 1 0 .leaving else idleParticipant 0 1 .normal
      participantCount := 2
      freeList := zeroBuffer
      log := [] }

/-- Composing the first of them frees the slot of the second, so the step counts two entries
and has one. -/
theorem crossedIds_not_decoded :
    crossedIds.game.participants.participantCount = crossedIds.game.participants.usedCount ∧
    (∀ i, (crossedIds.participant i).id.toNat < 64) ∧
    (∀ i, providedStep (crossedIds.participant i) 0 = none) ∧
    1 + ((announcedEntries crossedIds 0).map StepEntry.size).sum ≤ COMPOSE_STEP_BUFFER_SIZE ∧
    ∃ r octets, composeOneAuthoritativeStep crossedIds 0 COMPOSE_STEP_BUFFER_SIZE = .ok r ∧
      r.octets = some octets ∧ octets.length = 3 ∧ decodeStep plainExternal octets = none := by
  refine ⟨by decide +kernel, by decide +kernel, by decide +kernel, by decide +kernel, ?_⟩
  -- The server is a fixed one, so the step is composed by evaluation.
  have hok : (composeOneAuthoritativeStep crossedIds 0 COMPOSE_STEP_BUFFER_SIZE).toOption.any
      (fun r => r.octets.any fun octets =>
        octets.length == 3 && (decodeStep plainExternal octets).isNone) = true := by
    decide +kernel
  obtain ⟨r, hcompose, hcheck⟩ := exists_ok_of_any hok
  rw [Option.any_eq_true] at hcheck
  obtain ⟨octets, hoctets, hcheck⟩ := hcheck
  rw [Bool.and_eq_true, beq_iff_eq, Option.isNone_iff_eq_none] at hcheck
  exact ⟨r, octets, hcompose, hoctets, hcheck⟩

/-! ### The closing assertion -/

/-- Nobody leaves if and only if the count stays. -/
theorem leavingCount_eq_zero_iff (s : Server E S) :
    leavingCount s (List.finRange S.maxParticipantCount) = 0 ↔
      ∀ i, (s.participant i).isUsed = true → (s.participant i).state ≠ .leaving := by
  unfold leavingCount
  rw [List.countP_eq_zero]
  simp [Participant.leaves]

/-- The walk counts every used slot, and the pool loses one participant for each that leaves. -/
theorem closingAssertion_of_poolCounted [LawfulOutStreams E] {s : Server E S}
    (hpool : PoolCounted s.game.participants) (lookingFor : StepId) (maxLength : Nat) :
    Ensures (composeOneAuthoritativeStep s lookingFor maxLength)
      (fun r => r.octets ≠ none → (r.closingAssertion = true ↔
        ∀ i, (s.participant i).isUsed = true → (s.participant i).state ≠ .leaving))
      (ComposeStops lookingFor (List.finRange S.maxParticipantCount) s) := by
  refine (composeOneAuthoritativeStep_walk hpool lookingFor maxLength).mono ?_ (fun _ h => h)
  intro r hr hoctets
  obtain ⟨visited, hwalked, -, hall⟩ := hr.visited
  -- The count before the walk is the count after it and those who left.
  rw [hr.closingAssertion hoctets, ← leavingCount_eq_zero_iff, ← hall hoctets]
  have hsum := hwalked.participantCount
  omega

/-- If no used participant is leaving, the assertion at the end of `composeOneAuthoritativeStep`
holds. If those that leave have the id of their slot, it holds in no other case. -/
theorem closingAssertion_iff [LawfulOutStreams E] (s : Server E S) (lookingFor : StepId)
    (maxLength : Nat)
    (hcount : s.game.participants.participantCount = s.game.participants.usedCount) :
    ((∀ i, (s.participant i).isUsed = true → (s.participant i).state ≠ .leaving) →
      Ensures (composeOneAuthoritativeStep s lookingFor maxLength)
        (fun r => r.octets ≠ none → r.closingAssertion = true)
        (ComposeStops lookingFor (List.finRange S.maxParticipantCount) s)) ∧
    ((∀ i, (s.participant i).isUsed = true → (s.participant i).state = .leaving →
        (s.participant i).id.toNat = i.val) →
      Ensures (composeOneAuthoritativeStep s lookingFor maxLength)
        (fun r => r.octets ≠ none → (r.closingAssertion = true ↔
          ∀ i, (s.participant i).isUsed = true → (s.participant i).state ≠ .leaving))
        (ComposeStops lookingFor (List.finRange S.maxParticipantCount) s)) := by
  constructor
  · intro hstays
    -- Nobody's id is looked at.
    have hpool : PoolCounted s.game.participants :=
      ⟨hcount, fun i hused hleaving => absurd hleaving (hstays i hused)⟩
    refine (closingAssertion_of_poolCounted hpool lookingFor maxLength).mono ?_ (fun _ h => h)
    exact fun r hr hoctets => (hr hoctets).mpr hstays
  · intro hslots
    exact closingAssertion_of_poolCounted ⟨hcount, hslots⟩ lookingFor maxLength

/-- Nobody leaves with the second step, and the assertion holds. -/
theorem closingAssertion_iff_secondStep :
    ∃ (s : Server plainExternal (plainSetup 2)) (r : ComposedStep plainExternal (plainSetup 2)),
      s.game.participants.participantCount = s.game.participants.usedCount ∧
      (∀ i, (s.participant i).isUsed = true → (s.participant i).state ≠ .leaving) ∧
      composeOneAuthoritativeStep s 1 COMPOSE_STEP_BUFFER_SIZE = .ok r ∧ r.octets ≠ none ∧
      r.closingAssertion = true := by
  obtain ⟨-, s, -, hcount, -, -, -, -, hstays, hok⟩ := exists_secondStep
  obtain ⟨hholds, -⟩ := closingAssertion_iff s 1 COMPOSE_STEP_BUFFER_SIZE hcount
  obtain ⟨r, hcompose, hsome⟩ := exists_ok_of_any hok
  have hoctets : r.octets ≠ none := Option.isSome_iff_ne_none.mp hsome
  have hused : ∀ i, (s.participant i).isUsed = true → (s.participant i).state ≠ .leaving :=
    fun i _ => hstays i
  exact ⟨s, r, hcount, hused, hcompose, hoctets, (hholds hused).of_ok hcompose hoctets⟩

/-- The first client of two is lost and its party is dissolved, so its participant leaves. The
next step is composed, with one entry more than there are participants at the end. -/
theorem closingAssertion_fails :
    ∃ (start s : Server plainExternal (plainSetup 2))
      (r : ComposedStep plainExternal (plainSetup 2)), StartsGame start ∧
      Reaches Server.step (fun _ op => op.IsPlay) start s ∧
      s.game.participants.participantCount = s.game.participants.usedCount ∧
      composeOneAuthoritativeStep s (nextStepId s) COMPOSE_STEP_BUFFER_SIZE = .ok r ∧
      r.octets ≠ none ∧ r.closingAssertion = false := by
  obtain ⟨start, s, hstart, hrun, hcount, hok⟩ := exists_run Server.step (fun _ op => op.IsPlay)
    (fun s => s.game.participants.participantCount = s.game.participants.usedCount ∧
      (composeOneAuthoritativeStep s (nextStepId s) COMPOSE_STEP_BUFFER_SIZE).toOption.any
        (fun r => r.octets.isSome && !r.closingAssertion) = true)
    (plainGame 2) (firstClientLost 182) (by decide +kernel)
  obtain ⟨r, hcompose, hcheck⟩ := exists_ok_of_any hok
  rw [Bool.and_eq_true, Bool.not_eq_true'] at hcheck
  exact ⟨start, s, r, startsGame_of_blankGame hstart, hrun, hcount, hcompose,
    Option.isSome_iff_ne_none.mp hcheck.1, hcheck.2⟩

/-! ### Truncated steps -/

/-- In every state of a server with a game, a composed step is refused or complete if and
only if there is room for all entries, or the buffer is full when an entry is due. -/
theorem composed_step_complete_iff [LawfulOutStreams E] {start s : Server E S}
    (hstart : StartsGame start) (hrun : Reaches Server.step (fun _ _ => True) start s)
    (lookingFor : StepId) :
    Ensures (composeOneAuthoritativeStep s lookingFor COMPOSE_STEP_BUFFER_SIZE)
      (fun r => (r.octets = none ∨ r.octets = some (encodeStep E (allEntries s lookingFor))) ↔
        (1 + ((allEntries s lookingFor).map StepEntry.size).sum ≤ COMPOSE_STEP_BUFFER_SIZE ∨
          FullBefore COMPOSE_STEP_BUFFER_SIZE 1
            ((allEntries s lookingFor).map (entryRecord E))))
      (ComposeStops lookingFor (List.finRange S.maxParticipantCount) s) := by
  -- After any operation, host migration included, the pool counts its participants.
  have hpool := (poolCovers_reachable hstart hrun).counted
  have hroom : 0 < COMPOSE_STEP_BUFFER_SIZE := by decide
  refine (composeOneAuthoritativeStep_walk hpool lookingFor _).mono ?_ (fun _ h => h)
  intro r hr
  rw [hr.octets, composedOctets_eq_encodeStep_iff s lookingFor hroom,
    composedOctets_eq_none_iff s lookingFor hroom]
  exact or_comm

/-- The second step fits its buffer, so it is complete. -/
theorem composed_step_complete_iff_secondStep :
    ∃ (s : Server plainExternal (plainSetup 2)) (r : ComposedStep plainExternal (plainSetup 2)),
      composeOneAuthoritativeStep s 1 COMPOSE_STEP_BUFFER_SIZE = .ok r ∧
      (r.octets = none ∨ r.octets = some (encodeStep plainExternal (allEntries s 1))) := by
  obtain ⟨start, s, ⟨hstart, hrun⟩, -, -, -, hpayloads, hentries, -, hok⟩ := exists_secondStep
  obtain ⟨r, hcompose, -⟩ := exists_ok_of_any hok
  have hiff := composed_step_complete_iff hstart (hrun.mono fun _ _ _ => trivial) 1
  refine ⟨s, r, hcompose, (hiff.of_ok hcompose).mpr (.inl ?_)⟩
  rw [allEntries_eq_announced hpayloads, hentries]
  decide

/-- 43 clients join, and each sends steps of 20 octets. -/
def crowdedLobby : List (Op (plainSetup 43)) :=
  ((List.finRange 43).flatMap fun k =>
    [.receive (k.castLE (by decide)), .join (k.castLE (by decide)) onePlayer (zeroLocals _)]) ++
  (List.finRange 43).map fun k => .incomingSteps (k.castLE (by decide))
    -- The first client sends more steps than the others, so that a step is due.
    (gameStep 0 (List.replicate (if k = 0 then 3 else 1) (List.replicate 20 1))) (zeroLocals _)

/-- The first step of these 43 clients would have 1033 octets. The entry of the last client
ends after the octet that announces 20 octets, and the step cannot be read back. -/
theorem composed_step_truncated :
    ∃ (start s : Server plainExternal (plainSetup 43))
      (r : ComposedStep plainExternal (plainSetup 43)) (octets : List UInt8), StartsGame start ∧
      Reaches Server.step (fun _ _ => True) start s ∧
      s.Enabled .composeRound ∧
      composeOneAuthoritativeStep s (nextStepId s) COMPOSE_STEP_BUFFER_SIZE = .ok r ∧
      r.octets = some octets ∧
      octets ≠ encodeStep plainExternal (allEntries s (nextStepId s)) ∧
      octets.drop 1009 = [0x80 ||| 42, plainExternal.stepTypeOctet .joined, 42, 20] ∧
      decodeStep plainExternal octets = none := by
  obtain ⟨start, s, hstart, hrun, hadvance, hok⟩ := exists_run Server.step (fun _ _ => True)
    (fun s => s.Enabled .composeRound ∧
      (composeOneAuthoritativeStep s (nextStepId s) COMPOSE_STEP_BUFFER_SIZE).toOption.any
        (fun r => r.octets.any fun octets => decide (
          octets.length ≠ (encodeStep plainExternal (allEntries s (nextStepId s))).length ∧
          octets.drop 1009 = [0x80 ||| 42, plainExternal.stepTypeOctet .joined, 42, 20] ∧
          decodeStep plainExternal octets = none)) = true)
    (plainGame 43) crowdedLobby (by decide +kernel)
  obtain ⟨r, hcompose, hcheck⟩ := exists_ok_of_any hok
  rw [Option.any_eq_true] at hcheck
  obtain ⟨octets, hoctets, hcheck⟩ := hcheck
  obtain ⟨hlength, hdrop, hdecode⟩ := of_decide_eq_true hcheck
  exact ⟨start, s, r, octets, startsGame_of_blankGame hstart, hrun, hadvance, hcompose,
    hoctets, fun h => hlength (congrArg List.length h), hdrop, hdecode⟩

end NimbleServer
