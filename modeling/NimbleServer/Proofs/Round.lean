import NimbleServer.Proofs.ComposeWalk

/-!
# `NimbleServer.Proofs.Round`: what one round of composing does

A round of `nimbleServerComposeAuthoritativeSteps` composes the step with the next id and
writes it to the authoritative buffer. `RoundOutcome` lists how it can end: an entry could
not be started, the authoritative buffer refused the step, or the step was written. For a
step that fits its buffers, `composeRound_fits` says that the round writes exactly the
entries of all used participants in the order of their slots.
-/

set_option autoImplicit false

namespace NimbleServer

open NimbleServer.Lib

variable {E : External} {S : Setup}

/-! ### A round -/

/-- The step id that the server composes next. -/
def nextStepId (s : Server E S) : StepId := E.expectedWriteId s.game.authoritativeSteps

/-- The entries of the next step. -/
def stepEntries (s : Server E S) : List StepEntry :=
  composedEntries s (nextStepId s) (List.finRange S.maxParticipantCount)

/-- The number of octets of the next step. -/
def stepSize (s : Server E S) : Nat :=
  1 + ((stepEntries s).map StepEntry.size).sum

/-- The next step has room in the compose buffer, and the authoritative buffer takes it. -/
structure StepFits (s : Server E S) : Prop where
  composeBuffer : stepSize s ≤ COMPOSE_STEP_BUFFER_SIZE
  authoritativeSteps : 0 ≤ (E.nbsStepsWrite s.game.authoritativeSteps (nextStepId s)
    (encodeStep E (stepEntries s))).1

/-- The header of a step is the number of its entries: the pool counts its used
participants. -/
theorem length_stepEntries {s : Server E S} (hpool : PoolInvariant s.game.participants) :
    (stepEntries s).length = s.game.participants.participantCount :=
  length_allEntries hpool.counted (nextStepId s)

/-- What a round leaves behind that wrote its step. -/
structure RoundWritten (s s' : Server E S) : Prop where
  participant : ∀ i, s'.participant i
    = if (s.participant i).isUsed = true then composedParticipant (s.participant i) (nextStepId s)
      else s.participant i
  parties : SameParties s s'
  pool : PoolInvariant s'.game.participants
  log : s'.game.participants.log = .composed s.game.participants.participants (nextStepId s)
    (encodeStep E (stepEntries s)) :: s.game.participants.log
  authoritativeSteps : s'.game.authoritativeSteps
    = (E.nbsStepsWrite s.game.authoritativeSteps (nextStepId s)
      (encodeStep E (stepEntries s))).2
  accepted : 0 ≤ (E.nbsStepsWrite s.game.authoritativeSteps (nextStepId s)
    (encodeStep E (stepEntries s))).1

/-! ### How a round ends -/

/-- The octets that are composed for the next step. -/
def nextOctets (s : Server E S) : Option (List UInt8) :=
  composedOctets s (nextStepId s) COMPOSE_STEP_BUFFER_SIZE

/-- The server after a round wrote octets to the authoritative buffer, where `s'` is what the
walk left. -/
def writtenServer (s s' : Server E S) (octets : List UInt8) : Server E S :=
  { s' with game := { s'.game with
    authoritativeSteps :=
      (E.nbsStepsWrite s.game.authoritativeSteps (nextStepId s) octets).2 } }

/-- How a round ends, and what the walk has done by then. -/
inductive RoundOutcome (s : Server E S) : Option Int × Server E S → Prop
  | unstarted (s' : Server E S) (visited : List (ParticipantPtr S))
      (hoctets : nextOctets s = none) (hwalked : WalkedTo (nextStepId s) visited s s')
      (hvisited : ∃ i ∈ visited, (s.participant i).isUsed = true) :
      RoundOutcome s (some 0, s')
  | refused (s' : Server E S) (octets : List UInt8) (hoctets : nextOctets s = some octets)
      (hwalked : WalkedTo (nextStepId s) (List.finRange S.maxParticipantCount) s s')
      (hwrite : (E.nbsStepsWrite s.game.authoritativeSteps (nextStepId s) octets).1 < 0) :
      RoundOutcome s (some (E.nbsStepsWrite s.game.authoritativeSteps (nextStepId s) octets).1,
        writtenServer s s' octets)
  | written (s' : Server E S) (octets : List UInt8) (hoctets : nextOctets s = some octets)
      (hwalked : WalkedTo (nextStepId s) (List.finRange S.maxParticipantCount) s s')
      (hwrite : 0 ≤ (E.nbsStepsWrite s.game.authoritativeSteps (nextStepId s) octets).1) :
      RoundOutcome s (none, (writtenServer s s' octets).setParticipants
        { s'.game.participants with
          log := .composed s.game.participants.participants (nextStepId s) octets ::
            s.game.participants.log })

/-- The header always fits, so a composed step is not empty. -/
theorem nextOctets_ne_nil (s : Server E S) : nextOctets s ≠ some [] := by
  intro h
  unfold nextOctets at h
  rw [composedOctets_eq s _ (by decide)] at h
  have hlength := congrArg List.length (writeRecords_eq_some h)
  rw [length_writeParts] at hlength
  have hle := le_fill COMPOSE_STEP_BUFFER_SIZE 1
    ((((allEntries s (nextStepId s)).map (entryRecord E)).flatMap Record.parts).map List.length)
  exact absurd (hlength ▸ hle) (by decide)

/-- These are all the ways a round ends, and all the ways it stops. -/
theorem composeRound_outcome [LawfulOutStreams E] {s : Server E S}
    (hpool : PoolCounted s.game.participants) :
    Ensures (composeRound s) (RoundOutcome s)
      (ComposeStops (nextStepId s) (List.finRange S.maxParticipantCount) s) := by
  unfold composeRound
  refine (composeOneAuthoritativeStep_walk hpool (nextStepId s) _).bind ?_
  rintro ⟨octets, closing, s'⟩ ⟨hoctets, ⟨visited, hwalked, hnone, hall⟩, -⟩
  have hnext : nextOctets s = octets := hoctets.symm
  dsimp only at hwalked hnone hall ⊢
  cases octets with
  | none => exact .unstarted s' visited hnext hwalked (hnone rfl)
  | some octets =>
    -- The octets are there, so the walk has visited every slot.
    rw [hall (by rintro ⟨⟩)] at hwalked
    cases octets with
    | nil => exact absurd hnext (nextOctets_ne_nil s)
    | cons octet octets =>
      -- The walk writes nothing to the buffer and to the history, so what is written comes on top
      -- of what was there before the round.
      have hsteps := hwalked.authoritativeSteps
      dsimp only
      rw [hsteps, hwalked.log]
      split
      · rename_i hwrite
        exact .refused s' (octet :: octets) hnext hwalked hwrite
      · rename_i hwrite
        exact .written s' (octet :: octets) hnext hwalked (Int.not_lt.mp hwrite)

/-- A round whose step fits writes the step. -/
theorem composeRound_fits [LawfulOutStreams E] {s : Server E S}
    (hpool : PoolInvariant s.game.participants) (hfits : StepFits s) :
    Ensures (composeRound s) (fun r => r.1 = none ∧ RoundWritten s r.2) (fun _ => True) := by
  have hkeeps : ComposeKeeps (fun s : Server E S => PoolInvariant s.game.participants)
      (fun f => ¬f.IsPool) := (pool_playKeeps fun _ _ => True).toComposeKeeps
  refine ((composeRound_outcome hpool.counted).and (hkeeps.composeRule.composeRound hpool)).mono
    ?_ (fun _ _ => trivial)
  rintro r ⟨houtcome, hpool'⟩
  have hall : nextOctets s = some (encodeStep E (stepEntries s)) :=
    (composedOctets_eq_encodeStep_iff s _ (by decide)).mpr hfits.composeBuffer
  have haccepted := hfits.authoritativeSteps
  cases houtcome with
  | unstarted s' visited hoctets hwalked hvisited =>
    rw [hall] at hoctets
    cases hoctets
  -- The authoritative buffer takes exactly these octets.
  | refused s' octets hoctets hwalked hwrite =>
    rw [hall] at hoctets
    cases hoctets
    exact absurd hwrite (Int.not_lt.mpr haccepted)
  | written s' octets hoctets hwalked hwrite =>
    rw [hall] at hoctets
    cases hoctets
    refine ⟨rfl, ?_, hwalked.parties.setGame _, hpool', rfl, rfl, haccepted⟩
    intro i
    refine (hwalked.participant i).trans (if_congr ?_ rfl rfl)
    exact and_iff_right (List.mem_finRange i)

/-! ### Reading the step back -/

/-- The entries of the next step fit the format, so the step can be read back. -/
theorem decodeStep_stepEntries [LawfulStepTypes E] {s : Server E S}
    (hpool : PoolInvariant s.game.participants) :
    decodeStep E (encodeStep E (stepEntries s)) = some (stepEntries s) := by
  have hcapacity : S.maxParticipantCount < 64 := hpool.capacity
  refine decodeStep_encodeStep ?_ ?_
  · have hsum := hpool.count_add
    rw [length_stepEntries hpool]
    omega
  · -- A used participant has the number of its slot as its id, which is below 64.
    intro entry hentry
    obtain ⟨i, hi, rfl⟩ := List.mem_map.mp hentry
    have hused : (s.participant i).isUsed = true := (List.mem_filter.mp hi).2
    refine ⟨?_, entryContent_payload_length _ _ _⟩
    show (s.participant i).id.toNat < 128
    have hid : (s.participant i).id = slotOctet i := hpool.id i hused
    rw [hid, slotOctet_toNat hpool.capacity i]
    have := i.isLt
    omega

/-- The next step has one entry for each used participant, and no other. -/
theorem mem_stepEntries {s : Server E S} {entry : StepEntry} :
    entry ∈ stepEntries s ↔
      ∃ i, (s.participant i).isUsed = true ∧ composedEntry s (nextStepId s) i = entry := by
  unfold stepEntries composedEntries
  simp

/-- The ids of the entries are the slots, in ascending order and without repetition. -/
theorem map_participantId_stepEntries {s : Server E S}
    (hpool : PoolInvariant s.game.participants) :
    (stepEntries s).map (·.participantId)
      = ((List.finRange S.maxParticipantCount).filter fun i => (s.participant i).isUsed).map
          slotOctet := by
  unfold stepEntries composedEntries
  rw [List.map_map]
  refine List.map_congr_left fun i hi => ?_
  have hused : (s.participant i).isUsed = true := (List.mem_filter.mp hi).2
  exact hpool.id i hused

end NimbleServer
