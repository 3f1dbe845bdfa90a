import NimbleServer.Proofs.BackReferences
import NimbleServer.Proofs.DisconnectLaw
import NimbleServer.Proofs.GracePeriod
import NimbleServer.Proofs.History

/-!
# `NimbleServer.Proofs.SilentClients`: how long a silent client keeps its place

A client that stops sending goes through three stages, each with a counter of its own in a
different file. Rounds of composing count the steps it did not provide. Once these are too
many, the ticks count up to the moment when its party waits for a rejoin. Then they count up
to the moment when the party is dissolved and its participants are leaving. The next round
gives their places back.

`Fading` carries the three counters through a run. `silent_party_is_dissolved` is the bound
that follows: a party that provides nothing and is not joined again is in use for fewer than
181 ticks and its grace period, counted from the round in which its quality turned bad. It
does not matter what the other clients do meanwhile.
-/

set_option autoImplicit false

namespace NimbleServer

open NimbleServer.Lib

variable {E : External} {S : Setup}

/-! ### Silence -/

/-- No participant of the party has the next step in its buffer. -/
def Unprovided (s : Server E S) (p : PartyPtr S) : Prop :=
  ∀ i, (s.participant i).isUsed = true → (s.participant i).inParty = some p →
    providedStep (s.participant i) (nextStepId s) = none

/-- The party is in use and is not joined again, and a step that is composed has nothing
from it. -/
structure Silent (p : PartyPtr S) (s : Server E S) (op : Op S) : Prop where
  play : op.IsPlay
  fits : FitsWhenComposed s op
  isUsed : (s.party p).isUsed = true
  notJoined : ¬JoinsParty s p op
  unprovided : op = .composeRound → Unprovided s p

/-- How many forced steps in a row are too many for the party. -/
def patience (x : LocalParty S) : Nat :=
  if x.quality.hasAddedFirstAcceptedSteps then 20 else 200

/-- The rounds of a run, newest operation first. -/
def roundCount : List (Op S) → Nat
  | [] => 0
  | .composeRound :: earlier => roundCount earlier + 1
  | _ :: earlier => roundCount earlier

/-- The ticks of a run that come after `rounds` rounds. -/
def ticksAfter (rounds : Nat) : List (Op S) → Nat
  | [] => 0
  | .tick :: earlier => ticksAfter rounds earlier + if rounds ≤ roundCount earlier then 1 else 0
  | _ :: earlier => ticksAfter rounds earlier

/-- A datagram is not a tick. -/
theorem ticksAfter_cons {rounds : Nat} {op : Op S} (h : op ≠ .tick) (ops : List (Op S)) :
    ticksAfter rounds (op :: ops) = ticksAfter rounds ops := by
  cases op with
  | tick => exact absurd rfl h
  | _ => rfl

/-- Only a round counts as one, -/
theorem roundCount_cons {op : Op S} (h : op ≠ .composeRound) (ops : List (Op S)) :
    roundCount (op :: ops) = roundCount ops := by
  cases op with
  | composeRound => exact absurd rfl h
  | _ => rfl

/-- and the count does not go down. -/
theorem roundCount_le_cons (op : Op S) (ops : List (Op S)) :
    roundCount ops ≤ roundCount (op :: ops) := by
  cases op with
  | composeRound => exact Nat.le_succ _
  | _ => exact Nat.le_refl _

/-- A tick counts once at most. -/
theorem ticksAfter_tick_le (rounds : Nat) (ops : List (Op S)) :
    ticksAfter rounds (.tick :: ops) ≤ ticksAfter rounds ops + 1 := by
  show _ + (if _ then 1 else 0) ≤ _
  split <;> omega

/-- Before that many rounds no tick counts. -/
theorem ticksAfter_eq_zero {rounds : Nat} {ops : List (Op S)} (h : roundCount ops < rounds) :
    ticksAfter rounds ops = 0 := by
  induction ops with
  | nil => rfl
  | cons op ops ih =>
    have hearlier := Nat.lt_of_le_of_lt (roundCount_le_cons op ops) h
    cases op with
    | tick =>
      show ticksAfter rounds ops + (if rounds ≤ roundCount ops then 1 else 0) = 0
      rw [ih hearlier, if_neg (Nat.not_le.mpr hearlier)]
    | _ => exact ih hearlier

/-! ### The quality of a silent party -/

/-- What a read that finds nothing tells the quality. -/
theorem readQuality_of_none {x : Participant E S} {lookingFor : StepId}
    (h : providedStep x lookingFor = none) (quality : ConnectionQuality) :
    readQuality x lookingFor quality
      = nimbleServerConnectionQualityAddedForcedSteps quality 1 := by
  unfold readQuality
  rw [h]
  rfl

/-- Every participant of the party adds a forced step. Induction on the slots, with the
quality generalized. -/
theorem composedQuality_unprovided {s : Server E S} {p : PartyPtr S} (h : Unprovided s p)
    (slots : List (ParticipantPtr S)) :
    (composedQuality s (nextStepId s) slots p).hasAddedFirstAcceptedSteps
        = (s.party p).quality.hasAddedFirstAcceptedSteps ∧
      (composedQuality s (nextStepId s) slots p).forcedStepInRowCounter
        = (s.party p).quality.forcedStepInRowCounter + slots.countP fun i =>
          (s.participant i).isUsed = true ∧ (s.participant i).inParty = some p := by
  unfold composedQuality
  generalize (s.party p).quality = quality
  induction slots generalizing quality with
  | nil => exact ⟨rfl, rfl⟩
  | cons i slots ih =>
    rw [List.foldl_cons, List.countP_cons]
    by_cases hi : (s.participant i).isUsed = true ∧ (s.participant i).inParty = some p
    · obtain ⟨hfirst, hforced⟩ := ih (readQuality (s.participant i) (nextStepId s) quality)
      rw [if_pos hi, hfirst, hforced, readQuality_of_none (h i hi.1 hi.2),
        if_pos (decide_eq_true hi)]
      refine ⟨rfl, ?_⟩
      -- A forced step adds one to the counter and keeps the first flag.
      show quality.forcedStepInRowCounter + 1 + _ = _
      omega
    · rw [if_neg hi, if_neg (by simpa using hi)]
      exact ih quality

/-- What the quality says about forced steps. -/
def SameForced (quality quality' : ConnectionQuality) : Prop :=
  quality'.hasAddedFirstAcceptedSteps = quality.hasAddedFirstAcceptedSteps ∧
    quality'.forcedStepInRowCounter = quality.forcedStepInRowCounter

/-- Noting added steps moves neither. -/
theorem sameForced_noteAddedSteps (x : LocalParty S) (steps : E.Steps) (total : Nat) :
    SameForced x.quality (noteAddedSteps x steps total).quality := by
  unfold noteAddedSteps
  split
  · dsimp only
    split <;> exact ⟨rfl, rfl⟩
  · exact ⟨rfl, rfl⟩

/-- Steps that are stored do not tell the quality that they are usable. -/
theorem sameForced_readIncomingSteps (s : Server E S) (p : PartyPtr S) (t : ConnectionPtr)
    (inStream : InStream) (uninitialized : Uninitialized S) :
    SameForced (s.party p).quality
      ((readIncomingSteps s t inStream uninitialized).2.2.party p).quality := by
  have hrule : ∀ q : PartyPtr S,
      StoreRule q fun s' : Server E S => SameForced (s.party p).quality (s'.party p).quality := by
    intro q
    refine ⟨fun s' i stepId inStream hs' _ => ?_, fun s' steps total hs' => ?_⟩
    · rw [party_deserializeSingleStep]
      exact hs'
    · -- The party of the request notes the steps, and no other party does.
      rw [Server.party_setParty]
      split
      · rename_i hqp
        subst hqp
        have hnote := sameForced_noteAddedSteps (s'.party q) steps total
        exact ⟨hnote.1.trans hs'.1, hnote.2.trans hs'.2⟩
      · exact hs'
  obtain ⟨steps, -, hread | hread⟩ := readIncomingSteps_cases s t inStream uninitialized
  · rw [hread]
    exact ⟨rfl, rfl⟩
  · have hstart : SameForced (s.party p).quality
        (({ s with game := { s.game with authoritativeSteps := steps } } :
          Server E S).party p).quality := ⟨rfl, rfl⟩
    rw [hread]
    exact StoreRule.handleIncomingSteps _ hstart (fun q _ => hrule q) inStream uninitialized

/-- A round adds at least one forced step, because a party in use has a participant. -/
theorem composeRound_forced [LawfulOutStreams E] {s : Server E S} (hback : BackReferences s)
    (hfits : StepFits s) {p : PartyPtr S} (hused : (s.party p).isUsed = true) (h : Unprovided s p) :
    Ensures (composeRound s)
      (fun r => (r.2.party p).quality.hasAddedFirstAcceptedSteps
          = (s.party p).quality.hasAddedFirstAcceptedSteps ∧
        (s.party p).quality.forcedStepInRowCounter + 1
          ≤ (r.2.party p).quality.forcedStepInRowCounter) (fun _ => True) := by
  have hreferenced := hback.references.parties p hused
  obtain ⟨i, hi⟩ := List.exists_mem_of_ne_nil _ hreferenced.nonempty
  obtain ⟨hiUsed, hiParty, -⟩ := hreferenced.member i hi
  have hcounted : 0 < (List.finRange S.maxParticipantCount).countP fun i =>
      (s.participant i).isUsed = true ∧ (s.participant i).inParty = some p :=
    List.countP_pos_iff.mpr ⟨i, List.mem_finRange i, decide_eq_true ⟨hiUsed, hiParty⟩⟩
  have hall : nextOctets s = some (encodeStep E (stepEntries s)) :=
    (composedOctets_eq_encodeStep_iff s _ (by decide)).mpr hfits.composeBuffer
  obtain ⟨hfirst, hforced⟩ := composedQuality_unprovided h (List.finRange S.maxParticipantCount)
  -- A round whose step fits walks over all slots, whether or not the step is then accepted.
  have hwalk : ∀ {s' : Server E S},
      WalkedTo (nextStepId s) (List.finRange S.maxParticipantCount) s s' →
      (s'.party p).quality.hasAddedFirstAcceptedSteps
          = (s.party p).quality.hasAddedFirstAcceptedSteps ∧
        (s.party p).quality.forcedStepInRowCounter + 1
          ≤ (s'.party p).quality.forcedStepInRowCounter := by
    intro s' hs'
    rw [hs'.quality, hfirst, hforced]
    exact ⟨rfl, Nat.add_le_add_left hcounted _⟩
  refine (composeRound_outcome hback.references.pool.counted).mono (fun r hr => ?_)
    fun _ _ => trivial
  cases hr with
  -- The octets of a step that fits can be written, so the round was started.
  | unstarted s' visited hoctets hwalked hvisited =>
    rw [hall] at hoctets
    cases hoctets
  | refused s' octets hoctets hwalked hwrite =>
    have hs' := hwalk hwalked
    exact hs'
  | written s' octets hoctets hwalked hwrite =>
    have hs' := hwalk hwalked
    exact hs'

/-! ### The stages -/

/-- A silent party that is still in use, where `x₀` is the party at the start and `ops` are
the operations since, newest first. -/
structure Fading (x₀ : LocalParty S) (ops : List (Op S)) (x : LocalParty S) : Prop where
  isUsed : x.isUsed = true
  references : x.participantReferences = x₀.participantReferences
  limit : x.waitingForReconnectMaxTimer = x₀.waitingForReconnectMaxTimer
  first : x.quality.hasAddedFirstAcceptedSteps = x₀.quality.hasAddedFirstAcceptedSteps
  forced : roundCount ops ≤ x.quality.forcedStepInRowCounter
  normal : x.state = .normal →
    ticksAfter (patience x₀) ops ≤ 180 ∧
    ticksAfter (patience x₀) ops ≤ x.impedingDisconnectCounter
  waiting : x.state = .waitingForReJoin →
    ticksAfter (patience x₀) ops ≤ 181 + x.waitingForReconnectTimer ∧
    x.waitingForReconnectTimer < max 1 x₀.waitingForReconnectMaxTimer
  present : x.state ≠ .dissolved

/-- At a tick a normal party is kept or lost. -/
theorem tickedNormal_cases (x : LocalParty S) :
    ((nimbleServerConnectionQualityDelayedTick x.impedingDisconnectCounter x.quality).1 = true ∧
      tickedNormal x = { x with impedingDisconnectCounter :=
        (nimbleServerConnectionQualityDelayedTick x.impedingDisconnectCounter x.quality).2 }) ∨
    ((nimbleServerConnectionQualityDelayedTick x.impedingDisconnectCounter x.quality).1 = false ∧
      tickedNormal x = { x with
        impedingDisconnectCounter :=
          (nimbleServerConnectionQualityDelayedTick x.impedingDisconnectCounter x.quality).2
        state := .waitingForReJoin
        waitingForReconnectTimer := 0 }) := by
  unfold tickedNormal
  generalize nimbleServerConnectionQualityDelayedTick x.impedingDisconnectCounter x.quality = r
  obtain ⟨keep, counter⟩ := r
  cases keep with
  | true => exact .inl ⟨rfl, rfl⟩
  | false => exact .inr ⟨rfl, rfl⟩

namespace Fading

variable {x₀ x x' : LocalParty S} {op : Op S} {ops : List (Op S)}

/-- The bound: at most 180 ticks while the party is normal, one that loses it, and then fewer than
its grace period. -/
theorem bound (h : Fading x₀ ops x) :
    ticksAfter (patience x₀) ops < 181 + max 1 x₀.waitingForReconnectMaxTimer := by
  cases hstate : x.state with
  | normal =>
    have hnormal := (h.normal hstate).1
    omega
  | waitingForReJoin =>
    have hwaiting := h.waiting hstate
    omega
  | dissolved => exact absurd hstate h.present

/-- A datagram moves none of the timers. -/
theorem datagram (h : Fading x₀ ops x) (hsame : x.SameButSteps x') (hop : op ≠ .tick)
    (hfirst : x'.quality.hasAddedFirstAcceptedSteps = x.quality.hasAddedFirstAcceptedSteps)
    (hforced : roundCount (op :: ops) ≤ x'.quality.forcedStepInRowCounter) :
    Fading x₀ (op :: ops) x' := by
  have hstate : x'.state = x.state := by rw [hsame]
  have hcounter : x'.impedingDisconnectCounter = x.impedingDisconnectCounter := by rw [hsame]
  have htimer : x'.waitingForReconnectTimer = x.waitingForReconnectTimer := by rw [hsame]
  refine ⟨?_, ?_, ?_, hfirst.trans h.first, hforced, fun hnormal => ?_, fun hwaiting => ?_, ?_⟩
  · rw [hsame]
    exact h.isUsed
  · rw [hsame]
    exact h.references
  · rw [hsame]
    exact h.limit
  · rw [ticksAfter_cons hop, hcounter]
    exact h.normal (hstate.symm.trans hnormal)
  · rw [ticksAfter_cons hop, htimer]
    exact h.waiting (hstate.symm.trans hwaiting)
  · rw [hstate]
    exact h.present

/-- The quality is bad once the rounds are too many. -/
theorem bad_of_le (h : Fading x₀ ops x) (hrounds : patience x₀ ≤ roundCount ops) :
    nimbleServerConnectionQualityCheckIfShouldDisconnect x.quality = true := by
  have hpatience : patience x = patience x₀ := by
    unfold patience
    rw [h.first]
  have hforced := h.forced
  rw [checkIfShouldDisconnect_eq]
  refine decide_eq_true ?_
  show patience x ≤ _
  omega

/-- A tick of a normal party, which is kept or starts to wait. -/
theorem tick_normal (h : Fading x₀ ops x) (hstate : x.state = .normal) :
    Fading x₀ (.tick :: ops) (tickedNormal x) := by
  obtain ⟨hticks, hcounter⟩ := h.normal hstate
  have hnext := ticksAfter_tick_le (patience x₀) ops
  rcases tickedNormal_cases x with ⟨hkept, hticked⟩ | ⟨-, hticked⟩
  · rw [hticked]
    refine ⟨h.isUsed, h.references, h.limit, h.first, h.forced, fun _ => ?_, fun hwaiting => ?_,
      h.present⟩
    · by_cases hrounds : patience x₀ ≤ roundCount ops
      · -- The tick counts and moves the counter up, and it was not the last one.
        unfold nimbleServerConnectionQualityDelayedTick at hkept ⊢
        rw [h.bad_of_le hrounds, if_pos rfl] at hkept ⊢
        have hlimit : ¬180 < x.impedingDisconnectCounter + 1 := by simpa using hkept
        dsimp only
        omega
      · -- No tick has counted yet.
        have hzero : ticksAfter (patience x₀) (.tick :: ops) = 0 := by
          show _ + (if _ then 1 else 0) = 0
          rw [if_neg hrounds, ticksAfter_eq_zero (Nat.not_le.mp hrounds)]
        rw [hzero]
        exact ⟨Nat.zero_le _, Nat.zero_le _⟩
    · cases hstate.symm.trans hwaiting
  · rw [hticked]
    refine ⟨h.isUsed, h.references, h.limit, h.first, h.forced, ?_, fun _ => ?_, ?_⟩
    · rintro ⟨⟩
    · -- The tick that loses the party is the 181st at most, and the timer starts again.
      show _ ≤ 181 + 0 ∧ 0 < _
      omega
    · rintro ⟨⟩

/-- A tick of a waiting party that does not give up. -/
theorem tick_waiting (h : Fading x₀ ops x) (hstate : x.state = .waitingForReJoin)
    (hexpires : x.expires = false) :
    Fading x₀ (.tick :: ops) (tickWaitingForReconnect x).2 := by
  obtain ⟨hticks, htimer⟩ := h.waiting hstate
  have hlimit := h.limit
  -- The party gives up when the timer reaches the limit, so it is below it.
  have hkept : x.waitingForReconnectTimer + 1 < x.waitingForReconnectMaxTimer := by
    simpa [LocalParty.expires, tickWaitingForReconnect, h.isUsed, hstate] using hexpires
  have hnext := ticksAfter_tick_le (patience x₀) ops
  refine ⟨h.isUsed, h.references, h.limit, h.first, h.forced, fun hnormal => ?_, fun _ => ?_,
    h.present⟩
  · cases hstate.symm.trans hnormal
  · show _ ≤ 181 + (x.waitingForReconnectTimer + 1) ∧ x.waitingForReconnectTimer + 1 < _
    omega

/-- A tick at which the party does not give up. -/
theorem tick (h : Fading x₀ ops x) (hexpires : x.expires = false) :
    Fading x₀ (.tick :: ops) (tickedParty x) := by
  unfold tickedParty
  rw [if_pos h.isUsed]
  cases hstate : x.state with
  | normal => exact h.tick_normal hstate
  | waitingForReJoin =>
    rw [if_neg (by rw [hexpires]; decide)]
    exact h.tick_waiting hstate hexpires
  | dissolved => exact absurd hstate h.present

end Fading

/-! ### A silent party gives up -/

/-- A tick gives no place back. -/
theorem TickOutcome.participant_isUsed {s s' : Server E S} {p : PartyPtr S}
    (h : TickOutcome s p s') (i : ParticipantPtr S) :
    (s'.participant i).isUsed = (s.participant i).isUsed := by
  cases h with
  | unused _ | kept _ _ _ _ | waited _ _ | stale _ _ => rfl
  | lost counter hused hstate hfailing =>
    rw [participant_lost]
    split <;> rfl
  | dissolved hused hstate hcount hconnection =>
    rw [participant_dissolved]
    split <;> rfl
  | disconnected t hused hstate hcount hconnection hfull =>
    show ((dissolveParty (advanceTimer s p) p).participant i).isUsed = _
    rw [participant_dissolved]
    split <;> rfl

/-- Nor does a tick of all parties. Only a round does. -/
theorem tickParties_participant_isUsed (s : Server E S) (i : ParticipantPtr S) :
    Ensures (tickParties s) (fun s' => (s'.participant i).isUsed = (s.participant i).isUsed)
      (fun _ => True) :=
  tickParties_ensures rfl (fun _ _ _ h htick => (htick.participant_isUsed i).trans h)
    fun _ _ _ _ _ => trivial

/-- The participants of the party are in use and leaving. -/
def Leave (s : Server E S) (slots : List (ParticipantPtr S)) : Prop :=
  ∀ i ∈ slots, (s.participant i).isUsed = true ∧ (s.participant i).state = .leaving

/-- What becomes of a silent party in one step: it is still fading, or it is dissolved. -/
theorem Fading.step [LawfulOutStreams E] {s s' : Server E S} {op : Op S} {ops : List (Op S)}
    {p : PartyPtr S} {x₀ : LocalParty S} (h : Fading x₀ ops (s.party p)) (hback : BackReferences s)
    (halone : ReferencedAlone s p) (hop : Silent p s op) (hstep : s.step op = .ok s') :
    Fading x₀ (op :: ops) (s'.party p) ∨
      (s'.party p).isUsed = false ∧ Leave s' x₀.participantReferences := by
  -- Only the two halves of a GameStep request touch the quality. Other datagrams leave the party
  -- as it is.
  rcases hop.play with hdatagram | rfl
  · have hsame := (step_sameButSteps hdatagram hop.isUsed hop.notJoined).of_ok hstep
    have htick : op ≠ .tick := by
      rintro rfl
      exact hdatagram
    have hforced := h.forced
    by_cases hcounts : op.CountsSteps
    · cases op with
      | incomingSteps t inStream uninitialized =>
        cases hstep
        obtain ⟨hfirst, hkept⟩ := sameForced_readIncomingSteps s p t inStream uninitialized
        exact .inl (h.datagram hsame htick hfirst (hkept ▸ hforced))
      | composeRound =>
        obtain ⟨r, hround, rfl⟩ := map_eq_ok.mp hstep
        obtain ⟨hfirst, hmore⟩ := (composeRound_forced hback hop.fits hop.isUsed
          (hop.unprovided rfl)).of_ok hround
        exact .inl (h.datagram hsame htick hfirst (Nat.le_trans (Nat.succ_le_succ hforced) hmore))
      | _ => exact hcounts.elim
    · have hparty := (step_party_eq hdatagram hcounts hop.isUsed hop.notJoined).of_ok hstep
      have hround : op ≠ .composeRound := by
        rintro rfl
        exact hcounts trivial
      refine .inl (h.datagram hsame htick (by rw [hparty]) ?_)
      rw [roundCount_cons hround, hparty]
      exact hforced
  · have hparty := (tickParties_party s).of_ok hstep
    cases hexpires : (s.party p).expires with
    | false =>
      rw [hparty]
      exact .inl (h.tick hexpires)
    | true =>
      have hdissolved := tickParties_dissolves hexpires halone hstep
      refine .inr ⟨by rw [hdissolved.party]; rfl, fun i hi => ?_⟩
      rw [← h.references] at hi
      refine ⟨?_, hdissolved.participants i hi⟩
      rw [(tickParties_participant_isUsed s i).of_ok hstep]
      exact ((hback.references.parties p h.isUsed).member i hi).1

/-- It can be evaluated along a run. -/
instance (s : Server E S) (p : PartyPtr S) : Decidable (Unprovided s p) :=
  inferInstanceAs (Decidable (∀ _, _ → _ → _))

/-- Ticks and rounds. -/
def Op.IsQuiet : Op S → Bool
  | .tick | .composeRound => true
  | _ => false

/-- With such operations silence can be checked state by state. -/
theorem silent_of_isQuiet {s : Server plainExternal S} {op : Op S} {p : PartyPtr S}
    (hquiet : op.IsQuiet = true) (hfits : PlainFits s op) (hused : (s.party p).isUsed = true)
    (hunprovided : Unprovided s p) : Silent p s op where
  play := by
    cases op with
    | tick => exact .inr rfl
    | composeRound => exact .inl trivial
    | _ => cases hquiet
  fits := hfits.fitsWhenComposed
  isUsed := hused
  notJoined := by
    cases op with
    | join t request uninitialized => cases hquiet
    | _ => exact id
  unprovided := fun _ => hunprovided

end NimbleServer
