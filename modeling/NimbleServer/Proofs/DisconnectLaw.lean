import NimbleServer.Lib.SuffixSums
import NimbleServer.Proofs.MigrationPool
import NimbleServer.Proofs.PartyPlay
import NimbleServer.Proofs.Round

/-!
# `NimbleServer.Proofs.DisconnectLaw`: when a party is given up on

Three counters decide that a party in state Normal has to wait for a rejoin: the forced steps
in a row, the flag for a first usable step, and the counter of the delayed quality. Composing
moves the first two and ticks move the third.

A history lists what happened to a party since it was initialised, the latest event first, so
that an earlier moment of it is a suffix of the list. `QualityIsBad` and `Sustained` are read
off the history alone. `Follows` ties a party to its history. `Follows.next` keeps it over
each event, and the law is what `Follows` says at the end of a history.

The runs of the server are such histories (`exists_history`): a tick is one event, and a round
of composing is one event for each participant of the party.
-/

set_option autoImplicit false

namespace NimbleServer

open NimbleServer.Lib

variable {E : External} {S : Setup}

/-! ### Histories -/

/-- What happens to a party: composing takes no step or one step of it, or the server ticks. -/
inductive PartyEvent
  | forcedStep
  | usableStep
  | tick
  deriving DecidableEq

/-- The server after the event of a party. -/
def PartyEvent.apply (p : PartyPtr S) (s : Server E S) : PartyEvent → Server E S
  | .forcedStep => s.setParty p { s.party p with
      quality := nimbleServerConnectionQualityAddedForcedSteps (s.party p).quality 1 }
  | .usableStep => s.setParty p { s.party p with
      quality := nimbleServerConnectionQualityProvidedUsableStep (s.party p).quality }
  | .tick => (nimbleServerLocalPartyTick s p).2

/-- The server after a history, the latest event first. -/
def afterHistory (p : PartyPtr S) (s : Server E S) : List PartyEvent → Server E S
  | [] => s
  | event :: earlier => event.apply p (afterHistory p s earlier)

/-- The forced steps since the latest usable step, or since the start. -/
def forcedSinceUsable (history : List PartyEvent) : Nat :=
  (history.takeWhile (· ≠ .usableStep)).count .forcedStep

/-- Too many forced steps since the latest usable step. -/
def QualityIsBad (history : List PartyEvent) : Prop :=
  (if .usableStep ∈ history then 20 else 200) ≤ forcedSinceUsable history

/-- A comparison of two counts. -/
instance (history : List PartyEvent) : Decidable (QualityIsBad history) :=
  inferInstanceAs (Decidable (_ ≤ _))

/-- The ticks of a history, the oldest first, and whether each found the quality bad. -/
def badTicks : List PartyEvent → List Bool
  | [] => []
  | .tick :: earlier => badTicks earlier ++ [decide (QualityIsBad earlier)]
  | .forcedStep :: earlier | .usableStep :: earlier => badTicks earlier

/-- How many more of the ticks are bad than good. -/
def excess (ticks : List Bool) : Int := (ticks.count true : Int) - ticks.count false

/-- Some suffix of the ticks has at least 181 more bad than good ones. -/
def Sustained (history : List PartyEvent) : Prop :=
  ∃ ticks, ticks <:+ badTicks history ∧ 181 ≤ excess ticks

/-- The party was just initialised or initialised again. -/
structure Initialised (x : LocalParty S) : Prop where
  state : x.state = .normal
  quality : x.quality = nimbleServerConnectionQualityReset
  impedingDisconnectCounter : x.impedingDisconnectCounter = 0

/-! ### The level of the counter -/

/-- A bad tick is a step up, a good one a step down. -/
def tickWeight (bad : Bool) : Int := if bad then 1 else -1

/-- The excess is the sum of the steps. -/
theorem excess_eq_sum (ticks : List Bool) : excess ticks = (ticks.map tickWeight).sum := by
  induction ticks with
  | nil => rfl
  | cons bad ticks ih =>
    rw [List.map_cons, List.sum_cons, ← ih]
    unfold excess tickWeight
    -- A tick is bad or good, and counts on one side of the difference.
    cases bad with
    | true =>
      rw [List.count_cons_self, List.count_cons_of_ne (by decide)]
      push_cast
      show _ = 1 + _
      omega
    | false =>
      rw [List.count_cons_self, List.count_cons_of_ne (by decide)]
      push_cast
      show _ = -1 + _
      omega

/-- The level that the ticks of a history reach. -/
def tickLevel (history : List PartyEvent) : Int :=
  reflected ((badTicks history).map tickWeight)

/-- The sums over suffixes of the steps are the excesses over suffixes of the ticks. -/
theorem suffixSums_tickWeight (ticks : List Bool) :
    suffixSums (ticks.map tickWeight) = {x | ∃ latest, latest <:+ ticks ∧ excess latest = x} := by
  ext x
  constructor
  · rintro ⟨steps, hsteps, rfl⟩
    obtain ⟨latest, hlatest, rfl⟩ := List.suffix_map_iff.mp hsteps
    exact ⟨latest, hlatest, excess_eq_sum latest⟩
  · rintro ⟨latest, hlatest, rfl⟩
    exact ⟨latest.map tickWeight, hlatest.map _, (excess_eq_sum latest).symm⟩

/-- The level is the greatest excess over a suffix of the ticks. -/
theorem isGreatest_tickLevel (history : List PartyEvent) :
    IsGreatest {x | ∃ ticks, ticks <:+ badTicks history ∧ excess ticks = x}
      (tickLevel history) :=
  suffixSums_tickWeight (badTicks history) ▸ isGreatest_reflected _

/-- A failure is sustained exactly if the level has reached 181. -/
theorem sustained_iff {history : List PartyEvent} :
    Sustained history ↔ 181 ≤ tickLevel history := by
  constructor
  · rintro ⟨ticks, hticks, hexcess⟩
    exact hexcess.trans ((isGreatest_tickLevel history).2 ⟨ticks, hticks, rfl⟩)
  · intro h
    obtain ⟨ticks, hticks, hexcess⟩ := (isGreatest_tickLevel history).1
    exact ⟨ticks, hticks, hexcess.symm ▸ h⟩

/-- A tick moves the level up or down, but not below zero. -/
theorem tickLevel_tick (history : List PartyEvent) :
    tickLevel (.tick :: history)
      = max 0 (tickLevel history + if QualityIsBad history then 1 else -1) := by
  unfold tickLevel
  rw [badTicks, List.map_append, List.map_singleton, reflected_concat]
  simp only [tickWeight, decide_eq_true_eq]

/-- A party that never had 20 forced steps in a row has no bad ticks. -/
theorem tickLevel_eq_zero {history : List PartyEvent}
    (h : ∀ earlier, earlier <:+ history → forcedSinceUsable earlier < 20) :
    tickLevel history = 0 := by
  induction history with
  | nil => rfl
  | cons event earlier ih =>
    have hearlier := ih fun l hl => h l (hl.trans (List.suffix_cons event earlier))
    cases event with
    | forcedStep | usableStep => exact hearlier
    | tick =>
      -- Both thresholds are at least 20.
      have hgood : ¬QualityIsBad earlier := by
        have hforced := h earlier (List.suffix_cons _ earlier)
        unfold QualityIsBad
        split <;> omega
      rw [tickLevel_tick, hearlier, if_neg hgood]
      rfl

/-! ### A party and its history -/

/-- No earlier moment of the history had a sustained failure, nor has its end. -/
def NeverSustained (history : List PartyEvent) : Prop :=
  ∀ earlier, earlier <:+ history → ¬Sustained earlier

/-- One event more. -/
theorem neverSustained_cons {event : PartyEvent} {history : List PartyEvent} :
    NeverSustained (event :: history) ↔ ¬Sustained (event :: history) ∧ NeverSustained history := by
  constructor
  · intro h
    exact ⟨h _ List.suffix_rfl, fun earlier he => h earlier (he.trans (List.suffix_cons _ _))⟩
  · rintro ⟨hnow, hbefore⟩ earlier hearlier
    -- A moment of the longer history is its end or a moment of the shorter one.
    rcases List.suffix_cons_iff.mp hearlier with rfl | hearlier
    · exact hnow
    · exact hbefore earlier hearlier

/-- What the quality of a party remembers of its history. -/
structure QualityFollows (quality : ConnectionQuality) (history : List PartyEvent) : Prop where
  first : quality.hasAddedFirstAcceptedSteps = decide (.usableStep ∈ history)
  forced : quality.forcedStepInRowCounter = forcedSinceUsable history

namespace QualityFollows

variable {quality : ConnectionQuality} {history : List PartyEvent}

/-- The quality is bad exactly if the history says so. -/
theorem bad_iff (h : QualityFollows quality history) :
    nimbleServerConnectionQualityCheckIfShouldDisconnect quality = true ↔
      QualityIsBad history := by
  rw [checkIfShouldDisconnect_eq]
  unfold isFailingToProvideStepsInTime QualityIsBad
  rw [h.first, h.forced]
  simp only [decide_eq_true_eq]

/-- A forced step is counted. -/
theorem forcedStep (h : QualityFollows quality history) :
    QualityFollows (nimbleServerConnectionQualityAddedForcedSteps quality 1)
      (.forcedStep :: history) := by
  constructor
  · show quality.hasAddedFirstAcceptedSteps = _
    rw [h.first]
    simp
  · show quality.forcedStepInRowCounter + 1 = _
    rw [h.forced]
    simp [forcedSinceUsable]

/-- A usable step starts the count anew. -/
theorem usableStep (quality : ConnectionQuality) (history : List PartyEvent) :
    QualityFollows (nimbleServerConnectionQualityProvidedUsableStep quality)
      (.usableStep :: history) :=
  ⟨(decide_eq_true List.mem_cons_self).symm, rfl⟩

/-- A tick does not touch the quality. -/
theorem tick (h : QualityFollows quality history) : QualityFollows quality (.tick :: history) := by
  constructor
  · rw [h.first]
    simp
  · exact h.forced

end QualityFollows

/-- What a party remembers of its history. -/
structure Follows (x : LocalParty S) (history : List PartyEvent) : Prop where
  quality : QualityFollows x.quality history
  normal : NeverSustained history → x.state = .normal
  waiting : ¬NeverSustained history → x.state = .waitingForReJoin
  counter : NeverSustained history → (x.impedingDisconnectCounter : Int) = tickLevel history

/-- A party that was just initialised has no history yet. -/
theorem Initialised.follows {x : LocalParty S} (h : Initialised x) : Follows x [] := by
  -- Without a tick the level is zero.
  have hnever : NeverSustained [] := by
    intro earlier hearlier
    rw [List.suffix_nil.mp hearlier, sustained_iff]
    decide
  refine ⟨?_, fun _ => h.state, fun hnot => absurd hnever hnot, fun _ => ?_⟩
  · rw [h.quality]
    exact ⟨rfl, rfl⟩
  · rw [h.impedingDisconnectCounter]
    rfl

/-- Events of composing add no ticks. -/
theorem badTicks_append {events : List PartyEvent} (hticks : .tick ∉ events)
    (history : List PartyEvent) : badTicks (events ++ history) = badTicks history := by
  induction events with
  | nil => rfl
  | cons event events ih =>
    have hrest := ih fun h => hticks (List.mem_cons_of_mem event h)
    cases event with
    | tick => exact absurd List.mem_cons_self hticks
    | forcedStep | usableStep => exact hrest

/-- Composing alone does not sustain a failure. -/
theorem neverSustained_append {events : List PartyEvent} (hticks : .tick ∉ events)
    (history : List PartyEvent) :
    NeverSustained (events ++ history) ↔ NeverSustained history := by
  induction events with
  | nil => exact Iff.rfl
  | cons event events ih =>
    have hrest := ih fun h => hticks (List.mem_cons_of_mem event h)
    have hsame : Sustained (event :: events ++ history) ↔ Sustained history := by
      unfold Sustained
      rw [badTicks_append hticks]
    rw [List.cons_append, neverSustained_cons, hrest, ← List.cons_append, hsame]
    exact and_iff_right_of_imp fun hbefore => hbefore _ List.suffix_rfl

namespace Follows

variable {x : LocalParty S} {history : List PartyEvent}

/-- Composing changes the quality only. -/
theorem compose (h : Follows x history) (events : List PartyEvent) (hticks : .tick ∉ events)
    {y : LocalParty S} (hstate : y.state = x.state)
    (hcounter : y.impedingDisconnectCounter = x.impedingDisconnectCounter)
    (hquality : QualityFollows y.quality (events ++ history)) :
    Follows y (events ++ history) := by
  have hnever := neverSustained_append hticks history
  have hlevel : tickLevel (events ++ history) = tickLevel history := by
    unfold tickLevel
    rw [badTicks_append hticks]
  refine ⟨hquality, ?_, ?_, ?_⟩
  · rw [hnever, hstate]
    exact h.normal
  · rw [hnever, hstate]
    exact h.waiting
  · rw [hnever, hlevel, hcounter]
    exact h.counter

/-- The counter goes up at a bad tick and down at a good one, but not below zero. -/
theorem counter_tickedNormal (h : Follows x history) (hnever : NeverSustained history) :
    ((tickedNormal x).impedingDisconnectCounter : Int) = tickLevel (.tick :: history) := by
  have hcounter := h.counter hnever
  rw [tickLevel_tick, ← hcounter]
  have hticked : (tickedNormal x).impedingDisconnectCounter
      = (nimbleServerConnectionQualityDelayedTick x.impedingDisconnectCounter x.quality).2 := by
    unfold tickedNormal
    dsimp only
    split <;> rfl
  rw [hticked]
  unfold nimbleServerConnectionQualityDelayedTick
  -- The subtraction of the counter stops at zero, which is the `max` of the level.
  by_cases hbad : QualityIsBad history
  · rw [if_pos hbad, if_pos (h.quality.bad_iff.mpr hbad)]
    push_cast
    omega
  · rw [if_neg hbad, if_neg (mt h.quality.bad_iff.mp hbad)]
    dsimp only
    omega

/-- The party waits after the tick if the counter passed 180. -/
theorem state_tickedNormal (h : Follows x history) (hnever : NeverSustained history) :
    (tickedNormal x).state
      = if 181 ≤ (tickedNormal x).impedingDisconnectCounter then .waitingForReJoin
        else .normal := by
  -- No failure was sustained so far, so the counter has not passed the threshold.
  have hlow : x.impedingDisconnectCounter ≤ 180 := by
    have hcounter := h.counter hnever
    have hnot := hnever history List.suffix_rfl
    rw [sustained_iff] at hnot
    omega
  have hnormal := h.normal hnever
  unfold tickedNormal nimbleServerConnectionQualityDelayedTick
  by_cases hbad : nimbleServerConnectionQualityCheckIfShouldDisconnect x.quality = true
  · by_cases hhigh : 180 ≤ x.impedingDisconnectCounter
    · simp [hbad, hhigh]
    · simp [hbad, hhigh, hnormal]
  · simp [hbad, hnormal]
    omega

/-- The tick of a party in state Normal. -/
theorem tickedNormal (h : Follows x history) (hnever : NeverSustained history) :
    Follows (tickedNormal x) (.tick :: history) := by
  have hcounter := h.counter_tickedNormal hnever
  have hstate := h.state_tickedNormal hnever
  have hquality : (NimbleServer.tickedNormal x).quality = x.quality := by
    unfold NimbleServer.tickedNormal
    dsimp only
    split <;> rfl
  have hiff : NeverSustained (.tick :: history) ↔
      ¬181 ≤ (NimbleServer.tickedNormal x).impedingDisconnectCounter := by
    rw [neverSustained_cons, and_iff_left hnever, sustained_iff, ← hcounter]
    omega
  refine ⟨hquality ▸ h.quality.tick, fun hlow => ?_, fun hhigh => ?_, fun _ => hcounter⟩
  · rw [hstate, if_neg (hiff.mp hlow)]
  · rw [hstate, if_pos (not_not.mp (mt hiff.mpr hhigh))]

/-- The tick of a party that waits already. -/
theorem tickedWaiting (h : Follows x history) (hnever : ¬NeverSustained history)
    (waitingForReconnectTimer : Nat) :
    Follows { x with waitingForReconnectTimer } (.tick :: history) := by
  have hstill : ¬NeverSustained (.tick :: history) :=
    fun hnow => hnever (neverSustained_cons.mp hnow).2
  exact ⟨h.quality.tick, fun hnow => absurd hnow hstill, fun _ => h.waiting hnever,
    fun hnow => absurd hnow hstill⟩

end Follows

/-- The party after the tick of a party in state Normal. -/
theorem party_localPartyTick {s : Server E S} {p : PartyPtr S} (h : (s.party p).state = .normal) :
    (nimbleServerLocalPartyTick s p).2.party p = tickedNormal (s.party p) := by
  unfold nimbleServerLocalPartyTick
  rw [h]
  dsimp only
  rw [party_tickNormal h, if_pos rfl]

/-- Each event keeps what the party remembers. -/
theorem Follows.next {s : Server E S} {p : PartyPtr S} {history : List PartyEvent}
    (h : Follows (s.party p) history) (event : PartyEvent) :
    Follows ((event.apply p s).party p) (event :: history) := by
  cases event with
  | forcedStep =>
    unfold PartyEvent.apply
    dsimp only
    rw [Server.party_setParty, if_pos rfl]
    exact h.compose [.forcedStep] (by decide) rfl rfl h.quality.forcedStep
  | usableStep =>
    unfold PartyEvent.apply
    dsimp only
    rw [Server.party_setParty, if_pos rfl]
    exact h.compose [.usableStep] (by decide) rfl rfl (.usableStep _ _)
  | tick =>
    show Follows ((nimbleServerLocalPartyTick s p).2.party p) _
    -- Until the failure is sustained the party is in state Normal, afterwards it waits.
    by_cases hnever : NeverSustained history
    · rw [party_localPartyTick (h.normal hnever)]
      exact h.tickedNormal hnever
    · unfold nimbleServerLocalPartyTick
      rw [h.waiting hnever]
      dsimp only
      rw [Server.party_setParty, if_pos rfl]
      exact h.tickedWaiting hnever _

/-- Induction on the history. -/
theorem follows_afterHistory {s : Server E S} {p : PartyPtr S} (hinit : Initialised (s.party p))
    (history : List PartyEvent) : Follows ((afterHistory p s history).party p) history := by
  induction history with
  | nil => exact hinit.follows
  | cons event earlier ih => exact ih.next event

/-- The state tells whether a failure was sustained. -/
theorem Follows.state_eq_normal_iff {x : LocalParty S} {history : List PartyEvent}
    (h : Follows x history) : x.state = .normal ↔ NeverSustained history := by
  refine ⟨fun hstate => ?_, h.normal⟩
  by_contra hnever
  cases hstate.symm.trans (h.waiting hnever)

/-! ### The law -/

/-- From its initialisation on, a party is in state Normal until its failure is sustained. At
each tick until then its quality is bad exactly after 20 forced steps in a row, or 200 before
the first usable one. The counter is the greatest excess of bad ticks over a suffix of the
ticks, and the party waits after the tick exactly if that is 181. -/
theorem disconnect_follows_sustained_failure {s : Server E S} {p : PartyPtr S}
    (hinit : Initialised (s.party p)) (history : List PartyEvent) :
    (((afterHistory p s history).party p).state = .normal ↔
      ∀ earlier, earlier <:+ history → ¬Sustained earlier) ∧
    (((afterHistory p s history).party p).state = .normal →
      (nimbleServerConnectionQualityCheckIfShouldDisconnect
          ((afterHistory p s history).party p).quality = true ↔ QualityIsBad history) ∧
      IsGreatest {x : Int | ∃ ticks, ticks <:+ badTicks (.tick :: history) ∧ excess ticks = x}
        ((afterHistory p s (.tick :: history)).party p).impedingDisconnectCounter ∧
      (((afterHistory p s (.tick :: history)).party p).state = .waitingForReJoin ↔
        Sustained (.tick :: history))) ∧
    ((∀ earlier, earlier <:+ history → forcedSinceUsable earlier < 20) →
      ((afterHistory p s history).party p).state = .normal) := by
  have h := follows_afterHistory hinit history
  have hnext := follows_afterHistory hinit (.tick :: history)
  refine ⟨h.state_eq_normal_iff, fun hstate => ⟨h.quality.bad_iff, ?_, ?_⟩, fun hforced => ?_⟩
  · have hnever := h.state_eq_normal_iff.mp hstate
    have hticked : (afterHistory p s (.tick :: history)).party p
        = tickedNormal ((afterHistory p s history).party p) :=
      party_localPartyTick hstate
    rw [hticked, h.counter_tickedNormal hnever]
    exact isGreatest_tickLevel _
  · have hnever := h.state_eq_normal_iff.mp hstate
    have hiff : NeverSustained (.tick :: history) ↔ ¬Sustained (.tick :: history) := by
      rw [neverSustained_cons, and_iff_left hnever]
    -- The party was in state Normal before this tick, so only the tick can have sustained the
    -- failure.
    by_cases hsustained : Sustained (.tick :: history)
    · exact iff_of_true (hnext.waiting (fun hnow => hiff.mp hnow hsustained)) hsustained
    · refine iff_of_false ?_ hsustained
      rw [hnext.normal (hiff.mpr hsustained)]
      rintro ⟨⟩
  · refine h.normal fun earlier hearlier => ?_
    have hlevel : tickLevel earlier = 0 :=
      tickLevel_eq_zero fun l hl => hforced l (hl.trans hearlier)
    rw [sustained_iff, hlevel]
    decide

/-- A usable step and 20 forced ones. -/
def lostPlayer (ticks : Nat) : List PartyEvent :=
  List.replicate ticks .tick ++ List.replicate 20 .forcedStep ++ [.usableStep]

/-- A player that was lost after its first step is in state Normal for 180 ticks. -/
theorem disconnect_follows_lostPlayer :
    Initialised ((zeroMemory (plainSetup 1)).party ⟨0, by decide⟩) ∧
    ((afterHistory ⟨0, by decide⟩ (zeroMemory (plainSetup 1)) (lostPlayer 180)).party
      ⟨0, by decide⟩).state = .normal ∧
    ((afterHistory ⟨0, by decide⟩ (zeroMemory (plainSetup 1)) (lostPlayer 181)).party
      ⟨0, by decide⟩).state = .waitingForReJoin := by
  have hinit : Initialised ((zeroMemory (plainSetup 1)).party ⟨0, by decide⟩) := ⟨rfl, rfl, rfl⟩
  have hnormal : ((afterHistory ⟨0, by decide⟩ (zeroMemory (plainSetup 1))
      (lostPlayer 180)).party ⟨0, by decide⟩).state = .normal := by decide +kernel
  have hlaw := (disconnect_follows_sustained_failure hinit (lostPlayer 180)).2.1 hnormal
  exact ⟨hinit, hnormal, hlaw.2.2.mpr ⟨badTicks (lostPlayer 181), List.suffix_rfl,
    by decide +kernel⟩⟩

/-! ### The histories of a server -/

/-- What composing the entry of a slot is for a party: an event if the participant is its
own. -/
def slotEvents (s : Server E S) (lookingFor : StepId) (p : PartyPtr S) (i : ParticipantPtr S) :
    List PartyEvent :=
  if (s.participant i).isUsed = true ∧ (s.participant i).inParty = some p then
    [if (providedStep (s.participant i) lookingFor).isSome then .usableStep else .forcedStep]
  else []

/-- What composing the listed slots in order is for a party. -/
def composeEvents (s : Server E S) (lookingFor : StepId) (slots : List (ParticipantPtr S))
    (p : PartyPtr S) : List PartyEvent :=
  slots.reverse.flatMap (slotEvents s lookingFor p)

/-- Composing is no tick. -/
theorem tick_notMem_composeEvents (s : Server E S) (lookingFor : StepId)
    (slots : List (ParticipantPtr S)) (p : PartyPtr S) :
    .tick ∉ composeEvents s lookingFor slots p := by
  unfold composeEvents
  rw [List.mem_flatMap]
  rintro ⟨i, -, hi⟩
  unfold slotEvents at hi
  split at hi
  · rw [List.mem_singleton] at hi
    split at hi <;> cases hi
  · cases hi

/-- Induction on the slots, the one composed last first. -/
theorem qualityFollows_composed {s : Server E S} {p : PartyPtr S} {history : List PartyEvent}
    (h : QualityFollows (s.party p).quality history) (lookingFor : StepId)
    (slots : List (ParticipantPtr S)) :
    QualityFollows (composedQuality s lookingFor slots p)
      (composeEvents s lookingFor slots p ++ history) := by
  induction slots using List.reverseRecOn with
  | nil => exact h
  -- A history has the latest event first, so the last slot comes first in it.
  | append_singleton slots i ih =>
    have hevents : composeEvents s lookingFor (slots ++ [i]) p
        = slotEvents s lookingFor p i ++ composeEvents s lookingFor slots p := by
      unfold composeEvents
      rw [List.reverse_append, List.reverse_singleton, List.singleton_append,
        List.flatMap_cons]
    have hquality : composedQuality s lookingFor (slots ++ [i]) p
        = if (s.participant i).isUsed = true ∧ (s.participant i).inParty = some p then
            readQuality (s.participant i) lookingFor (composedQuality s lookingFor slots p)
          else composedQuality s lookingFor slots p := by
      unfold composedQuality
      rw [List.foldl_append]
      rfl
    rw [hevents, hquality, List.append_assoc]
    unfold slotEvents readQuality
    split
    · split
      · exact .usableStep _ _
      · exact ih.forcedStep
    · exact ih

/-- What an operation of a running game is for a party. A round that cannot start an entry
stops there, so it has composed the slots up to that one. -/
inductive OpEvents (s : Server E S) (p : PartyPtr S) : Op S → List PartyEvent → Prop
  | tick : OpEvents s p .tick [.tick]
  | compose (slots : List (ParticipantPtr S)) :
      OpEvents s p .composeRound (composeEvents s (nextStepId s) slots p)
  | other (op : Op S) (htick : op ≠ .tick) (hcompose : op ≠ .composeRound) : OpEvents s p op []

/-- What is noted about added steps does not count. -/
theorem QualityFollows.noteAddedSteps {x : LocalParty S} {history : List PartyEvent}
    (h : QualityFollows x.quality history) (steps : E.Steps) (total : Nat) :
    QualityFollows (NimbleServer.noteAddedSteps x steps total).quality history := by
  unfold NimbleServer.noteAddedSteps
  split
  · dsimp only
    split
    · exact ⟨h.first, h.forced⟩
    · exact ⟨h.first, h.forced⟩
  · exact h

/-- A GameStep request leaves the quality as far as it is remembered. -/
theorem QualityFollows.readIncomingSteps {s : Server E S} {p : PartyPtr S}
    {history : List PartyEvent} (h : QualityFollows (s.party p).quality history)
    (t : ConnectionPtr) (inStream : InStream) (uninitialized : Uninitialized S) :
    QualityFollows
      ((NimbleServer.readIncomingSteps s t inStream uninitialized).2.2.party p).quality
      history := by
  have hrule : ∀ q : PartyPtr S,
      StoreRule q (fun s' : Server E S => QualityFollows (s'.party p).quality history) := by
    intro q
    refine ⟨fun s' i stepId inStream hs' _ => ?_, fun s' steps total hs' => ?_⟩
    · rw [party_deserializeSingleStep]
      exact hs'
    · rw [Server.party_setParty]
      split
      · -- Only the party of the request notes anything.
        rename_i hqp
        subst hqp
        exact hs'.noteAddedSteps steps total
      · exact hs'
  obtain ⟨steps, -, hread | hread⟩ := readIncomingSteps_cases s t inStream uninitialized
  · rw [hread]
    exact h
  · rw [hread]
    exact StoreRule.handleIncomingSteps _ h (fun q _ => hrule q) inStream uninitialized

/-- What a round of composing is for a party. -/
theorem composeRound_partyEvents [LawfulOutStreams E] {s : Server E S}
    (hpool : PoolCounted s.game.participants) (p : PartyPtr S) :
    Ensures (composeRound s) (fun r => ∃ slots, ∀ history, Follows (s.party p) history →
      Follows (r.2.party p) (composeEvents s (nextStepId s) slots p ++ history))
      (fun _ => True) := by
  have hwalk : ∀ {slots : List (ParticipantPtr S)} {s' : Server E S},
      WalkedTo (nextStepId s) slots s s' → ∀ history, Follows (s.party p) history →
      Follows (s'.party p) (composeEvents s (nextStepId s) slots p ++ history) := by
    intro slots s' hs' history h
    refine h.compose _ (tick_notMem_composeEvents _ _ _ _) (hs'.parties.state p)
      (hs'.parties.impedingDisconnectCounter p) ?_
    rw [hs'.quality]
    exact qualityFollows_composed h.quality _ _
  refine (composeRound_outcome hpool).mono (fun r hr => ?_) fun _ _ => trivial
  cases hr with
  -- However the round ends, the slots it visited are composed.
  | unstarted s' visited hoctets hwalked hvisited => exact ⟨visited, hwalk hwalked⟩
  | refused s' octets hoctets hwalked hwrite =>
    have hs' := hwalk hwalked
    exact ⟨_, hs'⟩
  | written s' octets hoctets hwalked hwrite =>
    have hs' := hwalk hwalked
    exact ⟨_, hs'⟩

/-- Each operation of a running game is a list of events for a party in state Normal. -/
theorem step_partyEvents [LawfulOutStreams E] {s : Server E S} {op : Op S} {p : PartyPtr S}
    (hpool : PoolCounted s.game.participants) (hop : op.IsPlay) (hused : (s.party p).isUsed = true)
    (hnormal : (s.party p).state = .normal) (hjoin : ¬JoinsParty s p op) :
    Ensures (s.step op) (fun s' => ∃ events, OpEvents s p op events ∧
      ∀ history, Follows (s.party p) history → Follows (s'.party p) (events ++ history))
      (fun _ => True) := by
  rcases hop with hop | rfl
  · -- Most operations do not touch the party at all.
    have hother : ¬op.CountsSteps →
        Ensures (s.step op) (fun s' => ∃ events, OpEvents s p op events ∧
          ∀ history, Follows (s.party p) history → Follows (s'.party p) (events ++ history))
          (fun _ => True) := by
      intro hcounts
      refine (step_party_eq hop hcounts hused hjoin).mono (fun s' hs' => ?_) fun _ h => h
      refine ⟨[], .other op ?_ ?_, fun history h => hs' ▸ h⟩
      · rintro rfl
        exact hop
      · rintro rfl
        exact hcounts trivial
    cases op with
    | composeRound =>
      refine Ensures.map ((composeRound_partyEvents hpool p).mono ?_ fun _ h => h)
      rintro r ⟨slots, hslots⟩
      exact ⟨_, .compose slots, hslots⟩
    | incomingSteps t inStream uninitialized =>
      have hsame := SameParties.of_readIncomingSteps s t inStream uninitialized
      refine ⟨[], .other _ (by rintro ⟨⟩) (by rintro ⟨⟩), fun history h => ?_⟩
      exact h.compose [] (by decide) (hsame.state p) (hsame.impedingDisconnectCounter p)
        (h.quality.readIncomingSteps t inStream uninitialized)
    | _ => exact hother fun h => h
  · refine (tickParties_party s).mono (fun s' hs' => ?_) fun _ _ => trivial
    have hticked : s'.party p = tickedNormal (s.party p) := by
      rw [hs', tickedParty, if_pos hused, hnormal]
    refine ⟨[.tick], .tick, fun history h => ?_⟩
    rw [hticked]
    exact h.tickedNormal (h.state_eq_normal_iff.mp hnormal)

/-- The ticks among the events are those of the operation. -/
theorem OpEvents.count_tick {s : Server E S} {p : PartyPtr S} {op : Op S}
    {events : List PartyEvent} (h : OpEvents s p op events) :
    events.count .tick = (tickEvents s op).length := by
  cases h with
  | tick => rfl
  | compose slots => exact List.count_eq_zero.mpr (tick_notMem_composeEvents _ _ _ _)
  | other op htick hcompose =>
    cases op with
    | tick => exact absurd rfl htick
    | _ => rfl

/-- The operations of a running game while the party is in state Normal and nobody joins it. -/
def PlaysOn (p : PartyPtr S) (s : Server E S) (op : Op S) : Prop :=
  op.IsPlay ∧ (s.party p).isUsed = true ∧ (s.party p).state = .normal ∧ ¬JoinsParty s p op

/-- A run of the server is a history, with the ticks of the run, for a party that was
initialised at its start. -/
theorem exists_history [LawfulOutStreams E] {start s : Server E S} (hstart : StartsGame start)
    (hrun : Reaches Server.step (fun _ _ => True) start s) {p : PartyPtr S}
    (hinit : Initialised (s.party p)) {state : Server E S × List Unit}
    (hplay : Reaches (recorded Server.step tickEvents) (fun state op => PlaysOn p state.1 op)
      (s, []) state) :
    ∃ history, history.count .tick = state.2.length ∧ Follows (state.1.party p) history := by
  induction hplay with
  | refl => exact ⟨[], rfl, hinit.follows⟩
  | tail hbefore hallowed hstep ih =>
    obtain ⟨history, hcount, h⟩ := ih
    obtain ⟨hop, hused, hnormal, hjoin⟩ := hallowed
    obtain ⟨s2, hs2, rfl⟩ := map_eq_ok.mp hstep
    -- The pool has to be in order at each round, so the whole run from the start of the game is
    -- needed.
    have hpool := (poolCovers_reachable hstart (hrun.trans hbefore.of_recorded)).counted
    obtain ⟨events, hop, hevents⟩ :=
      (step_partyEvents hpool hop hused hnormal hjoin).of_ok hs2
    refine ⟨events ++ history, ?_, hevents history h⟩
    rw [List.count_append, hop.count_tick, hcount, List.length_append]

end NimbleServer
