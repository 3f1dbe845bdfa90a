import NimbleServer.Lib.Streak
import NimbleServer.Lib.Trace
import NimbleServer.Model.PlainServer
import NimbleServer.Model.UpdateQuality
import NimbleServer.Proofs.ReceiveLoop

/-!
# `NimbleServer.Proofs.HostRuns`: a host over many updates

A host is updated again and again while datagrams arrive. This module has two results about
such runs.

`host_stops_iff` is what the quality is for. The history of a run tells the times between
updates (`measurements`), and the host has stopped exactly when 61 of them in a row were late
or 51 of the averages in a row were too large. The counters of the source are the streaks of
this history (`Monitored`). A host that has stopped takes no datagram and ticks no party until
the next game.

`datagrams_fed_in_order` is about the queue. What an update leaves in the queue is there for
the next one, so nothing is lost, repeated or overtaken: the calls of `nimbleServerFeed` are
for the datagrams in the order in which they arrived. Every update takes something, so a
datagram waits for at most as many updates as there are entries before it.
-/

set_option autoImplicit false

namespace NimbleServer

open NimbleServer.Lib

variable {M : Stats} {E : External} {S : Setup}

/-! ### What the updates measured -/

/-- What one update measured: the time since the last one, and the statistics with it. -/
structure Measurement (M : Stats) where
  delta : Nat
  stat : M.StatsInt

/-- The latest reading of the clock, when the history, newest first, began at `init`. -/
def lastReading (init : Int) : List (HostOp E S) → Int
  | [] => init
  | .update now :: _ | .reInitWithGame _ now :: _ => now
  | _ :: earlier => lastReading init earlier

/-- The statistics after some measurements, newest first. -/
def measuredStat : List (Measurement M) → M.StatsInt
  | [] => M.statsIntInit 10
  | latest :: _ => latest.stat

/-- What the next update measures. -/
def measure (lastTimeMs now : Int) (stat : M.StatsInt) : Measurement M where
  delta := (now - lastTimeMs).toNat
  stat := M.statsIntAdd stat (castToInt (now - lastTimeMs).toNat)

/-- The measurements of the current game, newest first. -/
def measurements (M : Stats) (init : Int) : List (HostOp E S) → List (Measurement M)
  | [] | .reInitWithGame _ _ :: _ => []
  | .update now :: earlier =>
    measure (lastReading init earlier) now (measuredStat (measurements M init earlier))
      :: measurements M init earlier
  | _ :: earlier => measurements M init earlier

/-- The update came late. -/
def Late (targetTimeMs : Nat) (measurement : Measurement M) : Prop :=
  targetTimeMs < measurement.delta

/-- The average is too large. -/
def Slow (targetTimeMs : Nat) (measurement : Measurement M) : Prop :=
  castToInt targetTimeMs < M.avg measurement.stat

/-- Two times are compared. -/
instance (targetTimeMs : Nat) : DecidablePred (Late (M := M) targetTimeMs) :=
  fun _ => inferInstanceAs (Decidable (_ < _))

/-- The average is compared with the target. -/
instance (targetTimeMs : Nat) : DecidablePred (Slow (M := M) targetTimeMs) :=
  fun _ => inferInstanceAs (Decidable (_ < _))

/-- The measurements with an average. -/
def averaged (history : List (Measurement M)) : List (Measurement M) :=
  history.filter fun measurement => M.avgIsSet measurement.stat

/-- 61 late updates in a row. -/
def TooLate (targetTimeMs : Nat) (history : List (Measurement M)) : Prop :=
  InARow (Late targetTimeMs) (FailedTickThreshold + 1) history

/-- 51 averages in a row that are too large. -/
def TooSlow (targetTimeMs : Nat) (history : List (Measurement M)) : Prop :=
  InARow (Slow targetTimeMs) (AverageThreshold + 1) (averaged history)

/-- One measurement more makes it 61 late ones only if it ends such a streak. -/
theorem tooLate_cons {target : Nat} {measurement : Measurement M}
    {history : List (Measurement M)} :
    TooLate target (measurement :: history) ↔ TooLate target history ∨
      FailedTickThreshold < streak (Late target) (measurement :: history) :=
  inARow_cons_iff

/-- A measurement counts here only if there is an average. -/
theorem averaged_cons (measurement : Measurement M) (history : List (Measurement M)) :
    averaged (measurement :: history)
      = if M.avgIsSet measurement.stat then measurement :: averaged history
        else averaged history :=
  List.filter_cons

/-- A measurement without an average changes nothing. -/
theorem tooSlow_cons {target : Nat} {measurement : Measurement M}
    {history : List (Measurement M)} :
    TooSlow target (measurement :: history) ↔ TooSlow target history ∨
      AverageThreshold < streak (Slow target) (averaged (measurement :: history)) := by
  unfold TooSlow
  rw [averaged_cons]
  split
  · exact inARow_cons_iff
  · exact (or_iff_left_of_imp inARow_of_lt_streak).symm

/-! ### The counters of the quality -/

/-- The fields of a quality after a history of measurements. -/
structure Counts (reading : Int) (history : List (Measurement M))
    (quality : NimbleServerUpdateQuality M) : Prop where
  lastTimeMs : quality.lastTimeMs = reading
  stat : quality.measuredDeltaTimeMsStat = measuredStat history
  late : quality.deltaTickTimeFailedInARow = streak (Late quality.targetTimeMs) history
  slow : quality.averageTickTimeFailedInARow
    = streak (Slow quality.targetTimeMs) (averaged history)

/-- The quality with a measurement, before the counters are compared with the limits. -/
def counted (quality : NimbleServerUpdateQuality M) (now : Int) (measurement : Measurement M) :
    NimbleServerUpdateQuality M :=
  { quality with
    measuredDeltaTimeMsStat := measurement.stat
    lastTimeMs := now
    deltaTickTimeFailedInARow := if measurement.delta > quality.targetTimeMs then
      quality.deltaTickTimeFailedInARow + 1 else 0
    averageTickTimeFailedInARow := if M.avgIsSet measurement.stat then
        if M.avg measurement.stat > castToInt quality.targetTimeMs then
          quality.averageTickTimeFailedInARow + 1
        else 0
      else quality.averageTickTimeFailedInARow }

/-- A tick of a quality that works, when the clock does not run backwards. -/
theorem nimbleServerUpdateQualityTick_of_working {quality : NimbleServerUpdateQuality M}
    (hworking : quality.state = .working) {now : Int} (hnow : quality.lastTimeMs ≤ now)
    {next : NimbleServerUpdateQuality M}
    (hnext : next = counted quality now
      (measure quality.lastTimeMs now quality.measuredDeltaTimeMsStat)) :
    nimbleServerUpdateQualityTick quality now
      = if next.deltaTickTimeFailedInARow > FailedTickThreshold then
          some (-1, { next with state := .failedTickTime })
        else if next.averageTickTimeFailedInARow > AverageThreshold then
          some (-1, { next with state := .failedAverageTickTime })
        else some (0, next) := by
  subst hnext
  unfold nimbleServerUpdateQualityTick
  rw [if_neg (not_not.mpr hworking), if_neg (Int.not_lt.mpr hnow)]
  rfl

/-- The counters go on as the streaks do. -/
theorem Counts.counted {reading : Int} {history : List (Measurement M)}
    {quality : NimbleServerUpdateQuality M} (h : Counts reading history quality) (now : Int)
    (measurement : Measurement M) :
    Counts now (measurement :: history) (counted quality now measurement) where
  lastTimeMs := rfl
  stat := rfl
  late := by
    rw [streak_cons]
    show (if _ then quality.deltaTickTimeFailedInARow + 1 else 0) = _
    rw [h.late]
    rfl
  slow := by
    rw [averaged_cons]
    by_cases hset : M.avgIsSet measurement.stat = true
    · show (if _ then (if _ then quality.averageTickTimeFailedInARow + 1 else 0) else _) = _
      rw [if_pos hset, if_pos hset, streak_cons, h.slow]
      rfl
    · show (if _ then _ else quality.averageTickTimeFailedInARow) = _
      rw [if_neg hset, if_neg hset]
      exact h.slow

/-- The quality of a host with a history of measurements. -/
structure Monitored (target : Nat) (reading : Int) (history : List (Measurement M))
    (quality : NimbleServerUpdateQuality M) : Prop where
  targetTimeMs : quality.targetTimeMs = target
  counts : quality.state = .working → Counts reading history quality
  working : quality.state = .working → ¬TooLate target history ∧ ¬TooSlow target history
  failedTickTime : quality.state = .failedTickTime → TooLate target history
  failedAverageTickTime : quality.state = .failedAverageTickTime → TooSlow target history

namespace Monitored

variable {target : Nat} {reading now : Int} {history : List (Measurement M)}
  {quality : NimbleServerUpdateQuality M}

/-- A new game starts with no measurements. -/
theorem reInit (htarget : quality.targetTimeMs = target) (now : Int) :
    Monitored target now [] (nimbleServerUpdateQualityReInit quality now) where
  targetTimeMs := htarget
  counts := fun _ => ⟨rfl, rfl, rfl, rfl⟩
  working := fun _ => ⟨not_inARow_nil _, not_inARow_nil _⟩
  failedTickTime := fun h => by cases h
  failedAverageTickTime := fun h => by cases h

/-- A quality that has failed is not ticked. What has happened stays in the history. -/
theorem tick_of_failed (h : Monitored target reading history quality)
    (hfailed : quality.state ≠ .working) (now : Int) (measurement : Measurement M) :
    Monitored target now (measurement :: history) quality where
  targetTimeMs := h.targetTimeMs
  counts := fun hworking => absurd hworking hfailed
  working := fun hworking => absurd hworking hfailed
  failedTickTime := fun hstate => tooLate_cons.mpr (.inl (h.failedTickTime hstate))
  failedAverageTickTime := fun hstate =>
    tooSlow_cons.mpr (.inl (h.failedAverageTickTime hstate))

/-- Each update adds its measurement to the history. -/
theorem tick (h : Monitored target reading history quality) {code : Int}
    {quality' : NimbleServerUpdateQuality M}
    (htick : nimbleServerUpdateQualityTick quality now = some (code, quality')) :
    Monitored target now (measure reading now (measuredStat history) :: history) quality' := by
  by_cases hworking : quality.state = .working
  · obtain ⟨hnotLate, hnotSlow⟩ := h.working hworking
    have hcounts := h.counts hworking
    -- The tick came to a result, so it was not stopped by a clock that ran backwards.
    have hnow : quality.lastTimeMs ≤ now := by
      refine Int.not_lt.mp fun hlt => ?_
      unfold nimbleServerUpdateQualityTick at htick
      rw [if_neg (not_not.mpr hworking), if_pos hlt] at htick
      cases htick
    rw [nimbleServerUpdateQualityTick_of_working hworking hnow rfl, hcounts.lastTimeMs,
      hcounts.stat] at htick
    -- From here on it does not matter what was measured.
    generalize measure reading now (measuredStat history) = measurement at htick ⊢
    have hnext := hcounts.counted now measurement
    have hstate : (counted quality now measurement).state = .working := hworking
    have htarget : (counted quality now measurement).targetTimeMs = target := h.targetTimeMs
    generalize counted quality now measurement = next at htick hnext hstate htarget
    obtain rfl := htarget
    split at htick
    · -- The streak of late updates is too long.
      rename_i hlate
      cases htick
      refine ⟨rfl, fun hstate => ?_, fun hstate => ?_, fun _ => ?_, fun hstate => ?_⟩
      · cases hstate
      · cases hstate
      · exact tooLate_cons.mpr (.inr (hnext.late ▸ hlate))
      · cases hstate
    · rename_i hlate
      split at htick
      · -- The streak of large averages is.
        rename_i hslow
        cases htick
        refine ⟨rfl, fun hstate => ?_, fun hstate => ?_, fun hstate => ?_, fun _ => ?_⟩
        · cases hstate
        · cases hstate
        · cases hstate
        · exact tooSlow_cons.mpr (.inr (hnext.slow ▸ hslow))
      · -- Neither is, so the history has no such streak now if it had none before.
        rename_i hslow
        cases htick
        refine ⟨rfl, fun _ => hnext, fun _ => ⟨fun hlate' => ?_, fun hslow' => ?_⟩,
          fun hfailed => ?_, fun hfailed => ?_⟩
        · exact (tooLate_cons.mp hlate').elim hnotLate fun hlt => hlate (hnext.late ▸ hlt)
        · exact (tooSlow_cons.mp hslow').elim hnotSlow fun hlt => hslow (hnext.slow ▸ hlt)
        · rw [hstate] at hfailed
          cases hfailed
        · rw [hstate] at hfailed
          cases hfailed
  · unfold nimbleServerUpdateQualityTick at htick
    rw [if_pos hworking] at htick
    cases htick
    exact h.tick_of_failed hworking now _

end Monitored

/-! ### What a host does -/

/-- The entry points that have nothing to do with the transport or the quality. -/
def HostOp.IsCall : HostOp E S → Prop
  | .hostMigration _ _ | .connectionConnected _ | .connectionDisconnected _ => True
  | .arrive _ | .update _ | .reInitWithGame _ _ => False

/-- What a step of a host does. -/
inductive HostOutcome (host : Host M E S) : HostOp E S → Host M E S → Prop
  | arrived (received : Received E S) :
      HostOutcome host (.arrive received) { host with queue := host.queue ++ [received] }
  | stopped (now code : Int) (updateQuality : NimbleServerUpdateQuality M)
      (htick : nimbleServerUpdateQualityTick host.updateQuality now
        = some (code, updateQuality)) (hcode : code < 0) :
      HostOutcome host (.update now) { host with updateQuality }
  | updated (now code : Int) (updateQuality : NimbleServerUpdateQuality M)
      (ticked server : Server E S) (result : Int) (fed : List (FedDatagram E S))
      (queue : List (Received E S))
      (htick : nimbleServerUpdateQualityTick host.updateQuality now
        = some (code, updateQuality)) (hcode : 0 ≤ code)
      (hparties : tickParties host.server = .ok ticked)
      (hread : nimbleServerReadFromMultiTransport ticked host.queue
        = .ok (result, fed, queue, server)) :
      HostOutcome host (.update now)
        { server, updateQuality, statsCounter := host.statsCounter + 1, queue,
          fed := host.fed ++ fed }
  | restarted (stepId : StepId) (now : Int) (server : Server E S) :
      HostOutcome host (.reInitWithGame stepId now) { host with
        server
        updateQuality := nimbleServerUpdateQualityReInit host.updateQuality now
        statsCounter := 0 }
  | called (op : HostOp E S) (hop : op.IsCall) (server : Server E S) :
      HostOutcome host op { host with server }

/-- A call of the server leaves the rest of the host as it is. -/
theorem Host.call_eq_ok {host host' : Host M E S} {op : Op S} (h : host.call op = .ok host') :
    ∃ server, host' = { host with server } := by
  obtain ⟨server, -, rfl⟩ := map_eq_ok.mp h
  exact ⟨server, rfl⟩

/-- An update is refused by the quality, or it ticks the parties and reads datagrams. -/
theorem Host.update_outcome {host host' : Host M E S} {now result : Int}
    (h : host.update now = .ok (result, host')) : HostOutcome host (.update now) host' := by
  unfold Host.update at h
  cases htick : nimbleServerUpdateQualityTick host.updateQuality now with
  -- The quality stops the server when the clock ran backwards.
  | none =>
    rw [htick] at h
    cases h
  | some ticked =>
    obtain ⟨code, quality⟩ := ticked
    rw [htick] at h
    obtain ⟨⟨result', fed, queue, server⟩, hupdate, hhost⟩ := map_eq_ok.mp h
    cases hhost
    have hupdate := mapError_eq_ok.mp hupdate
    unfold nimbleServerUpdate at hupdate
    by_cases hcode : code < 0
    · rw [if_pos hcode] at hupdate
      cases hupdate
      rw [if_pos hcode, List.append_nil]
      exact .stopped now _ quality htick hcode
    · rw [if_neg hcode] at hupdate
      obtain ⟨ticked, hparties, hread⟩ := bind_eq_ok.mp hupdate
      obtain ⟨⟨readResult, fed', queue', server'⟩, hread, heq⟩ := bind_eq_ok.mp hread
      cases heq
      rw [if_neg hcode]
      exact .updated now code quality ticked server readResult fed queue htick
        (Int.not_lt.mp hcode) hparties hread

/-- These are all the steps of a host. -/
theorem Host.step_outcome {host host' : Host M E S} {op : HostOp E S}
    (h : host.step op = .ok host') : HostOutcome host op host' := by
  cases op with
  | arrive received =>
    cases h
    exact .arrived received
  | update now =>
    obtain ⟨⟨result, host'⟩, hupdate, rfl⟩ := map_eq_ok.mp h
    exact Host.update_outcome hupdate
  | reInitWithGame stepId now =>
    obtain ⟨called, hcall, heq⟩ := bind_eq_ok.mp h
    cases heq
    obtain ⟨server, rfl⟩ := Host.call_eq_ok hcall
    exact .restarted stepId now server
  | hostMigration infos uninitialized =>
    obtain ⟨server, rfl⟩ := Host.call_eq_ok h
    exact .called (.hostMigration infos uninitialized) trivial server
  | connectionConnected t =>
    obtain ⟨server, rfl⟩ := Host.call_eq_ok h
    exact .called (.connectionConnected t) trivial server
  | connectionDisconnected t =>
    obtain ⟨server, rfl⟩ := Host.call_eq_ok h
    exact .called (.connectionDisconnected t) trivial server

/-- A host and the operations so far, newest first. -/
def Host.recorded : Host M E S × List (HostOp E S) → HostOp E S →
    Except HostFault (Host M E S × List (HostOp E S)) :=
  Lib.recorded Host.step fun _ op => [op]

/-- A property of the host and its history that every step keeps. -/
theorem Host.recorded_invariant {start state : Host M E S × List (HostOp E S)}
    {allowed : Host M E S × List (HostOp E S) → HostOp E S → Prop}
    (hrun : Reaches Host.recorded allowed start state)
    (inv : Host M E S × List (HostOp E S) → Prop) (hstart : inv start)
    (hstep : ∀ host host' ops op, inv (host, ops) → allowed (host, ops) op →
      HostOutcome host op host' → inv (host', op :: ops)) : inv state := by
  refine hrun.invariant inv hstart fun state op hstate hop => Ensures.of_eq_ok fun next hnext => ?_
  obtain ⟨host', hhost', rfl⟩ := map_eq_ok.mp hnext
  exact hstep state.1 host' state.2 op hstate hop (Host.step_outcome hhost')

/-! ### When a host stops -/

/-- Of what the transport does, and updates. -/
def HostOp.IsTransport : HostOp E S → Prop
  | .arrive _ | .update _ => True
  | .reInitWithGame _ _ | .hostMigration _ _ | .connectionConnected _
  | .connectionDisconnected _ => False

/-- Such a call is nothing that the transport does. -/
theorem HostOp.IsCall.not_isTransport {op : HostOp E S} (h : op.IsCall) :
    ¬op.IsTransport := by
  cases op with
  | arrive received => exact h.elim
  | update now => exact h.elim
  | _ => exact id

/-- Such a call measures nothing. -/
theorem HostOp.IsCall.measurements {op : HostOp E S} (h : op.IsCall) (init : Int)
    (ops : List (HostOp E S)) :
    lastReading init (op :: ops) = lastReading init ops ∧
      measurements M init (op :: ops) = measurements M init ops := by
  cases op with
  | arrive received => exact h.elim
  | update now => exact h.elim
  | reInitWithGame stepId now => exact h.elim
  | _ => exact ⟨rfl, rfl⟩

/-- The quality follows the history on every run. -/
theorem monitored_reachable {start : Host M E S} {state : Host M E S × List (HostOp E S)}
    {allowed : Host M E S × List (HostOp E S) → HostOp E S → Prop}
    {quality : NimbleServerUpdateQuality M} {target : Nat} {now : Int}
    (hstart : start.updateQuality = nimbleServerUpdateQualityInit quality target now)
    (hrun : Reaches Host.recorded allowed (start, []) state) :
    Monitored target (lastReading now state.2) (measurements M now state.2)
      state.1.updateQuality := by
  refine Host.recorded_invariant hrun (fun state => Monitored target (lastReading now state.2)
    (measurements M now state.2) state.1.updateQuality) ?_ fun host host' ops op h _ hstep => ?_
  · dsimp only
    rw [hstart]
    have htarget : ({ quality with targetTimeMs := target } :
        NimbleServerUpdateQuality M).targetTimeMs = target := rfl
    exact Monitored.reInit htarget now
  · cases hstep with
    | arrived received => exact h
    | stopped reading code quality htick hcode => exact h.tick htick
    | updated reading code quality ticked server result fed queue htick hcode hparties hread =>
      exact h.tick htick
    | restarted stepId reading server => exact Monitored.reInit h.targetTimeMs reading
    | called op hop server =>
      obtain ⟨hreading, hmeasured⟩ := hop.measurements (M := M) now ops
      dsimp only
      rw [hreading, hmeasured]
      exact h

/-- A stopped host is not changed by an update. -/
theorem HostOutcome.of_stopped {host host' : Host M E S} {op : HostOp E S}
    (h : HostOutcome host op host') (hop : op.IsTransport)
    (hstopped : host.updateQuality.state ≠ .working) :
    ∃ arrived, host' = { host with queue := host.queue ++ arrived } := by
  -- A quality that does not work refuses each tick and stays as it is.
  have hsame : ∀ {now code quality}, nimbleServerUpdateQualityTick host.updateQuality now
      = some (code, quality) → code = -1 ∧ quality = host.updateQuality := by
    intro now code quality htick
    unfold nimbleServerUpdateQualityTick at htick
    rw [if_pos hstopped] at htick
    cases htick
    exact ⟨rfl, rfl⟩
  cases h with
  | arrived received => exact ⟨[received], rfl⟩
  | stopped now code quality htick hcode =>
    obtain ⟨-, rfl⟩ := hsame htick
    exact ⟨[], by rw [List.append_nil]⟩
  | updated now code quality ticked server result fed queue htick hcode hparties hread =>
    obtain ⟨rfl, -⟩ := hsame htick
    cases hcode
  | restarted stepId now server => cases hop
  | called op hcall server => exact (hcall.not_isTransport hop).elim

/-- On every run of a host, the host has stopped exactly when in the current game 61 updates in
a row were late or 51 averages in a row were too large. The state names one that did. From
then on updates do nothing until the next game starts: no party is ticked, no datagram is fed,
and the queue only grows. -/
theorem host_stops_iff {start host : Host M E S} {ops : List (HostOp E S)}
    {quality : NimbleServerUpdateQuality M} {target : Nat} {now : Int}
    (hstart : start.updateQuality = nimbleServerUpdateQualityInit quality target now)
    (hrun : Reaches Host.recorded (fun _ _ => True) (start, []) (host, ops)) :
    (host.updateQuality.state ≠ .working ↔
      TooLate target (measurements M now ops) ∨ TooSlow target (measurements M now ops)) ∧
    (host.updateQuality.state = .failedTickTime → TooLate target (measurements M now ops)) ∧
    (host.updateQuality.state = .failedAverageTickTime →
      TooSlow target (measurements M now ops)) ∧
    (host.updateQuality.state ≠ .working →
      ∀ later, Reaches Host.step (fun _ op => op.IsTransport) host later →
        ∃ arrived, later = { host with queue := host.queue ++ arrived }) := by
  have hmonitored := monitored_reachable hstart hrun
  dsimp only at hmonitored
  refine ⟨⟨fun hstopped => ?_, fun hfailed hworking => ?_⟩, hmonitored.failedTickTime,
    hmonitored.failedAverageTickTime, fun hstopped later hlater => ?_⟩
  · cases hstate : host.updateQuality.state with
    | working => exact absurd hstate hstopped
    | failedTickTime => exact .inl (hmonitored.failedTickTime hstate)
    | failedAverageTickTime => exact .inr (hmonitored.failedAverageTickTime hstate)
  · obtain ⟨hlate, hslow⟩ := hmonitored.working hworking
    exact hfailed.elim hlate hslow
  · -- The hosts of the run differ from the stopped one only in their queue.
    refine hlater.invariant (fun later => ∃ arrived, later = { host with
      queue := host.queue ++ arrived }) ⟨[], by rw [List.append_nil]⟩ fun later op h hop =>
        Ensures.of_eq_ok fun next hnext => ?_
    obtain ⟨arrived, rfl⟩ := h
    obtain ⟨arrived', rfl⟩ := (Host.step_outcome hnext).of_stopped hop hstopped
    exact ⟨arrived ++ arrived', by rw [List.append_assoc]⟩

/-- A statistics library that has an average after every `threshold` values. -/
def plainStats : Stats where
  StatsInt := (Nat × List Int) × Option Int
  statsIntInit := fun threshold => ((threshold, []), none)
  statsIntAdd := fun ((threshold, values), avg) value =>
    if values.length + 1 < threshold then ((threshold, value :: values), avg)
    else ((threshold, []), some ((value :: values).sum / threshold))
  avgIsSet := fun stat => stat.2.isSome
  avg := fun stat => stat.2.getD 0

/-- A host that just started a game, with a target of 16 ms. -/
def plainHost (n : Nat) : Except HostFault (Host plainStats plainExternal (plainSetup n)) :=
  (plainGame n).mapError .server |>.map fun server => {
    server
    updateQuality := nimbleServerUpdateQualityInit
      { lastTimeMs := 0, measuredDeltaTimeMsStat := plainStats.statsIntInit 10
        averageTickTimeFailedInARow := 0, deltaTickTimeFailedInARow := 0
        targetTimeMs := 0, state := .working } 16 0
    statsCounter := 0
    queue := []
    fed := [] }

/-- An update in time, and 61 updates that each come 17 ms after the last one. Without the
first one the average fails before the 61st update. -/
theorem host_stops_iff_lateUpdates :
    ∃ (start host : Host plainStats plainExternal (plainSetup 1))
      (ops : List (HostOp plainExternal (plainSetup 1))),
      Reaches Host.recorded (fun _ _ => True) (start, []) (host, ops) ∧
      TooLate 16 (measurements plainStats 0 ops) ∧
      ∀ later, Reaches Host.step (fun _ op => op.IsTransport) host later →
        ∃ arrived, later = { host with queue := host.queue ++ arrived } := by
  obtain ⟨start, ⟨host, ops⟩, hsetup, hrun, hfailed⟩ :=
    exists_run Host.recorded (fun _ _ => True)
      (fun state : Host plainStats plainExternal (plainSetup 1) × List (HostOp _ _) =>
        state.1.updateQuality.state = .failedTickTime)
      ((plainHost 1).map fun host => (host, []))
      (.update 0 :: (List.range 61).map fun k : Nat => .update (17 * (k + 1)))
      (by decide +kernel)
  obtain ⟨start, hstart, rfl⟩ := map_eq_ok.mp hsetup
  obtain ⟨server, -, rfl⟩ := map_eq_ok.mp hstart
  obtain ⟨-, hlate, -, hfrozen⟩ := host_stops_iff rfl hrun
  refine ⟨_, host, ops, hrun, hlate hfailed, hfrozen ?_⟩
  rw [show host.updateQuality.state = .failedTickTime from hfailed]
  decide

/-! ### The queue -/

/-- What of an entry of the queue is fed. An entry without octets ends the reading. -/
def Received.toFeed : Received E S → Option (ReceivedDatagram E S)
  | .datagram received => if received.octets.length = 0 then none else some received
  | .failure _ _ => none

/-- A datagram without octets is not fed. -/
theorem toFeed_datagram_of_length_eq_zero {received : ReceivedDatagram E S}
    (h : received.octets.length = 0) : (Received.datagram received).toFeed = none :=
  if_pos h

/-- Any other datagram is. -/
theorem toFeed_datagram_of_length_ne_zero {received : ReceivedDatagram E S}
    (h : received.octets.length ≠ 0) : (Received.datagram received).toFeed = some received :=
  if_neg h

/-- From the front of the queue `count` entries were taken, and the datagrams of them fed. -/
structure Takes (count : Nat) (queue rest : List (Received E S))
    (fed : List (ReceivedDatagram E S)) : Prop where
  le : count ≤ queue.length
  rest : rest = queue.drop count
  fed : fed = (queue.take count).filterMap Received.toFeed

namespace Takes

variable {count count' : Nat} {queue rest rest' : List (Received E S)}
  {fed fed' : List (ReceivedDatagram E S)}

/-- Nothing was taken. -/
theorem zero (queue : List (Received E S)) : Takes 0 queue queue [] :=
  ⟨Nat.zero_le _, rfl, rfl⟩

/-- One more entry at the front. -/
theorem cons (h : Takes count queue rest fed) (received : Received E S) :
    Takes (count + 1) (received :: queue) rest (received.toFeed.toList ++ fed) where
  le := Nat.succ_le_succ h.le
  rest := h.rest
  fed := by
    rw [List.take_succ_cons, List.filterMap_cons, h.fed]
    cases received.toFeed with
    | none => rfl
    | some datagram => rfl

/-- Taking twice. -/
theorem trans (h : Takes count queue rest fed) (h' : Takes count' rest rest' fed') :
    Takes (count + count') queue rest' (fed ++ fed') := by
  obtain ⟨hle, rfl, rfl⟩ := h
  obtain ⟨hle', rfl, rfl⟩ := h'
  rw [List.length_drop] at hle'
  exact ⟨by omega, List.drop_drop, by rw [List.take_add, List.filterMap_append]⟩

/-- What arrives goes behind what is there. -/
theorem arrive (h : Takes count queue rest fed) (received : Received E S) :
    Takes count (queue ++ [received]) (rest ++ [received]) fed := by
  obtain ⟨hle, rfl, rfl⟩ := h
  refine ⟨?_, ?_, ?_⟩
  · rw [List.length_append]
    exact Nat.le_add_right_of_le hle
  · rw [List.drop_append_of_le_length hle]
  · rw [List.take_append_of_le_length hle]

end Takes

/-- The loop takes at least one entry if there is one. Induction on the rounds. -/
theorem readDatagrams_takes (rounds : Nat) :
    ∀ {queue rest : List (Received E S)} {s s' : Server E S} {result : Int}
      {fed : List (FedDatagram E S)},
      readDatagrams rounds queue s = .ok (result, fed, rest, s') →
      ∃ count, Takes count queue rest (fedDatagrams fed) ∧ count ≤ rounds ∧
        (0 < rounds → queue ≠ [] → 0 < count) := by
  induction rounds with
  | zero =>
    intro queue rest s s' result fed h
    cases h
    exact ⟨0, .zero _, Nat.le_refl 0, fun h => absurd h (Nat.lt_irrefl 0)⟩
  | succ rounds ih =>
    intro queue rest s s' result fed h
    cases queue with
    | nil =>
      cases h
      exact ⟨0, .zero _, Nat.zero_le _, fun _ hne => absurd rfl hne⟩
    | cons received queue =>
      cases received with
      -- A failure of the transport is taken from the queue and ends the loop.
      | failure code negative =>
        cases h
        exact ⟨1, (Takes.zero _).cons _, Nat.le_add_left 1 rounds, fun _ _ => Nat.one_pos⟩
      | datagram received =>
        unfold readDatagrams at h
        by_cases hempty : received.octets.length = 0
        · rw [if_pos hempty] at h
          cases h
          have htakes := (Takes.zero rest).cons (.datagram received)
          rw [toFeed_datagram_of_length_eq_zero hempty] at htakes
          exact ⟨1, htakes, Nat.le_add_left 1 rounds, fun _ _ => Nat.one_pos⟩
        · rw [if_neg hempty] at h
          obtain ⟨⟨first, s1⟩, hfirst, hnext⟩ := bind_eq_ok.mp h
          obtain rfl := datagram_of_feedReceived hfirst
          have htoFeed := toFeed_datagram_of_length_ne_zero hempty
          dsimp only at hnext
          -- An error of the handler ends the loop after this datagram.
          split at hnext
          · cases hnext
            have htakes := (Takes.zero rest).cons (.datagram first.datagram)
            rw [htoFeed] at htakes
            exact ⟨1, htakes, Nat.le_add_left 1 rounds, fun _ _ => Nat.one_pos⟩
          · obtain ⟨⟨result', fed', rest', s2⟩, hrest, heq⟩ := bind_eq_ok.mp hnext
            cases heq
            obtain ⟨count, htakes, hcount, -⟩ := ih hrest
            have htakes := htakes.cons (.datagram first.datagram)
            rw [htoFeed] at htakes
            exact ⟨count + 1, htakes, Nat.succ_le_succ hcount, fun _ _ => Nat.succ_pos _⟩

/-- The entries that arrived, oldest first. The history is newest first. -/
def arrivals : List (HostOp E S) → List (Received E S)
  | [] => []
  | .arrive received :: earlier => arrivals earlier ++ [received]
  | _ :: earlier => arrivals earlier

/-- The quality after a history, newest first, that began with `init`. -/
def qualityAfter (init : NimbleServerUpdateQuality M) :
    List (HostOp E S) → NimbleServerUpdateQuality M
  | [] => init
  | .update now :: earlier =>
    match nimbleServerUpdateQualityTick (qualityAfter init earlier) now with
    | some (_, quality) => quality
    | none => qualityAfter init earlier
  | .reInitWithGame _ now :: earlier =>
    nimbleServerUpdateQualityReInit (qualityAfter init earlier) now
  | _ :: earlier => qualityAfter init earlier

/-- The quality lets an update at this time work. -/
def updateWorks (quality : NimbleServerUpdateQuality M) (now : Int) : Bool :=
  match nimbleServerUpdateQualityTick quality now with
  | some (code, _) => decide (0 ≤ code)
  | none => false

/-- The number of updates of a history that worked. -/
def workingUpdates (init : NimbleServerUpdateQuality M) : List (HostOp E S) → Nat
  | [] => 0
  | .update now :: earlier =>
    workingUpdates init earlier + if updateWorks (qualityAfter init earlier) now then 1 else 0
  | _ :: earlier => workingUpdates init earlier

/-- A call of the server is no part of the history of the queue. -/
theorem HostOp.IsCall.history {op : HostOp E S} (h : op.IsCall)
    (init : NimbleServerUpdateQuality M) (ops : List (HostOp E S)) :
    qualityAfter init (op :: ops) = qualityAfter init ops ∧
      workingUpdates init (op :: ops) = workingUpdates init ops ∧
      arrivals (op :: ops) = arrivals ops := by
  cases op with
  | arrive received => exact h.elim
  | update now => exact h.elim
  | reInitWithGame stepId now => exact h.elim
  | _ => exact ⟨rfl, rfl, rfl⟩

/-- The calls of `nimbleServerFeed` of a host, and what is left in its queue. -/
structure TakenInOrder (start : Host M E S) (state : Host M E S × List (HostOp E S))
    (taken : Nat) : Prop where
  quality : state.1.updateQuality = qualityAfter start.updateQuality state.2
  fed : ∃ fed, fedDatagrams state.1.fed = fedDatagrams start.fed ++ fed ∧
    Takes taken (start.queue ++ arrivals state.2) state.1.queue fed
  -- As long as something of the first queue is left, every update that works takes an entry.
  progress : min (workingUpdates start.updateQuality state.2) start.queue.length ≤ taken
  bounded : taken ≤ maximumNumberOfDatagramsPerTick * workingUpdates start.updateQuality state.2

/-- Each step of the host keeps the order. -/
theorem TakenInOrder.step {start host host' : Host M E S} {ops : List (HostOp E S)}
    {taken : Nat} (h : TakenInOrder start (host, ops) taken) {op : HostOp E S}
    (hstep : HostOutcome host op host') : ∃ taken, TakenInOrder start (host', op :: ops) taken := by
  obtain ⟨hquality, ⟨fed, hfed, htakes⟩, hprogress, hbounded⟩ := h
  dsimp only at hquality hprogress hbounded
  cases hstep with
  | arrived received =>
    refine ⟨taken, hquality, ⟨fed, hfed, ?_⟩, hprogress, hbounded⟩
    show Takes taken (start.queue ++ (arrivals ops ++ [received])) (host.queue ++ [received]) fed
    rw [← List.append_assoc]
    exact htakes.arrive received
  | stopped now code quality htick hcode =>
    rw [hquality] at htick
    have hsame : workingUpdates start.updateQuality (.update now :: ops)
        = workingUpdates start.updateQuality ops := by
      have hrefused : ¬0 ≤ code := Int.not_le.mpr hcode
      simp only [workingUpdates, updateWorks, htick, hrefused, decide_false, Bool.false_eq_true,
        if_false, Nat.add_zero]
    refine ⟨taken, ?_, ⟨fed, hfed, htakes⟩, hsame ▸ hprogress, hsame ▸ hbounded⟩
    simp only [qualityAfter, htick]
  | updated now code quality ticked server result fed' queue htick hcode hparties hread =>
    rw [hquality] at htick
    obtain ⟨count, hmore, hcount, hpos⟩ := readDatagrams_takes _ hread
    have hnext : workingUpdates start.updateQuality (.update now :: ops)
        = workingUpdates start.updateQuality ops + 1 := by
      simp only [workingUpdates, updateWorks, htick, hcode, decide_true, if_true]
    refine ⟨taken + count, ?_, ⟨fed ++ fedDatagrams fed', ?_, ?_⟩, ?_, ?_⟩
    · simp only [qualityAfter, htick]
    · show fedDatagrams (host.fed ++ fed') = _
      unfold fedDatagrams at hfed ⊢
      rw [List.map_append, hfed, List.append_assoc]
    · exact htakes.trans hmore
    · dsimp only
      rw [hnext]
      -- If something of the first queue is left, the queue is not empty and an entry is taken.
      by_cases hleft : taken < start.queue.length
      · have hne : host.queue ≠ [] := by
          rw [htakes.rest]
          refine List.ne_nil_of_length_pos ?_
          rw [List.length_drop, List.length_append]
          omega
        have hpos := hpos (by decide) hne
        omega
      · omega
    · dsimp only
      rw [hnext, Nat.mul_add, Nat.mul_one]
      exact Nat.add_le_add hbounded hcount
  | restarted stepId now server =>
    -- A new game leaves the queue of the transport as it is.
    refine ⟨taken, ?_, ⟨fed, hfed, htakes⟩, hprogress, hbounded⟩
    simp only [qualityAfter, hquality]
  | called op hcall server =>
    obtain ⟨hqualitySame, hsame, harrivals⟩ := hcall.history start.updateQuality ops
    refine ⟨taken, hquality.trans hqualitySame.symm, ⟨fed, hfed, ?_⟩, ?_, ?_⟩
    · show Takes taken (start.queue ++ arrivals (op :: ops)) host.queue fed
      rw [harrivals]
      exact htakes
    · dsimp only
      rw [hsame]
      exact hprogress
    · dsimp only
      rw [hsame]
      exact hbounded

/-- On every run of a host: the datagrams that are fed are those that were in the queue or
arrived since, in this order and each once, and the entries that are not taken yet are the
queue. Entries are taken from the front, at least one and at most 64 with each update that
works, so an entry with `k` others before it is taken after `k + 1` such updates. -/
theorem datagrams_fed_in_order {start host : Host M E S} {ops : List (HostOp E S)}
    (hrun : Reaches Host.recorded (fun _ _ => True) (start, []) (host, ops)) :
    ∃ taken fed,
      start.queue ++ arrivals ops = (start.queue ++ arrivals ops).take taken ++ host.queue ∧
      fedDatagrams host.fed = fedDatagrams start.fed ++ fed ∧
      fed = ((start.queue ++ arrivals ops).take taken).filterMap Received.toFeed ∧
      (∀ k, k < start.queue.length → k < workingUpdates start.updateQuality ops → k < taken) ∧
      taken ≤ 64 * workingUpdates start.updateQuality ops := by
  obtain ⟨taken, -, ⟨fed, hfed, htakes⟩, hprogress, hbounded⟩ :=
    Host.recorded_invariant hrun (fun state => ∃ taken, TakenInOrder start state taken)
      ⟨0, rfl, ⟨[], (List.append_nil _).symm, by
        show Takes 0 (start.queue ++ []) start.queue []
        rw [List.append_nil]
        exact .zero _⟩, Nat.zero_le _, Nat.le_refl 0⟩
      fun _ _ _ _ ⟨_, h⟩ _ hstep => h.step hstep
  dsimp only at hprogress
  refine ⟨taken, fed, ?_, hfed, htakes.fed, fun k hk hk' => by omega, hbounded⟩
  rw [htakes.rest, List.take_append_drop]

/-- A client that has not joined sends a step and another one asks to join. The error of the
first datagram ends the first update, and the second update, which comes after a new game was
started, feeds the other. -/
theorem datagrams_fed_in_order_twoUpdates :
    ∃ (start host : Host plainStats plainExternal (plainSetup 2))
      (ops : List (HostOp plainExternal (plainSetup 2))),
      Reaches Host.recorded (fun _ _ => True) (start, []) (host, ops) ∧
      workingUpdates start.updateQuality ops = 2 ∧ (arrivals ops).length = 2 ∧
      fedDatagrams host.fed = (arrivals ops).filterMap Received.toFeed := by
  obtain ⟨start, ⟨host, ops⟩, hsetup, hrun, hworked, harrived, hqueue⟩ :=
    exists_run Host.recorded (fun _ _ => True)
      (fun state : Host plainStats plainExternal (plainSetup 2) × List (HostOp _ _) =>
        (plainHost 2).toOption.any (fun start => decide (workingUpdates start.updateQuality
          state.2 = 2)) = true ∧ (arrivals state.2).length = 2 ∧ state.1.queue.length = 0)
      ((plainHost 2).map fun host => (host, []))
      ((stepBeforeJoin.map fun received => .arrive (.datagram received)) ++
        [.update 1, .reInitWithGame 0 1, .update 2])
      (by decide +kernel)
  obtain ⟨start, hstart, rfl⟩ := map_eq_ok.mp hsetup
  rw [hstart] at hworked
  have hworked : workingUpdates start.updateQuality ops = 2 := of_decide_eq_true hworked
  obtain ⟨server, -, rfl⟩ := map_eq_ok.mp hstart
  obtain ⟨taken, fed, hsplit, hfed, rfl, -, -⟩ := datagrams_fed_in_order hrun
  refine ⟨_, host, ops, hrun, hworked, harrived, ?_⟩
  rw [List.length_eq_zero_iff.mp hqueue, List.append_nil] at hsplit
  rw [hfed, ← hsplit]
  rfl

end NimbleServer
