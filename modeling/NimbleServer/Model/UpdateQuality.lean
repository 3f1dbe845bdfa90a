import NimbleServer.Model.Operations
import NimbleServer.Model.Update

/-!
# `NimbleServer.Model.UpdateQuality`: is the server updated often enough

`update_quality.c`: a server that is not updated at a stable rate stops working. Each update
measures the time since the last one. Too many late updates in a row, or too many averages in
a row that are too large, and `nimbleServerUpdate` returns before it does anything. The
averages are those of a statistics library (`Stats`).

A `Host` is the server with what `nimbleServerUpdate` uses beside it: the quality, the counter
of updates and the queue of the transport.
-/

set_option autoImplicit false

namespace NimbleServer

/-- What the server uses of the statistics library. -/
structure Stats where
  StatsInt : Type
  statsIntInit : (threshold : Nat) → StatsInt
  statsIntAdd : StatsInt → Int → StatsInt
  avgIsSet : StatsInt → Bool
  avg : StatsInt → Int

/-- Whether the host has given up, and at which of the two tests. -/
inductive NimbleServerUpdateQualityState
  | working
  | failedTickTime
  | failedAverageTickTime
  deriving DecidableEq

/-- What is measured about the times of the updates. -/
structure NimbleServerUpdateQuality (M : Stats) where
  lastTimeMs : Int
  measuredDeltaTimeMsStat : M.StatsInt
  averageTickTimeFailedInARow : Nat
  deltaTickTimeFailedInARow : Nat
  targetTimeMs : Nat
  state : NimbleServerUpdateQualityState

/-- The cast of a `size_t` to `int`. -/
def castToInt (value : Nat) : Int := (BitVec.ofNat 32 value).toInt

/-- `now` is what `monotonicTimeMsNow` returns. -/
def nimbleServerUpdateQualityReInit {M : Stats} (self : NimbleServerUpdateQuality M)
    (now : Int) : NimbleServerUpdateQuality M :=
  { self with
    measuredDeltaTimeMsStat := M.statsIntInit 10
    deltaTickTimeFailedInARow := 0
    averageTickTimeFailedInARow := 0
    lastTimeMs := now
    state := .working }

/-- A quality with a target time. -/
def nimbleServerUpdateQualityInit {M : Stats} (self : NimbleServerUpdateQuality M)
    (targetTimeMs : Nat) (now : Int) : NimbleServerUpdateQuality M :=
  nimbleServerUpdateQualityReInit { self with targetTimeMs } now

/-- So many late updates in a row are still accepted. -/
def FailedTickThreshold : Nat := 60

/-- So many large averages in a row are still accepted. -/
def AverageThreshold : Nat := 50

/-- `none` is the failed assertion that the time does not go backwards. -/
def nimbleServerUpdateQualityTick {M : Stats} (self : NimbleServerUpdateQuality M)
    (now : Int) : Option (Int × NimbleServerUpdateQuality M) :=
  if self.state ≠ .working then some (-1, self)
  else if now < self.lastTimeMs then none
  else
    -- Both counters start again from 0 when their test passes. Without an average the second is
    -- left alone.
    let delta := (now - self.lastTimeMs).toNat
    let stat := M.statsIntAdd self.measuredDeltaTimeMsStat (castToInt delta)
    let self := { self with
      measuredDeltaTimeMsStat := stat
      lastTimeMs := now
      deltaTickTimeFailedInARow :=
        if delta > self.targetTimeMs then self.deltaTickTimeFailedInARow + 1 else 0
      averageTickTimeFailedInARow :=
        if M.avgIsSet stat then
          if M.avg stat > castToInt self.targetTimeMs then self.averageTickTimeFailedInARow + 1
          else 0
        else self.averageTickTimeFailedInARow }
    if self.deltaTickTimeFailedInARow > FailedTickThreshold then
      some (-1, { self with state := .failedTickTime })
    else if self.averageTickTimeFailedInARow > AverageThreshold then
      some (-1, { self with state := .failedAverageTickTime })
    else some (0, self)

/-- Why a host does not return. -/
inductive HostFault
  | monotonicTimeIsGoingBackwards
  | server (fault : Fault)

/-- A server with its quality and its transport. -/
structure Host (M : Stats) (E : External) (S : Setup) where
  server : Server E S
  updateQuality : NimbleServerUpdateQuality M
  statsCounter : UInt16
  queue : List (Received E S)
  -- Not in the source: the calls of `nimbleServerFeed` so far, oldest first.
  fed : List (FedDatagram E S)

/-- What happens to a host. -/
inductive HostOp (E : External) (S : Setup)
  | arrive (received : Received E S)
  | update (now : Int)
  | reInitWithGame (stepId : StepId) (now : Int)
  | hostMigration (infos : List LocalPartyInfo) (uninitialized : Uninitialized S)
  | connectionConnected (t : ConnectionPtr)
  | connectionDisconnected (t : ConnectionPtr)

variable {M : Stats} {E : External} {S : Setup}

namespace Host

/-- `nimbleServerUpdate` with the part of it that is about the quality. -/
def update (host : Host M E S) (now : Int) : Except HostFault (Int × Host M E S) :=
  match nimbleServerUpdateQualityTick host.updateQuality now with
  | none => .error .monotonicTimeIsGoingBackwards
  | some (qualityError, updateQuality) =>
    (nimbleServerUpdate host.server qualityError host.queue).mapError .server |>.map
      fun (result, fed, queue, server) => (result, {
        server
        updateQuality
        statsCounter := if qualityError < 0 then host.statsCounter else host.statsCounter + 1
        queue
        fed := host.fed ++ fed })

/-- An entry point of the server that has nothing to do with the transport. -/
def call (host : Host M E S) (op : Op S) : Except HostFault (Host M E S) :=
  (host.server.step op).mapError .server |>.map fun server => { host with server }

/-- One thing that happens to the host. -/
def step (host : Host M E S) : HostOp E S → Except HostFault (Host M E S)
  | .arrive received => .ok { host with queue := host.queue ++ [received] }
  | .update now => (host.update now).map (·.2)
  | .reInitWithGame stepId now => do
    let host ← host.call (.reInitWithGame stepId)
    return { host with
      updateQuality := nimbleServerUpdateQualityReInit host.updateQuality now
      statsCounter := 0 }
  | .hostMigration infos uninitialized => host.call (.hostMigration infos uninitialized)
  | .connectionConnected t => host.call (.connectionConnected t)
  | .connectionDisconnected t => host.call (.connectionDisconnected t)

end Host

end NimbleServer
