import NimbleServer.Proofs.Storing

/-!
# `NimbleServer.Proofs.StepRanges`: which authoritative steps a client is sent

The answer to a GameStep request carries ranges of authoritative steps. The client says which
step it waits for and, as a mask, which of the steps before it has received. The first
ranges repeat what the mask says is missing; a library computes them, at most three. After
them the server adds the continuation: up to 20 steps from the awaited one on.

`RangesFor` is what a single answer holds. A client that waits for a step in the buffer gets
the continuation as the last range. One that is too far behind gets nothing, and one that has
everything gets no continuation; the subtraction that counts the available steps is not
reached in these cases, so it does not wrap.

`client_catches_up` adds what this is for. A client that asks again and again, each time from
the end of the last range on, tiles the steps it misses with ranges of 20: it receives every
id once and needs exactly one request for every 20 ids or part of them.
-/

set_option autoImplicit false

namespace NimbleServer

open NimbleServer.Lib

variable {E : External} {S : Setup}

/-! ### One answer -/

/-- `nimbleServerSendStepRanges` writes some step header and then serialises the ranges. -/
def Serialises (s : Server E S) (t : ConnectionPtr) (clientWaitingForStepId : StepId)
    (receiveMask : UInt64) (ranges : List PendingRange) : Prop :=
  ∃ lastReceivedStepFromClient bufferDelta authoritativeBufferDelta, ∀ outStream : OutStream,
    nimbleServerSendStepRanges s t outStream clientWaitingForStepId receiveMask
      = if (E.nimbleSerializeServerOutStepHeader outStream lastReceivedStepFromClient
            bufferDelta authoritativeBufferDelta).1 < 0 then
          E.nimbleSerializeServerOutStepHeader outStream lastReceivedStepFromClient bufferDelta
            authoritativeBufferDelta
        else
          E.nbsPendingStepsSerializeOutRanges (E.nimbleSerializeServerOutStepHeader outStream
            lastReceivedStepFromClient bufferDelta authoritativeBufferDelta).2
            s.game.authoritativeSteps ranges

/-- Up to 20 steps from the awaited one on. -/
def continuationRange (clientWaitingForStepId writeId : StepId) : PendingRange where
  startId := clientWaitingForStepId
  count := min 20 (writeId.toNat - clientWaitingForStepId.toNat)

/-- The ranges of an answer, when `pending` are those that `nbsPendingStepsRanges` returned. -/
structure RangesFor (steps : E.Steps) (clientWaitingForStepId : StepId)
    (pending ranges : List PendingRange) : Prop where
  atMostFour : ranges.length ≤ 4
  -- The client waits for a step in the buffer.
  last : E.expectedReadId steps ≤ clientWaitingForStepId →
    clientWaitingForStepId < E.expectedWriteId steps →
    ranges = pending ++ [continuationRange clientWaitingForStepId (E.expectedWriteId steps)] ∧
    ∀ k, k < min 20 ((E.expectedWriteId steps).toNat - clientWaitingForStepId.toNat) →
      (clientWaitingForStepId + UInt32.ofNat k).toNat = clientWaitingForStepId.toNat + k ∧
      Stores steps (clientWaitingForStepId + UInt32.ofNat k)
  -- The client waits for a step that was discarded.
  before : clientWaitingForStepId < E.expectedReadId steps → ranges = []
  -- The client has every step.
  after : E.expectedReadId steps ≤ clientWaitingForStepId →
    E.expectedWriteId steps ≤ clientWaitingForStepId → ranges = pending

/-- An id below the write id, counted from one before it, does not wrap. -/
theorem toNat_add_ofNat (stepId writeId : StepId) {k : Nat}
    (h : stepId.toNat + k ≤ writeId.toNat) :
    (stepId + UInt32.ofNat k).toNat = stepId.toNat + k := by
  have hwriteId := writeId.toNat_lt
  have hk : k < UInt32.size := by
    show k < 2 ^ 32
    omega
  rw [UInt32.toNat_add, UInt32.toNat_ofNat_of_lt' hk]
  exact Nat.mod_eq_of_lt (by omega)

/-- The number of available steps, cut at 20, as the source computes it. -/
theorem availableCount_eq {stepId writeId : StepId} (h : stepId < writeId) :
    (if (writeId - stepId).toNat > 20 then 20 else (writeId - stepId).toNat)
      = min 20 (writeId.toNat - stepId.toNat) := by
  rw [UInt32.toNat_sub_of_le _ _ (UInt32.le_of_lt h)]
  split <;> omega

/-- The ranges that were chosen are the ones that are serialised. -/
theorem stepRangesToSend_serialises {s : Server E S} {t : ConnectionPtr}
    {clientWaitingForStepId : StepId} {receiveMask : UInt64} {ranges : List PendingRange}
    {numbers : StepId × Nat × Int8}
    (h : stepRangesToSend s t clientWaitingForStepId receiveMask = .ok (ranges, numbers)) :
    Serialises s t clientWaitingForStepId receiveMask ranges := by
  refine ⟨numbers.1, numbers.2.1, numbers.2.2, fun outStream => ?_⟩
  simp only [nimbleServerSendStepRanges, h]

/-- The ranges do not depend on the connection. -/
theorem stepRangesToSend_eq {s : Server E S} (t : ConnectionPtr)
    {clientWaitingForStepId : StepId} {receiveMask : UInt64} {pending : List PendingRange}
    (havailable : E.expectedReadId s.game.authoritativeSteps ≤ clientWaitingForStepId)
    (hpending : E.nbsPendingStepsRanges clientWaitingForStepId
      (E.expectedWriteId s.game.authoritativeSteps) receiveMask 3 8 = .ok pending) :
    ∃ numbers, stepRangesToSend s t clientWaitingForStepId receiveMask
      = .ok (if clientWaitingForStepId < E.expectedWriteId s.game.authoritativeSteps then
          pending ++ [continuationRange clientWaitingForStepId
            (E.expectedWriteId s.game.authoritativeSteps)]
        else pending, numbers) := by
  have hranges : (if E.expectedWriteId s.game.authoritativeSteps > clientWaitingForStepId then
      pending ++ [{
        startId := clientWaitingForStepId
        count := if (E.expectedWriteId s.game.authoritativeSteps
            - clientWaitingForStepId).toNat > 20 then 20
          else (E.expectedWriteId s.game.authoritativeSteps
            - clientWaitingForStepId).toNat }]
      else pending)
      = if clientWaitingForStepId < E.expectedWriteId s.game.authoritativeSteps then
          pending ++ [continuationRange clientWaitingForStepId
            (E.expectedWriteId s.game.authoritativeSteps)]
        else pending := by
    by_cases hlt : clientWaitingForStepId < E.expectedWriteId s.game.authoritativeSteps
    · rw [if_pos hlt, if_pos hlt, availableCount_eq hlt]
      rfl
    · rw [if_neg hlt, if_neg hlt]
  simp only [stepRangesToSend, if_neg (UInt32.not_lt.mpr havailable), hpending, hranges]
  cases (s.connection t).assignedParty with
  | none => exact ⟨_, rfl⟩
  | some p => exact ⟨_, rfl⟩

/-- Every answer is as `RangesFor` says, whichever step the client waits for. -/
theorem stepRangesToSend_rangesFor {s : Server E S} (t : ConnectionPtr)
    {clientWaitingForStepId : StepId} {receiveMask : UInt64} {pending : List PendingRange}
    (hthree : pending.length ≤ 3)
    (hpending : E.expectedReadId s.game.authoritativeSteps ≤ clientWaitingForStepId →
      E.nbsPendingStepsRanges clientWaitingForStepId
        (E.expectedWriteId s.game.authoritativeSteps) receiveMask 3 8 = .ok pending) :
    ∃ ranges numbers,
      stepRangesToSend s t clientWaitingForStepId receiveMask = .ok (ranges, numbers) ∧
      RangesFor s.game.authoritativeSteps clientWaitingForStepId pending ranges := by
  by_cases hbefore : clientWaitingForStepId < E.expectedReadId s.game.authoritativeSteps
  · -- The awaited step was discarded, so nothing is claimed about the other two cases.
    refine ⟨[], (0, 0, 0), ?_, Nat.zero_le 4, fun h => ?_, fun _ => rfl, fun h => ?_⟩
    · simp only [stepRangesToSend, if_pos hbefore]
    · exact absurd hbefore (UInt32.not_lt.mpr h)
    · exact absurd hbefore (UInt32.not_lt.mpr h)
  · have havailable := UInt32.not_lt.mp hbefore
    obtain ⟨numbers, hsend⟩ := stepRangesToSend_eq t havailable (hpending havailable)
    refine ⟨_, numbers, hsend, ?_, fun _ hlt => ⟨if_pos hlt, fun k hk => ?_⟩,
      fun h => absurd h hbefore, fun _ hle => if_neg (UInt32.not_lt.mpr hle)⟩
    · split
      · rw [List.length_append, List.length_singleton]
        omega
      · omega
    · -- The ids of the continuation lie in the buffer, and counting up to them does not wrap.
      have hid := toNat_add_ofNat (k := k) clientWaitingForStepId
        (E.expectedWriteId s.game.authoritativeSteps) (by omega)
      have hread := UInt32.le_iff_toNat_le.mp havailable
      refine ⟨hid, UInt32.le_iff_toNat_le.mpr ?_, UInt32.lt_iff_toNat_lt.mpr ?_⟩
      · omega
      · omega

/-! ### A client that keeps asking -/

/-- One request of a client: the server that answers it, the connection it comes from and its
receive mask. -/
structure StepRequest (E : External) (S : Setup) where
  server : Server E S
  connection : ConnectionPtr
  receiveMask : UInt64

/-- The last range of the answer to a request. -/
def StepRequest.lastRange (request : StepRequest E S) (awaited : StepId) :
    Except Int (Option PendingRange) :=
  (stepRangesToSend request.server request.connection awaited request.receiveMask).map
    fun result => result.1.getLast?

/-- A client asks once with each of the requests and moves the id it waits for to the end of
the last range it gets. Returns these ranges in order, and the id it then waits for. -/
def catchUp : List (StepRequest E S) → (awaited : StepId) →
    Except Int (List PendingRange × StepId)
  | [], awaited => .ok ([], awaited)
  | request :: requests, awaited => do
    match ← request.lastRange awaited with
    | none => catchUp requests awaited
    | some range =>
      let result ← catchUp requests (range.startId + UInt32.ofNat range.count)
      return (range :: result.1, result.2)

/-- The ids of a range. -/
def PendingRange.ids (range : PendingRange) : List Nat :=
  List.range' range.startId.toNat range.count

/-- The buffer of the server that answers holds the ids from `readId` up to `writeId`, and
`nbsPendingStepsRanges` returns at most three ranges for a client that misses steps. -/
structure AnswersWithin (readId writeId : StepId) (request : StepRequest E S) : Prop where
  readId_eq : E.expectedReadId request.server.game.authoritativeSteps = readId
  writeId_eq : E.expectedWriteId request.server.game.authoritativeSteps = writeId
  pending : ∀ awaited, readId ≤ awaited → awaited < writeId → ∃ pending, pending.length ≤ 3 ∧
    E.nbsPendingStepsRanges awaited writeId request.receiveMask 3 8 = .ok pending

/-- One request of a client that misses steps. -/
theorem catchUp_cons {readId writeId awaited : StepId} {request : StepRequest E S}
    (h : AnswersWithin readId writeId request) (hread : readId ≤ awaited)
    (hlt : awaited < writeId) (requests : List (StepRequest E S)) :
    catchUp (request :: requests) awaited
      = (catchUp requests (awaited
          + UInt32.ofNat (min 20 (writeId.toNat - awaited.toNat)))).map
        fun result => (continuationRange awaited writeId :: result.1, result.2) := by
  have hlast : request.lastRange awaited = .ok (some (continuationRange awaited writeId)) := by
    obtain ⟨pending, -, hpending⟩ := h.pending awaited hread hlt
    rw [← h.writeId_eq] at hpending hlt ⊢
    obtain ⟨numbers, hsend⟩ := stepRangesToSend_eq request.connection
      (h.readId_eq.symm ▸ hread) hpending
    rw [if_pos hlt] at hsend
    rw [StepRequest.lastRange, hsend]
    exact congrArg Except.ok List.getLast?_concat
  simp only [catchUp, hlast]
  rfl

/-- As many requests as there are stretches of 20 missing steps, or fewer. Induction on the
requests; the awaited id moves. -/
theorem catchUp_received {readId writeId : StepId} (requests : List (StepRequest E S)) :
    ∀ awaited : StepId, (∀ request ∈ requests, AnswersWithin readId writeId request) →
      readId ≤ awaited → awaited ≤ writeId →
      requests.length ≤ (writeId.toNat - awaited.toNat + 19) / 20 →
      ∃ received awaited', catchUp requests awaited = .ok (received, awaited') ∧
        awaited ≤ awaited' ∧
        (awaited' = writeId ↔
          requests.length = (writeId.toNat - awaited.toNat + 19) / 20) ∧
        received.flatMap PendingRange.ids
          = List.range' awaited.toNat (awaited'.toNat - awaited.toNat) := by
  induction requests with
  | nil =>
    intro awaited _ _ hle _
    refine ⟨[], awaited, rfl, UInt32.le_refl awaited, ?_, by simp⟩
    have hle := UInt32.le_iff_toNat_le.mp hle
    rw [← UInt32.toNat_inj, List.length_nil]
    omega
  | cons request requests ih =>
    intro awaited hall hread hle hcount
    have hread' := UInt32.le_iff_toNat_le.mp hread
    rw [List.length_cons] at hcount ⊢
    -- There is a request left, so a step is missing.
    have hlt : awaited.toNat < writeId.toNat := by omega
    have hnext := toNat_add_ofNat awaited writeId
      (k := min 20 (writeId.toNat - awaited.toNat)) (by omega)
    obtain ⟨received, awaited', hreceived, hmoved, hdone, hids⟩ := ih
      (awaited + UInt32.ofNat (min 20 (writeId.toNat - awaited.toNat)))
      (fun other hmem => hall other (List.mem_cons_of_mem request hmem))
      (UInt32.le_iff_toNat_le.mpr (by omega)) (UInt32.le_iff_toNat_le.mpr (by omega))
      (by omega)
    have hmoved := UInt32.le_iff_toNat_le.mp hmoved
    rw [hnext] at hmoved hdone hids
    refine ⟨continuationRange awaited writeId :: received, awaited', ?_,
      UInt32.le_iff_toNat_le.mpr (by omega), hdone.trans (by omega), ?_⟩
    · rw [catchUp_cons (hall request List.mem_cons_self) hread
        (UInt32.lt_iff_toNat_lt.mpr hlt), hreceived]
      rfl
    · calc (continuationRange awaited writeId :: received).flatMap PendingRange.ids
          = List.range' awaited.toNat (min 20 (writeId.toNat - awaited.toNat))
            ++ received.flatMap PendingRange.ids := rfl
        _ = List.range' awaited.toNat (awaited'.toNat - awaited.toNat) := by
          rw [hids, List.range'_append_1]
          congr 1
          omega

/-- What every answer to a GameStep request holds, and what follows for a client that waits for
a step in the buffer: while no step is added or discarded, its requests tile the missing steps
from the awaited one up to the write id, and the last step arrives with exactly the last of
the requests that the distance needs. -/
theorem client_catches_up :
    (∀ (s : Server E S) (t : ConnectionPtr) (clientWaitingForStepId : StepId)
      (receiveMask : UInt64) (pending : List PendingRange), pending.length ≤ 3 →
      (E.expectedReadId s.game.authoritativeSteps ≤ clientWaitingForStepId →
        E.nbsPendingStepsRanges clientWaitingForStepId
          (E.expectedWriteId s.game.authoritativeSteps) receiveMask 3 8 = .ok pending) →
      ∃ ranges numbers,
        stepRangesToSend s t clientWaitingForStepId receiveMask = .ok (ranges, numbers) ∧
        Serialises s t clientWaitingForStepId receiveMask ranges ∧
        RangesFor s.game.authoritativeSteps clientWaitingForStepId pending ranges) ∧
    ∀ (readId writeId awaited : StepId) (requests : List (StepRequest E S)),
      (∀ request ∈ requests, AnswersWithin readId writeId request) →
      readId ≤ awaited → awaited ≤ writeId →
      requests.length ≤ (writeId.toNat - awaited.toNat + 19) / 20 →
      ∃ received awaited', catchUp requests awaited = .ok (received, awaited') ∧
        (awaited' = writeId ↔
          requests.length = (writeId.toNat - awaited.toNat + 19) / 20) ∧
        received.flatMap PendingRange.ids
          = List.range' awaited.toNat (awaited'.toNat - awaited.toNat) := by
  refine ⟨?_, ?_⟩
  · intro s t clientWaitingForStepId receiveMask pending hthree hpending
    obtain ⟨ranges, numbers, hsend, hranges⟩ := stepRangesToSend_rangesFor t hthree hpending
    exact ⟨ranges, numbers, hsend, stepRangesToSend_serialises hsend, hranges⟩
  · intro readId writeId awaited requests hall hread hle hcount
    obtain ⟨received, awaited', hreceived, -, hdone, hids⟩ :=
      catchUp_received requests awaited hall hread hle hcount
    exact ⟨received, awaited', hreceived, hdone, hids⟩

/-- The memory of a server whose buffer holds the ids from 0 up to 45. -/
def fortyFiveSteps : Server plainExternal (plainSetup 1) :=
  let memory := zeroMemory (plainSetup 1)
  { memory with game := { memory.game with
      authoritativeSteps := {
        readId := 0
        payloads := List.replicate 45 []
        bounded := by decide } } }

/-- A client that waits for step 30 gets the last 15 steps, and one that waits for step 0 needs
three requests. -/
theorem client_catches_up_fortyFiveSteps :
    (∃ ranges numbers, stepRangesToSend fortyFiveSteps 0 30 0 = .ok (ranges, numbers) ∧
      ranges = [continuationRange 30 45]) ∧
    ∃ received, catchUp (List.replicate 3 ⟨fortyFiveSteps, 0, 0⟩) 0 = .ok (received, 45) ∧
      received.flatMap PendingRange.ids = List.range' 0 45 := by
  have hwriteId : plainExternal.expectedWriteId fortyFiveSteps.game.authoritativeSteps = 45 := by
    decide
  obtain ⟨hranges, hcatchUp⟩ := client_catches_up (E := plainExternal) (S := plainSetup 1)
  constructor
  · obtain ⟨ranges, numbers, hsend, -, hfor⟩ :=
      hranges fortyFiveSteps 0 30 0 [] (by decide) fun _ => rfl
    exact ⟨ranges, numbers, hsend, (hfor.last (by decide) (hwriteId ▸ by decide)).1⟩
  · obtain ⟨received, awaited', hreceived, hdone, hids⟩ := hcatchUp 0 45 0
      (List.replicate 3 ⟨fortyFiveSteps, 0, 0⟩)
      (fun request hmem => List.eq_of_mem_replicate hmem ▸
        ⟨rfl, hwriteId, fun _ _ _ => ⟨[], by decide, rfl⟩⟩)
      (by decide) (by decide) (by decide)
    obtain rfl := hdone.mpr (by decide)
    exact ⟨received, hreceived, hids⟩

end NimbleServer
