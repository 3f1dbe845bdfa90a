import NimbleServer.Model.External

/-!
# `NimbleServer.Model.PlainExternal`: one set of libraries, to compute with

`plainExternal` gives every field of `External` a small executable definition. Step buffers
are lists. Numbers are written most significant octet first, and a step is its length
followed by its octets. The general results hold for every `External` that satisfies their
hypotheses; this one satisfies them (the instances at the end of this file), so they say
something, and runs on concrete datagrams can be evaluated on it.
-/

set_option autoImplicit false

namespace NimbleServer

/-- A step buffer: the id of its oldest step and the payloads from there on. The ids do not
wrap. -/
structure PlainSteps where
  readId : StepId
  payloads : List (List UInt8)
  bounded : readId.toNat + payloads.length < 2 ^ 32

namespace PlainSteps

/-- The id of the next step. -/
def writeId (self : PlainSteps) : StepId := UInt32.ofNat (self.readId.toNat + self.payloads.length)

/-- The empty buffer at an id. -/
def reInit (id : StepId) : PlainSteps where
  readId := id
  payloads := []
  bounded := id.toNat_lt

/-- Append a payload, unless the window is full or the next id would wrap. -/
def append (self : PlainSteps) (window : Nat) (payload : List UInt8) : Option PlainSteps :=
  if h : self.payloads.length < window ∧
      self.readId.toNat + self.payloads.length + 1 < 2 ^ 32 then
    some {
      readId := self.readId
      payloads := self.payloads ++ [payload]
      bounded := by rw [List.length_append]; exact h.2 }
  else none

/-- Drop the oldest payloads, at most as many as there are. -/
def discard (self : PlainSteps) (count : Nat) : PlainSteps where
  readId := UInt32.ofNat (self.readId.toNat + min count self.payloads.length)
  payloads := self.payloads.drop count
  bounded := by
    have h := self.bounded
    have hlt : self.readId.toNat + min count self.payloads.length < UInt32.size := by
      have : min count self.payloads.length ≤ self.payloads.length := Nat.min_le_right _ _
      show _ < 2 ^ 32
      omega
    rw [UInt32.toNat_ofNat_of_lt' hlt, List.length_drop]
    omega

end PlainSteps

/-- The number a list of octets stands for, most significant octet first. -/
def octetsToNat (octets : List UInt8) : Nat :=
  octets.foldl (fun value octet => value * 256 + octet.toNat) 0

/-- The `count` octets of a number, most significant octet first. -/
def natToOctets : (count value : Nat) → List UInt8
  | 0, _ => []
  | count + 1, value => natToOctets count (value / 256) ++ [UInt8.ofNat (value % 256)]

/-- Small enough to be filled in a run, and large enough for all others. -/
def plainWindowSize : Nat := 120

/-- Appends octets to a stream when they fit, with or without debug info. -/
def plainWriteOctets (stream : OutStream) (octets : List UInt8) : Int × OutStream :=
  if stream.octets.length + octets.length ≤ stream.capacity then
    (0, { stream with octets := stream.octets ++ octets })
  else (-1, stream)

/-- The stream after a write. -/
def writePlain (stream : OutStream) (octets : List UInt8) : OutStream :=
  (plainWriteOctets stream octets).2

/-- An octet stands for itself. -/
def plainReadUInt8 : InStream → Option UInt8 × Nat
  | [] => (none, 0)
  | octet :: _ => (some octet, 1)

/-- A stream that is too short is not read at all. -/
def plainReadUInt16 : InStream → Option UInt16 × Nat
  | high :: low :: _ => (some (UInt16.ofNat (octetsToNat [high, low])), 2)
  | _ => (none, 0)

/-- The types are numbered. -/
def plainStepTypeOctet : StepType → UInt8
  | .normal => 0
  | .stepNotProvidedInTime => 1
  | .waitingForReJoin => 2
  | .joined => 3
  | .left => 4

/-- A step that is read is dropped, with those before it. One that is not there yet empties the
buffer, and one that was there earlier is an error of its own. -/
def plainReadExact (steps : PlainSteps) (id : StepId) : Except Int (List UInt8) × PlainSteps :=
  if id < steps.readId then (.error (-3), steps)
  else
    let index := id.toNat - steps.readId.toNat
    match steps.payloads[index]? with
    | some payload => (.ok payload, steps.discard (index + 1))
    | none => (.error (-2), steps.discard steps.payloads.length)

/-- The length and the octets of a step. A step that is late is passed over, and one that is early
is refused. -/
def plainInSerializeStep (stream : InStream) (id : StepId) (steps : PlainSteps) :
    Int × Nat × PlainSteps :=
  match stream with
  | [] => (-1, 0, steps)
  | length :: rest =>
    if rest.length < length.toNat then (-1, 0, steps)
    else if id < steps.writeId then (0, 1 + length.toNat, steps)
    else if steps.writeId < id then (-4, 1 + length.toNat, steps)
    else
      match steps.append plainWindowSize (rest.take length.toNat) with
      | some steps => (1, 1 + length.toNat, steps)
      | none => (-5, 1 + length.toNat, steps)

/-- The libraries. -/
def plainExternal : External where
  Steps := PlainSteps
  InLogic := Bool
  OutLogic := Nat
  BlobStreamLogicOut := Nat × List UInt8
  BlobStreamOutEntry := List UInt8
  fldInStreamReadUInt8 := plainReadUInt8
  fldInStreamReadUInt16 := plainReadUInt16
  fldOutStreamInit := fun capacity => { octets := [], capacity, writeDebugInfo := false }
  fldOutStreamWriteUInt8 := fun stream octet => plainWriteOctets stream [octet]
  fldOutStreamWriteUInt16 := fun stream value =>
    plainWriteOctets stream (natToOctets 2 value.toNat)
  fldOutStreamWriteOctets := plainWriteOctets
  NBS_WINDOW_SIZE := plainWindowSize
  NimbleStepMaxSingleStepOctetCount := 24
  NimbleStepErrCollectionIsEmpty := -2
  nbsStepsInit := fun _ => PlainSteps.reInit 0
  nbsStepsReInit := fun _ id => PlainSteps.reInit id
  expectedReadId := PlainSteps.readId
  expectedWriteId := PlainSteps.writeId
  stepsCount := fun steps => steps.payloads.length
  storedPayloads := PlainSteps.payloads
  nbsStepsWrite := fun steps id octets =>
    if id = steps.writeId then
      match steps.append plainWindowSize octets with
      | some steps => (octets.length, steps)
      | none => (-1, steps)
    else (-1, steps)
  nbsStepsReadExactStepId := plainReadExact
  nbsStepsDiscardCount := fun steps count => (count, steps.discard count)
  nbsStepsInSerializeSinglePredictedStep := plainInSerializeStep
  nbsStepsInSerializeHeader := fun stream =>
    if stream.length < 5 then .error (-1)
    else .ok (UInt32.ofNat (octetsToNat (stream.take 4)),
      octetsToNat ((stream.drop 4).take 1), 5)
  nbsPendingStepsInSerializeHeader := fun stream =>
    if stream.length < 12 then .error (-1)
    else .ok (UInt32.ofNat (octetsToNat (stream.take 4)),
      UInt64.ofNat (octetsToNat ((stream.drop 4).take 8)), 12)
  nbsStepsOutSerializeCalculateCombinedSize := fun participantCount octetCount =>
    1 + participantCount * (octetCount + 4)
  nbsPendingStepsRanges := fun _ _ _ _ _ => .ok []
  nbsPendingStepsSerializeOutRanges := fun stream _ ranges =>
    (0, writePlain stream (ranges.flatMap fun range =>
      natToOctets 4 range.startId.toNat ++ natToOctets 1 range.count))
  stepTypeOctet := plainStepTypeOctet
  nimbleSerializeServerOutStepHeader := fun stream stepId bufferDelta _ =>
    (0, writePlain stream (natToOctets 4 stepId.toNat ++ natToOctets 1 bufferDelta))
  nimbleSerializeServerInConnectRequest := fun stream =>
    if stream.length < 8 then .error (-1)
    else .ok ({
      applicationVersion := {
        major := UInt16.ofNat (octetsToNat (stream.take 2))
        minor := UInt16.ofNat (octetsToNat ((stream.drop 2).take 2))
        patch := UInt16.ofNat (octetsToNat ((stream.drop 4).take 2)) }
      clientRequestId := octetsToNat ((stream.drop 6).take 1)
      useDebugStreams := octetsToNat ((stream.drop 7).take 1) != 0 }, 8)
  nimbleSerializeServerOutConnectResponse := fun stream response =>
    (0, writePlain stream
      (response.connectionId :: natToOctets 1 response.responseToRequestId))
  nimbleSerializeServerInJoinGameRequest := fun stream =>
    if stream.length < 11 then .error (-1)
    else .ok ({
      nonce := 0
      joinGameType := if octetsToNat (stream.take 1) = 0 then .noSecret else .partySecret
      partyId := UInt8.ofNat (octetsToNat ((stream.drop 1).take 1))
      sessionSecret := UInt64.ofNat (octetsToNat ((stream.drop 2).take 8))
      players := List.range (octetsToNat ((stream.drop 10).take 1)) }, 11)
  nimbleSerializeServerOutJoinGameResponse := fun stream response =>
    writePlain stream (response.partyId :: response.participants.map (·.1))
  nimbleSerializeServerOutJoinGameOutOfParticipantSlotsResponse := fun stream _ =>
    writePlain stream [0xff]
  nimbleSerializeServerOutGameStateResponse := fun stream stepId octetCount requestId transferId =>
    (0, writePlain stream (natToOctets 4 stepId.toNat ++ natToOctets 4 octetCount ++
      requestId :: natToOctets 2 transferId))
  nimbleSerializeWriteCommand := fun stream cmd => writePlain stream [cmd]
  NimbleSerializeCmdConnectRequest := 1
  NimbleSerializeCmdGameStep := 2
  NimbleSerializeCmdJoinGameRequest := 3
  NimbleSerializeCmdDownloadGameStateRequest := 4
  NimbleSerializeCmdClientOutBlobStream := 5
  NimbleSerializeCmdServerOutBlobStream := 6
  DATAGRAM_TRANSPORT_MAX_SIZE := 1200
  datagramTransportMaxSize := 1200
  orderedDatagramInLogicInit := false
  orderedDatagramInLogicReceive := fun _ _ => (.ok 2, true)
  clearHasReceivedInitialDatagram := fun _ => false
  orderedDatagramOutLogicInit := 0
  orderedDatagramOutLogicPrepare := fun sequence stream =>
    writePlain stream (natToOctets 2 sequence)
  orderedDatagramOutLogicCommit := fun sequence => (sequence + 1) % 65536
  transferIdCount := 65536
  blobStreamLogicOutInit := fun octets transferId => (transferId, octets)
  transferId := Prod.fst
  blobStreamLogicOutReceive := fun logic stream => (0, stream.length, logic)
  blobStreamLogicOutStartTransfer := fun logic stream =>
    (0, writePlain stream (natToOctets 4 logic.2.length))
  blobStreamLogicOutPrepareSend := fun logic _ => ([logic.2], logic)
  blobStreamLogicOutSendEntry := fun stream entry _ => writePlain stream entry

/-! ### The hypotheses hold -/

namespace PlainSteps

/-- The next id does not wrap. -/
theorem toNat_writeId (self : PlainSteps) :
    self.writeId.toNat = self.readId.toNat + self.payloads.length :=
  UInt32.toNat_ofNat_of_lt' self.bounded

/-- Neither does the id of the oldest step that is left. -/
theorem toNat_readId_discard (self : PlainSteps) (count : Nat) :
    (self.discard count).readId.toNat = self.readId.toNat + min count self.payloads.length := by
  refine UInt32.toNat_ofNat_of_lt' ?_
  have h := self.bounded
  show _ < 2 ^ 32
  omega

/-- Dropping old payloads does not move the next id. -/
theorem writeId_discard (self : PlainSteps) (count : Nat) :
    (self.discard count).writeId = self.writeId := by
  apply UInt32.toNat_inj.mp
  rw [toNat_writeId, toNat_writeId, toNat_readId_discard]
  show _ + (self.payloads.drop count).length = _
  rw [List.length_drop]
  omega

/-- What `append` returns. -/
theorem append_eq_some {self other : PlainSteps} {window : Nat} {payload : List UInt8}
    (h : self.append window payload = some other) :
    other.readId = self.readId ∧ other.payloads = self.payloads ++ [payload] := by
  unfold append at h
  split at h
  · cases h
    exact ⟨rfl, rfl⟩
  · cases h

end PlainSteps

/-- The step is refused, passed over or stored. -/
theorem plainInSerializeStep_cases (stream : InStream) (id : StepId) (steps : PlainSteps)
    {result : Int} {consumed : Nat} {steps' : PlainSteps}
    (h : plainInSerializeStep stream id steps = (result, consumed, steps')) :
    (result < 0 ∧ steps' = steps) ∨
    (result = 0 ∧ id < steps.writeId ∧ steps' = steps) ∨
    (result = 1 ∧ id = steps.writeId ∧ steps'.readId = steps.readId ∧
      ∃ payload : List UInt8, payload.length < 256 ∧
        steps'.payloads = steps.payloads ++ [payload]) := by
  -- One case for each outcome of the function: no length, too few octets, late, early, stored,
  -- and no room.
  unfold plainInSerializeStep at h
  split at h
  · cases h
    exact .inl ⟨by decide, rfl⟩
  · rename_i length rest
    split at h
    · cases h
      exact .inl ⟨by decide, rfl⟩
    · split at h
      · rename_i hlate
        cases h
        exact .inr (.inl ⟨rfl, hlate, rfl⟩)
      · rename_i hlate
        split at h
        · cases h
          exact .inl ⟨by decide, rfl⟩
        · rename_i hearly
          split at h
          · rename_i stored hstored
            cases h
            obtain ⟨hread, hpayloads⟩ := PlainSteps.append_eq_some hstored
            refine .inr (.inr ⟨rfl, ?_, hread, _, ?_, hpayloads⟩)
            · -- Neither late nor early: it is the expected step.
              exact UInt32.le_antisymm (UInt32.not_lt.mp hearly) (UInt32.not_lt.mp hlate)
            · have := length.toNat_lt
              rw [List.length_take]
              omega
          · cases h
            exact .inl ⟨by decide, rfl⟩

/-- A step that is there is returned and dropped. -/
theorem plainReadExact_stored (steps : PlainSteps) (id : StepId) (hread : steps.readId ≤ id)
    (hwrite : id < steps.writeId) :
    (plainReadExact steps id).1
        = .ok (steps.payloads.getD (id.toNat - steps.readId.toNat) []) ∧
      (plainReadExact steps id).2 = steps.discard (id.toNat - steps.readId.toNat + 1) := by
  have hlt : id.toNat < steps.readId.toNat + steps.payloads.length := by
    rw [← steps.toNat_writeId]
    exact UInt32.lt_iff_toNat_lt.mp hwrite
  have hle : steps.readId.toNat ≤ id.toNat := UInt32.le_iff_toNat_le.mp hread
  have hindex : id.toNat - steps.readId.toNat < steps.payloads.length := by omega
  unfold plainReadExact
  rw [if_neg (UInt32.not_lt.mpr hread)]
  dsimp only
  rw [List.getD_eq_getElem?_getD, List.getElem?_eq_getElem hindex]
  exact ⟨rfl, rfl⟩

/-- A step that is not there yet is reported as an empty collection. -/
theorem plainReadExact_missing (steps : PlainSteps) (id : StepId)
    (hwrite : steps.writeId ≤ id) :
    plainReadExact steps id = (.error (-2), steps.discard steps.payloads.length) := by
  have hle : steps.readId.toNat + steps.payloads.length ≤ id.toNat := by
    rw [← steps.toNat_writeId]
    exact UInt32.le_iff_toNat_le.mp hwrite
  have hread : steps.readId ≤ id := UInt32.le_iff_toNat_le.mpr (by omega)
  unfold plainReadExact
  rw [if_neg (UInt32.not_lt.mpr hread)]
  dsimp only
  rw [List.getElem?_eq_none (by omega)]

/-- Writing the expected id is appending. -/
theorem plainExternal_nbsStepsWrite (steps : PlainSteps) (octets : List UInt8) :
    plainExternal.nbsStepsWrite steps (plainExternal.expectedWriteId steps) octets
      = match steps.append plainWindowSize octets with
        | some steps => ((octets.length : Int), steps)
        | none => (-1, steps) :=
  if_pos rfl

/-- The lists behave as `NbsSteps` is assumed to. -/
instance plainExternal_lawfulSteps : LawfulSteps plainExternal where
  empty_neg := by decide
  writeId_eq := PlainSteps.toNat_writeId
  stepsCount_eq := fun _ => rfl
  reInit_writeId := fun _ id => UInt32.ofNat_toNat
  reInit_stored := fun _ _ => rfl
  inSerialize_cases := fun stream id steps _ _ _ h =>
    plainInSerializeStep_cases stream id steps h
  readExact_stored := by
    intro steps id hread hwrite
    obtain ⟨hresult, hsteps⟩ := plainReadExact_stored steps id hread hwrite
    refine ⟨hresult, ?_, ?_⟩
    · exact congrArg PlainSteps.payloads hsteps
    · exact (congrArg PlainSteps.writeId hsteps).trans (steps.writeId_discard _)
  readExact_missing := by
    intro steps id hwrite
    have h := plainReadExact_missing steps id hwrite
    refine ⟨congrArg Prod.fst h, ?_, ?_⟩
    · have : (plainReadExact steps id).2.payloads = steps.payloads.drop steps.payloads.length :=
        congrArg (fun r => r.2.payloads) h
      show (plainReadExact steps id).2.payloads <:+ steps.payloads
      rw [this]
      exact List.drop_suffix _ _
    · exact (congrArg (fun r => r.2.writeId) h).trans (steps.writeId_discard _)
  write_ok := by
    intro steps id octets hid hresult
    subst hid
    have hwrite := plainExternal_nbsStepsWrite steps octets
    rw [hwrite] at hresult ⊢
    cases happend : steps.append plainWindowSize octets with
    | none =>
      rw [happend] at hresult
      have : (0 : Int) ≤ -1 := hresult
      exact absurd this (by decide)
    | some steps' =>
      obtain ⟨hread, hpayloads⟩ := PlainSteps.append_eq_some happend
      exact ⟨hpayloads, hread⟩
  discard_ok := by
    intro steps count hcount
    exact ⟨Int.natCast_nonneg count, rfl, steps.writeId_discard count⟩

/-- A payload comes from a step that is stored. -/
instance plainExternal_exactSteps : ExactSteps plainExternal where
  readExact_ok := by
    intro steps id octets h
    have hok : (plainReadExact steps id).1 = .ok octets := h
    -- A payload is returned neither below the oldest step nor past the last one.
    have hread : ¬id < steps.readId := by
      intro hlt
      unfold plainReadExact at hok
      rw [if_pos hlt] at hok
      cases hok
    refine ⟨UInt32.not_lt.mp hread, ?_⟩
    show id < steps.writeId
    by_contra hwrite
    rw [plainReadExact_missing steps id (UInt32.not_lt.mp hwrite)] at hok
    cases hok

/-- A read that reports an empty collection for every id that is not stored. -/
def lenientReadExact (steps : PlainSteps) (id : StepId) : Except Int (List UInt8) × PlainSteps :=
  if id < steps.readId then (.error (-2), steps) else plainReadExact steps id

/-- The same libraries, but a step that was read before counts as one that is not there.
`LawfulSteps` leaves open what a read below `expectedReadId` does. -/
def lenientExternal : External :=
  { plainExternal with nbsStepsReadExactStepId := lenientReadExact }

/-- From the oldest step on the two reads are the same. -/
theorem lenientReadExact_eq {steps : PlainSteps} {id : StepId} (h : steps.readId ≤ id) :
    lenientReadExact steps id = plainReadExact steps id :=
  if_neg (UInt32.not_lt.mpr h)

/-- The laws speak only about reads from the oldest step on. -/
instance lenientExternal_lawfulSteps : LawfulSteps lenientExternal :=
  { plainExternal_lawfulSteps with
    readExact_stored := by
      intro steps id hread hwrite
      have heq : lenientExternal.nbsStepsReadExactStepId steps id = plainReadExact steps id :=
        lenientReadExact_eq hread
      rw [heq]
      exact plainExternal_lawfulSteps.readExact_stored steps id hread hwrite
    readExact_missing := by
      intro steps id hwrite
      -- A step that is not there yet is not below the oldest one.
      have hread : PlainSteps.readId steps ≤ id := by
        have hle := PlainSteps.toNat_writeId steps
        have hwrite : (PlainSteps.writeId steps).toNat ≤ id.toNat :=
          UInt32.le_iff_toNat_le.mp hwrite
        exact UInt32.le_iff_toNat_le.mpr (by omega)
      have heq : lenientExternal.nbsStepsReadExactStepId steps id = plainReadExact steps id :=
        lenientReadExact_eq hread
      rw [heq]
      exact plainExternal_lawfulSteps.readExact_missing steps id hwrite }

/-- Whether the expected id can be written does not depend on the octets. -/
theorem plainExternal_nbsStepsWrite_nonneg {steps : PlainSteps}
    (h : (steps.append plainWindowSize []).isSome = true) (octets : List UInt8) :
    0 ≤ (plainExternal.nbsStepsWrite steps (plainExternal.expectedWriteId steps) octets).1 := by
  rw [plainExternal_nbsStepsWrite]
  unfold PlainSteps.append at h ⊢
  split at h
  · rename_i hroom
    rw [dif_pos hroom]
    exact Int.natCast_nonneg _
  · cases h

/-- A write adds one step or fails and adds none. -/
theorem plainExternal_write_count (steps : PlainSteps) (id : StepId) (octets : List UInt8) :
    (0 ≤ (plainExternal.nbsStepsWrite steps id octets).1 →
      (plainExternal.nbsStepsWrite steps id octets).2.payloads.length
        = steps.payloads.length + 1) ∧
    ((plainExternal.nbsStepsWrite steps id octets).1 < 0 →
      (plainExternal.nbsStepsWrite steps id octets).2.payloads.length
        ≤ steps.payloads.length + 1) := by
  by_cases hid : id = plainExternal.expectedWriteId steps
  · subst hid
    rw [plainExternal_nbsStepsWrite]
    cases happend : steps.append plainWindowSize octets with
    | none => simp
    | some steps' => simp [(PlainSteps.append_eq_some happend).2]
  · have hwrite : plainExternal.nbsStepsWrite steps id octets = (-1, steps) := if_neg hid
    simp [hwrite]

/-- The number of steps is the length of the list. -/
instance plainExternal_countedSteps : CountedSteps plainExternal where
  reInit_count := fun _ _ => rfl
  write_count := fun steps id octets => (plainExternal_write_count steps id octets).1
  write_failed := fun steps id octets => (plainExternal_write_count steps id octets).2
  discard_count := fun _ _ _ => List.length_drop

/-- The numbers of the types differ. -/
instance plainExternal_lawfulStepTypes : LawfulStepTypes plainExternal where
  stepTypeOctet_injective := by
    intro a b h
    cases a <;> cases b <;> first | rfl | cases h

/-- An octet is read as one octet. -/
instance plainExternal_lawfulInStreams : LawfulInStreams plainExternal where
  readUInt8_nil := rfl
  readUInt8_cons := fun octet _ => ⟨octet, 1, Nat.one_pos, rfl⟩
  readUInt16_none := by
    intro inStream h
    match inStream with
    | [] => exact Nat.zero_le 1
    | [_] => exact Nat.le_refl 1
    | _ :: _ :: _ => cases h

section Write

variable {stream : OutStream} {octets : List UInt8}

/-- There is room. -/
theorem plainWriteOctets_ok
    (h : stream.octets.length + octets.length ≤ stream.capacity) :
    plainWriteOctets stream octets = (0, { stream with octets := stream.octets ++ octets }) :=
  if_pos h

/-- There is no room. -/
theorem plainWriteOctets_full
    (h : stream.capacity < stream.octets.length + octets.length) :
    plainWriteOctets stream octets = (-1, stream) :=
  if_neg (Nat.not_le.mpr h)

end Write

/-- A write that is not checked leaves the buffer as it is or appends to it. -/
theorem writePlain_grows (stream : OutStream) (octets : List UInt8) :
    stream.Grows (writePlain stream octets) := by
  by_cases hroom : stream.octets.length + octets.length ≤ stream.capacity
  · rw [writePlain, plainWriteOctets_ok hroom]
    exact ⟨List.prefix_append _ _, rfl, fun _ => by simpa using hroom, rfl⟩
  · rw [writePlain, plainWriteOctets_full (Nat.not_le.mp hroom)]
    exact ⟨List.prefix_rfl, rfl, fun h => h, rfl⟩

/-- Two octets hold a number below 65536. -/
theorem octetsToNat_natToOctets_two (n : Nat) : octetsToNat (natToOctets 2 n) = n % 65536 := by
  simp [octetsToNat, natToOctets]
  omega

/-- Numbers of 16 bits that differ have different octets. -/
theorem natToOctets_two_injective {value value' : UInt16}
    (h : natToOctets 2 value.toNat = natToOctets 2 value'.toNat) : value = value' := by
  have hnat := congrArg octetsToNat h
  rw [octetsToNat_natToOctets_two, octetsToNat_natToOctets_two,
    Nat.mod_eq_of_lt value.toNat_lt, Nat.mod_eq_of_lt value'.toNat_lt] at hnat
  exact UInt16.toNat_inj.mp hnat

/-- A write of 16 bits appends two octets or fails. -/
theorem plainWriteUInt16_cases (stream : OutStream) :
    (∀ value : UInt16, plainExternal.fldOutStreamWriteUInt16 stream value
      = (0, { stream with octets := stream.octets ++ natToOctets 2 value.toNat })) ∨
    ∀ value : UInt16, plainExternal.fldOutStreamWriteUInt16 stream value = (-1, stream) := by
  by_cases hroom : stream.octets.length + 2 ≤ stream.capacity
  · exact .inl fun value => plainWriteOctets_ok hroom
  · exact .inr fun value => plainWriteOctets_full (Nat.not_le.mp hroom)

/-- A write is complete or has no effect. -/
instance plainExternal_lawfulOutStreams : LawfulOutStreams plainExternal where
  init_eq := fun _ => rfl
  writeOctets_ok := by
    intro stream octets _ hroom
    rw [show plainExternal.fldOutStreamWriteOctets stream octets = _ from
      plainWriteOctets_ok hroom]
    exact ⟨Int.le_refl 0, rfl⟩
  writeOctets_full := by
    intro stream octets _ hfull
    rw [show plainExternal.fldOutStreamWriteOctets stream octets = _ from
      plainWriteOctets_full hfull]
    exact ⟨Int.negSucc_lt_zero 0, rfl⟩
  writeUInt8_eq := fun _ _ _ => rfl
  writeUInt16_grows := fun stream _ => writePlain_grows stream _
  writeUInt16_full := by
    intro stream value h
    rcases plainWriteUInt16_cases stream with hok | hfull
    · rw [hok] at h
      exact absurd h (Int.lt_irrefl 0)
    · rw [hfull]
  writeUInt16_length := by
    intro stream value _ h
    rcases plainWriteUInt16_cases stream with hok | hfull
    · rw [hok]
      exact List.length_append
    · rw [hfull] at h
      exact absurd h (Int.not_le.mpr (Int.negSucc_lt_zero 0))
  writeUInt16_result := by
    intro stream value value'
    rcases plainWriteUInt16_cases stream with hok | hfull
    · rw [hok, hok]
    · rw [hfull, hfull]
  writeUInt16_value := by
    intro stream value value' h hne
    rcases plainWriteUInt16_cases stream with hok | hfull
    · rw [hok, hok]
      refine ⟨?_, fun heq => ?_⟩
      · simp only [List.length_append]
        rfl
      · exact hne (natToOctets_two_injective (List.append_cancel_left heq))
    · rw [hfull] at h
      exact absurd h (Int.not_le.mpr (Int.negSucc_lt_zero 0))

/-- All writers append. -/
instance plainExternal_lawfulWriters : LawfulWriters plainExternal where
  outRanges := fun stream _ _ => writePlain_grows stream _
  outStepHeader := fun stream _ _ _ => writePlain_grows stream _
  outConnectResponse := fun stream _ => writePlain_grows stream _
  outJoinGameResponse := fun stream _ => writePlain_grows stream _
  outOutOfParticipantSlots := fun stream _ => writePlain_grows stream _
  outGameStateResponse := fun stream _ _ _ _ => writePlain_grows stream _
  writeCommand := fun stream _ => writePlain_grows stream _
  startTransfer := fun _ stream => writePlain_grows stream _
  sendEntry := fun stream _ _ => writePlain_grows stream _
  maxSize_eq := rfl
  four_le_maxSize := by decide
  debugHeader_fits := fun _ _ => Int.le_refl 0

/-- A write returns the number of octets or -1. -/
theorem plainExternal_write_ne (steps : PlainSteps) (id : StepId) (octets : List UInt8) :
    (plainExternal.nbsStepsWrite steps id octets).1 ≠ -4 := by
  by_cases hid : id = plainExternal.expectedWriteId steps
  · subst hid
    rw [plainExternal_nbsStepsWrite]
    cases steps.append plainWindowSize octets with
    | none => simp
    | some _ =>
      show (octets.length : Int) ≠ -4
      omega
  · have hwrite : plainExternal.nbsStepsWrite steps id octets = (-1, steps) := if_neg hid
    simp [hwrite]

/-- The readers refuse an empty stream, and nothing else returns -4. -/
instance plainExternal_lawfulReaders : LawfulReaders plainExternal where
  connectRequest_nil := ⟨-1, rfl⟩
  joinGameRequest_nil := ⟨-1, by decide, rfl⟩
  pendingHeader_nil := ⟨-1, by decide, rfl⟩
  stepsHeader_nil := ⟨-1, by decide, by decide, rfl⟩
  write_ne := fun steps id octets => plainExternal_write_ne steps id octets
  ranges_ne := by
    intro _ _ _ _ _ h
    cases h
  outStepHeader_ne := fun _ _ _ _ => show (0 : Int) ≠ -4 by decide
  outRanges_ne := fun _ _ _ => show (0 : Int) ≠ -4 by decide

/-- The transfer id is stored with the octets. -/
instance plainExternal_lawfulTransfers : LawfulTransfers plainExternal where
  first_lt := by decide
  init_transferId := fun _ _ _ => rfl
  receive_transferId := fun _ _ => rfl
  prepareSend_transferId := fun _ _ => rfl

/-- The sequence numbers of `plainExternal` have 16 bits. -/
def plainSequenceNumbers : SequenceNumbers plainExternal where
  modulus := 65536
  number := fun sequence : Nat => sequence % 65536
  octets := natToOctets 2
  read := fun datagram => octetsToNat (datagram.take 2)
  number_lt := fun _ => Nat.mod_lt _ (by decide)
  octets_length := fun _ => Nat.le_refl 2
  read_octets := by
    intro n rest hn
    have htake : (natToOctets 2 n ++ rest).take 2 = natToOctets 2 n := rfl
    rw [htake, octetsToNat_natToOctets_two, Nat.mod_eq_of_lt hn]
  prepare_grows := fun _ stream => writePlain_grows stream _
  prepare_ok := by
    intro (sequence : Nat) stream hroom
    -- The two octets of a number are those of its remainder.
    have hoctets : natToOctets 2 (sequence % 65536) = natToOctets 2 sequence := by
      have hhigh : sequence % 65536 / 256 % 256 = sequence / 256 % 256 := by omega
      have hlow : sequence % 65536 % 256 = sequence % 256 := by omega
      simp only [natToOctets, hhigh, hlow]
    rw [hoctets] at hroom ⊢
    exact congrArg Prod.snd (plainWriteOctets_ok hroom)
  number_commit := by
    intro (sequence : Nat)
    show (sequence + 1) % 65536 % 65536 = (sequence % 65536 + 1) % 65536
    omega

end NimbleServer
