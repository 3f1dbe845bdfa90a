import NimbleServer.Model.State

/-!
# `NimbleServer.Model.Participants`: the participant pool

`circular_buffer.c`, `participant.c` and `participants.c`. The pool keeps three records of
which participants are in use: the flag of each participant, the number of used ones, and
the circular buffer of free ids. `nimbleServerParticipantsJoin` takes an id from the buffer,
`nimbleServerParticipantsDestroy` returns one, and `nimbleServerParticipantsPrepare`, which
host migration uses, takes a given id and leaves the buffer alone.
-/

set_option autoImplicit false

namespace NimbleServer

open NimbleServer.Lib

variable {E : External} {S : Setup}

/-! ### circular_buffer.c -/

/-- The cells are not cleared. -/
def nimbleServerCircularBufferInit (self : CircularBuffer) : CircularBuffer :=
  self.clear (by decide)

/-- `list` only labels the fault. -/
def nimbleServerCircularBufferWrite (list : FreeList) (self : CircularBuffer) (data : UInt8) :
    Result CircularBuffer :=
  if self.isFull then throw (.circularBufferOverwrite list) else pure (self.push data)

/-- The oldest value, which leaves the buffer. -/
def nimbleServerCircularBufferRead (list : FreeList) (self : CircularBuffer) :
    Result (UInt8 × CircularBuffer) :=
  if self.isEmpty then throw (.circularBufferEmpty list) else pure (self.front, self.pop)

/-- Whether there is nothing to read. -/
def nimbleServerCircularBufferIsEmpty (self : CircularBuffer) : Bool := self.isEmpty

/-- Whether there is no room to write. -/
def nimbleServerCircularBufferIsFull (self : CircularBuffer) : Bool := self.isFull

/-- How many values can be read. -/
def nimbleServerCircularBufferCount (self : CircularBuffer) : Nat := self.count

/-! ### participant.c -/

/-- A slot that nobody uses yet. -/
def nimbleServerParticipantInit (E : External) (S : Setup) (id : UInt8) : Participant E S where
  localIndex := 0
  id := id
  isUsed := false
  steps := E.nbsStepsInit S.maxSingleParticipantStepOctetCount
  inParty := none
  state := .destroyed

/-- The party is a pointer that is not null, which the source asserts. -/
def nimbleServerParticipantReInit (self : Participant E S) (party : PartyPtr S)
    (currentAuthoritativeStepId : StepId) : Participant E S :=
  { self with
      steps := E.nbsStepsReInit self.steps currentAuthoritativeStepId
      inParty := some party
      isUsed := true
      state := .justJoined }

/-- The slot keeps its id and its buffer of steps. -/
def nimbleServerParticipantDestroy (self : Participant E S) : Participant E S :=
  { self with isUsed := false, inParty := none, localIndex := 0, state := .destroyed }

/-- The participant is announced as gone with the next step that is composed. -/
def nimbleServerParticipantMarkAsLeaving (self : Participant E S) : Participant E S :=
  { self with state := .leaving }

/-! ### participants.c -/

/-- A vector with `f i` in slot `i`. -/
def tabulate {α : Type} (n : Nat) (f : Fin n → α) : Vector α n :=
  ⟨((List.finRange n).map f).toArray, by simp⟩

/-- A calloc'ed array, every id in the free list in ascending order, and no history. -/
def nimbleServerParticipantsInit (E : External) (S : Setup) (freeList : CircularBuffer) :
    Result (Participants E S) := do
  if S.maxParticipantCount = 0 then throw .participantCapacity
  if NIMBLE_SERVER_CIRCULAR_BUFFER_SIZE ≤ S.maxParticipantCount then throw .participantCapacity
  let freeList ← (List.finRange S.maxParticipantCount).foldlM
    (fun freeList i =>
      nimbleServerCircularBufferWrite .participants freeList (UInt8.ofNat i.val))
    (nimbleServerCircularBufferInit freeList)
  return {
    participants := tabulate S.maxParticipantCount fun i =>
      nimbleServerParticipantInit E S (UInt8.ofNat i.val)
    participantCount := 0
    freeList
    log := [] }

/-- The slot is found by the id that is passed, and the id goes back to the free list. -/
def nimbleServerParticipantsDestroy (self : Participants E S) (participantId : UInt8) :
    Result (Participants E S) := do
  if self.participantCount = 0 then throw .participantCount
  if h : participantId.toNat < S.maxParticipantCount then
    let i : ParticipantPtr S := ⟨participantId.toNat, h⟩
    if !(self.get i).isUsed then throw .participantNotUsed
    let freeList ← nimbleServerCircularBufferWrite .participants self.freeList participantId
    return { self.set i (nimbleServerParticipantDestroy (self.get i)) with
      participantCount := self.participantCount - 1
      freeList }
  else throw .illegalParticipantId

/-- The error code of a refused preparation, or the prepared participant. -/
def nimbleServerParticipantsPrepare (self : Participants E S) (participantId : UInt8)
    (party : PartyPtr S) (currentAuthoritativeStepId : StepId) :
    Result (Except Int (ParticipantPtr S) × Participants E S) := do
  if self.participantCount + 1 > S.maxParticipantCount then
    return (.error NimbleServerErrSessionFull, self)
  if h : participantId.toNat < S.maxParticipantCount then
    let i : ParticipantPtr S := ⟨participantId.toNat, h⟩
    if (self.get i).isUsed then return (.error (-2), self)
    -- The free list is not touched. Host migration builds it anew.
    let participant := nimbleServerParticipantReInit (self.get i) party currentAuthoritativeStepId
    return (.ok i, { self.set i { participant with
        localIndex := 0, isUsed := true, state := .waitingForRejoin, id := participantId } with
      participantCount := self.participantCount + 1 })
  else throw .illegalParticipantId

/-- The slot with this number, used or not. -/
def nimbleServerParticipantsFind (S : Setup) (participantId : UInt8) :
    Option (ParticipantPtr S) :=
  if h : participantId.toNat < S.maxParticipantCount then some ⟨participantId.toNat, h⟩
  else none

/-- The error code of a refused join, or the new participant. Only one local player is
supported. -/
def nimbleServerParticipantsJoin (self : Participants E S) (localPlayers : List Nat)
    (party : PartyPtr S) (expectedStepId : StepId) :
    Result (Except Int (ParticipantPtr S) × Participants E S) :=
  match localPlayers with
  | [localIndex] => do
    if self.participantCount + 1 > S.maxParticipantCount then
      return (.error NimbleServerErrSessionFull, self)
    -- The id is read from the free list before the slot is checked.
    let (participantId, freeList) ← nimbleServerCircularBufferRead .participants self.freeList
    if h : participantId.toNat < S.maxParticipantCount then
      let i : ParticipantPtr S := ⟨participantId.toNat, h⟩
      if (self.get i).isUsed then throw .participantAlreadyUsed
      let participant := nimbleServerParticipantReInit (self.get i) party expectedStepId
      return (.ok i, { self.set i { participant with
          localIndex, isUsed := true, state := .justJoined, id := participantId } with
        participantCount := self.participantCount + 1
        freeList
        log := .joined i :: self.log })
    else throw .illegalParticipantId
  | _ => throw .localParticipantCount

end NimbleServer
