import NimbleServer.Model.Parties

/-!
# `NimbleServer.Model.Composing`: authoritative steps

`authoritative_steps.c`. The server weaves one authoritative step from the predicted steps of
all participants. `composeOneAuthoritativeStep` walks over the participant slots, reads the
step it looks for from each buffer, and writes one entry for each used participant. On the
way it moves participants through their states: a participant that just joined becomes
normal, and one that is leaving is destroyed.

Of the writes to the compose buffer the source checks one, the participant id that starts an
entry. The others are here as there: their results are dropped.

The body of the walk is cut into named parts, `readParticipantStep`,
`moveParticipantState` and `writeParticipantStep`, in the order of the source. The loop of
`nimbleServerComposeAuthoritativeSteps` is cut into its rounds, `composeRound`. A round
that writes a step raises the step count of the authoritative buffer, which the loop
condition keeps below half the window, so half the window bounds the number of rounds.
-/

set_option autoImplicit false

namespace NimbleServer

open NimbleServer.Lib

variable {E : External} {S : Setup}

/-! ### composeOneAuthoritativeStep -/

/-- Reads the step the server looks for from the participant's buffer, and tells the quality
of its party whether there was one. -/
def readParticipantStep (s : Server E S) (lookingFor : StepId) (i : ParticipantPtr S) :
    Result (StepType × List UInt8 × Server E S) :=
  let participant := s.participant i
  let (readStepOctetCount, steps) := E.nbsStepsReadExactStepId participant.steps lookingFor
  -- The read changes the buffer also when it fails.
  let s := s.setParticipant i { participant with steps }
  match readStepOctetCount, participant.inParty with
  | .error code, inParty =>
    if code = E.NimbleStepErrCollectionIsEmpty then
      match inParty with
      | none => throw .nullParty
      | some p => pure (.stepNotProvidedInTime, [], s.setParty p { s.party p with
          quality := nimbleServerConnectionQualityAddedForcedSteps (s.party p).quality 1 })
    else throw .stepsCorrupt
  | .ok _, none => throw .nullParty
  | .ok octets, some p => pure (.normal, octets, s.setParty p { s.party p with
      quality := nimbleServerConnectionQualityProvidedUsableStep (s.party p).quality })

/-- The `switch` on the participant's state. It overrides the type of the step, except for a
normal participant. -/
def moveParticipantState (s : Server E S) (i : ParticipantPtr S) (stepType : StepType) :
    Result (StepType × Server E S) :=
  match (s.participant i).state with
  | .waitingForRejoin => pure (.waitingForReJoin, s)
  | .justJoined => pure (.joined, s.setParticipant i { s.participant i with state := .normal })
  | .leaving => do
    let participants ←
      nimbleServerParticipantsDestroy s.game.participants (s.participant i).id
    return (.left, s.setParticipants participants)
  | .normal => pure (stepType, s)
  | .destroyed => pure (stepType, s)

/-- The party id that a joined entry carries. The source follows `inParty` only for such an
entry. -/
def partyIdToWrite (s : Server E S) (i : ParticipantPtr S) (stepType : StepType) :
    Result UInt8 :=
  match stepType, (s.participant i).inParty with
  | .joined, none => throw .nullParty
  | .joined, some p => pure (s.party p).id
  | _, _ => pure 0

/-- The source's `mask`: the top bit of the first octet of an entry that carries a type. -/
def stepTypeMask (stepType : StepType) : UInt8 :=
  if stepType = .normal then 0x00 else 0x80

/-- Writes one entry. `none` is the failure of the first write, the only one whose result is
checked. -/
def writeParticipantStep (E : External) (stream : OutStream) (participantId : UInt8)
    (stepType : StepType) (partyId : UInt8) (octets : List UInt8) : Option OutStream :=
  let (serializeError, stream) :=
    E.fldOutStreamWriteUInt8 stream (stepTypeMask stepType ||| participantId)
  if serializeError < 0 then none
  else
    let stream := if stepType = .normal then stream
      else (E.fldOutStreamWriteUInt8 stream (E.stepTypeOctet stepType)).2
    let stream := if stepType = .joined then (E.fldOutStreamWriteUInt8 stream partyId).2
      else stream
    if stepType = .normal ∨ stepType = .joined then
      -- The length is cut to eight bits, and so are the octets that follow it.
      let readStepOctetCountToUse := UInt8.ofNat octets.length
      let stream := (E.fldOutStreamWriteUInt8 stream readStepOctetCountToUse).2
      some (E.fldOutStreamWriteOctets stream
        (octets.take readStepOctetCountToUse.toNat)).2
    else some stream

/-- One used participant: read its step, move its state, write its entry. -/
def composeParticipant (s : Server E S) (lookingFor : StepId) (i : ParticipantPtr S)
    (stream : OutStream) : Result (Option OutStream × Server E S) := do
  let (stepType, octets, s) ← readParticipantStep s lookingFor i
  let (stepType, s) ← moveParticipantState s i stepType
  let partyId ← partyIdToWrite s i stepType
  return (writeParticipantStep E stream (s.participant i).id stepType partyId octets, s)

/-- The walk over the slots, with the stream and `foundParticipantCount`. It ends early, with
`none`, when an entry could not be started. -/
def composeParticipants (lookingFor : StepId) :
    List (ParticipantPtr S) → OutStream → Nat → Server E S →
      Result (Option OutStream × Nat × Server E S)
  | [], stream, foundParticipantCount, s => pure (some stream, foundParticipantCount, s)
  | i :: rest, stream, foundParticipantCount, s =>
    if (s.participant i).isUsed then do
      match ← composeParticipant s lookingFor i stream with
      | (none, s) => return (none, foundParticipantCount + 1, s)
      | (some stream, s) =>
        composeParticipants lookingFor rest stream (foundParticipantCount + 1) s
    else composeParticipants lookingFor rest stream foundParticipantCount s

/-- What `composeOneAuthoritativeStep` leaves behind. `octets` is `none` when the source
returns a negative value. `closingAssertion` says whether
`foundParticipantCount == participantCount` held at the end, where it was reached. -/
structure ComposedStep (E : External) (S : Setup) where
  octets : Option (List UInt8)
  closingAssertion : Bool
  server : Server E S

/-- The count octet is the count before the walk. The walk can lower the count. -/
def composeOneAuthoritativeStep (s : Server E S) (lookingFor : StepId) (maxLength : Nat) :
    Result (ComposedStep E S) := do
  let stream := E.fldOutStreamInit maxLength
  let (_, stream) := E.fldOutStreamWriteUInt8 stream
    (UInt8.ofNat s.game.participants.participantCount)
  match ← composeParticipants lookingFor (List.finRange S.maxParticipantCount) stream 0 s with
  | (none, _, s) => return { octets := none, closingAssertion := true, server := s }
  | (some stream, foundParticipantCount, s) => return {
      octets := some stream.octets
      closingAssertion := foundParticipantCount == s.game.participants.participantCount
      server := s }

/-! ### Whether to compose -/

/-- How far ahead one participant is. -/
def participantCanAdvanceStepCount (steps : E.Steps) (lookingFor : StepId) : Nat :=
  if E.stepsCount steps > 0 ∧ E.expectedWriteId steps > lookingFor then
    (E.expectedWriteId steps - lookingFor + 1).toNat
  else 0

/-- The largest number of steps some participant is ahead, and the number of participants
that cannot contribute. -/
def maxPredictedStepContributionForParticipants (participants : Participants E S)
    (lookingFor : StepId) : Nat × Nat :=
  (List.finRange S.maxParticipantCount).foldl
    (fun (maxConnectionCanAdvanceStepCount, participantCountThatCanNotContribute) i =>
      let participant := participants.get i
      if participant.isUsed then
        let count := participantCanAdvanceStepCount participant.steps lookingFor
        (max maxConnectionCanAdvanceStepCount count,
          if E.stepsCount participant.steps > 0 ∧
              E.expectedWriteId participant.steps > lookingFor then
            participantCountThatCanNotContribute
          else participantCountThatCanNotContribute + 1)
      else (maxConnectionCanAdvanceStepCount, participantCountThatCanNotContribute))
    (0, 0)

/-- A step is due if somebody is more than 3 ahead and everybody can contribute, or if somebody is
more than 5 ahead. -/
def shouldComposeNewAuthoritativeStep (participants : Participants E S) (lookingFor : StepId) :
    Bool :=
  let (maxCountStepAheadForSomeParticipant, connectionCountThatCouldNotContribute) :=
    maxPredictedStepContributionForParticipants participants lookingFor
  (decide (maxCountStepAheadForSomeParticipant > 3) &&
    connectionCountThatCouldNotContribute == 0) ||
    decide (maxCountStepAheadForSomeParticipant > 5)

/-- There is room for a step as long as the buffer is not half full. -/
def canAdvanceDueToDistanceFromLastState (authoritativeSteps : E.Steps) : Bool :=
  decide (E.stepsCount authoritativeSteps < E.NBS_WINDOW_SIZE / 2)

/-- The condition of the loop. -/
def shouldAdvanceAuthoritative (participants : Participants E S)
    (authoritativeSteps : E.Steps) : Bool :=
  shouldComposeNewAuthoritativeStep participants (E.expectedWriteId authoritativeSteps) &&
    canAdvanceDueToDistanceFromLastState authoritativeSteps

/-! ### nimbleServerComposeAuthoritativeSteps -/

/-- The size of the buffer on the stack in which a step is composed. -/
def COMPOSE_STEP_BUFFER_SIZE : Nat := 1024

/-- One round of the loop. `some code` when the function returns from inside the round, and
`none` when a step was written. A written step is recorded in the history. -/
def composeRound (s : Server E S) : Result (Option Int × Server E S) := do
  let lookingFor := E.expectedWriteId s.game.authoritativeSteps
  let composed ← composeOneAuthoritativeStep s lookingFor COMPOSE_STEP_BUFFER_SIZE
  -- What the walk changed stays changed, also if there is nothing to write.
  match composed.octets with
  | none => return (some 0, composed.server)
  | some [] => return (some 0, composed.server)
  | some octets =>
    let (octetsWritten, authoritativeSteps) :=
      E.nbsStepsWrite composed.server.game.authoritativeSteps lookingFor octets
    let written := { composed.server with
      game := { composed.server.game with authoritativeSteps } }
    if octetsWritten < 0 then return (some octetsWritten, written)
    else return (none, written.setParticipants { written.game.participants with
      log := .composed s.game.participants.participants lookingFor octets ::
        written.game.participants.log })

/-- The loop, with a bound on its rounds. -/
def composeRounds : (fuel writtenAuthoritativeSteps : Nat) → Server E S →
    Result (Int × Server E S)
  | 0, writtenAuthoritativeSteps, s =>
    if shouldAdvanceAuthoritative s.game.participants s.game.authoritativeSteps then
      throw .composeDiverged
    else pure (writtenAuthoritativeSteps, s)
  | fuel + 1, writtenAuthoritativeSteps, s =>
    if shouldAdvanceAuthoritative s.game.participants s.game.authoritativeSteps then do
      match ← composeRound s with
      | (some code, s) => return (code, s)
      | (none, s) => composeRounds fuel (writtenAuthoritativeSteps + 1) s
    else pure (writtenAuthoritativeSteps, s)

/-- Each round adds a step, and the loop ends when the buffer is half full, so half a window
bounds its rounds. -/
def nimbleServerComposeAuthoritativeSteps (s : Server E S) : Result (Int × Server E S) :=
  composeRounds (E.NBS_WINDOW_SIZE / 2) 0 s

end NimbleServer
