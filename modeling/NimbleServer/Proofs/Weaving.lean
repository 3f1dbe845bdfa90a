import NimbleServer.Lib.Window
import NimbleServer.Proofs.History
import NimbleServer.Proofs.Storing

/-!
# `NimbleServer.Proofs.Weaving`: whose input is in which authoritative step

An authoritative step is woven from the predicted steps that the clients sent. The history of
a game says which payload entered which participant's buffer under which step id.
`acceptedPayload` is the first one for a participant and a step id since the participant
joined. `StepWoven` says that a composed step has these payloads and no others: a
participant in state normal has the payload that was accepted for exactly this step id, or
an entry that says there was none.

The invariant behind it relates each buffer to the step the server composes next. The buffer
starts at or before that step, so from there on it holds what was accepted
(`Buffered.accepted`). A client can send its steps early, late or twice; what is late never
becomes part of the buffer from the next step on. `BufferRule` is the rule for such
invariants: ticks do not touch a buffer, and a request touches it in two ways only.

All this needs every composed step to fit. The compose buffer has 1024 octets, and a payload
that has no room in it is left out of an entry that says it is there
(`weaving_truncated`).
-/

set_option autoImplicit false

namespace NimbleServer

open NimbleServer.Lib

variable {E : External} {S : Setup}

/-! ### Accepted payloads -/

/-- The payload that was first accepted for the participant under the step id, since the
participant joined. The history is newest first, so an older payload takes precedence. -/
def acceptedPayload (i : ParticipantPtr S) (stepId : StepId) :
    List (Event E S) → Option (List UInt8)
  | [] => none
  | .joined j :: older => if j = i then none else acceptedPayload i stepId older
  | .stored j id steps :: older => (acceptedPayload i stepId older).or
      (if j = i ∧ id = stepId then (E.storedPayloads steps).getLast? else none)
  | .composed _ _ _ :: older => acceptedPayload i stepId older

/-- What a step says about a normal participant, given its payload. -/
def wovenContent : Option (List UInt8) → EntryContent
  | some payload => .normal payload
  | none => .stepNotProvidedInTime

/-- The entries are those of a step that was woven from the accepted payloads. `before` are
the participants when the step was composed, and `older` is the history before. -/
structure StepWoven (before : Vector (Participant E S) S.maxParticipantCount) (stepId : StepId)
    (entries : List StepEntry) (older : List (Event E S)) : Prop where
  nodup : (entries.map (·.participantId)).Nodup
  normal : ∀ i : ParticipantPtr S, (before.get i).isUsed = true → (before.get i).state = .normal →
    ⟨slotOctet i, wovenContent (acceptedPayload i stepId older)⟩ ∈ entries
  normalPayload : ∀ id payload, ⟨id, .normal payload⟩ ∈ entries →
    ∃ i : ParticipantPtr S, id = slotOctet i ∧ acceptedPayload i stepId older = some payload
  joinedPayload : ∀ id partyId payload, ⟨id, .joined partyId payload⟩ ∈ entries →
    ∃ i : ParticipantPtr S, id = slotOctet i ∧
      payload = (acceptedPayload i stepId older).getD []

/-- Every composed step of the history was woven from the payloads accepted before it. -/
def AllWoven (log : List (Event E S)) : Prop :=
  ∀ newer before stepId octets older, log = newer ++ .composed before stepId octets :: older →
    ∃ entries, decodeStep E octets = some entries ∧ StepWoven before stepId entries older

/-- An event that is not a composed step changes nothing. -/
theorem AllWoven.cons {log : List (Event E S)} (h : AllWoven log) {event : Event E S}
    (hevent : ∀ before stepId octets, event = .composed before stepId octets →
      ∃ entries, decodeStep E octets = some entries ∧ StepWoven before stepId entries log) :
    AllWoven (event :: log) := by
  intro newer before stepId octets older heq
  cases newer with
  | nil =>
    rw [List.nil_append, List.cons.injEq] at heq
    exact heq.2 ▸ hevent before stepId octets heq.1
  | cons first newer =>
    rw [List.cons_append, List.cons.injEq] at heq
    exact h newer before stepId octets older heq.2

/-! ### Step buffers -/

/-- The payload that a buffer holds for a step id. -/
def bufferedPayload (steps : E.Steps) (stepId : StepId) : Option (List UInt8) :=
  windowAt (E.expectedReadId steps).toNat (E.storedPayloads steps) stepId.toNat

section Buffer

variable [LawfulSteps E]

/-- Where the server reads, it gets the payload that the buffer holds. -/
theorem toOption_readExact {steps : E.Steps} {stepId : StepId}
    (hread : E.expectedReadId steps ≤ stepId) :
    (E.nbsStepsReadExactStepId steps stepId).1.toOption = bufferedPayload steps stepId := by
  have hle : (E.expectedReadId steps).toNat ≤ stepId.toNat := UInt32.le_iff_toNat_le.mp hread
  have hwrite := LawfulSteps.writeId_eq steps
  unfold bufferedPayload
  by_cases hlt : stepId < E.expectedWriteId steps
  · have hlt' : stepId.toNat < (E.expectedWriteId steps).toNat := UInt32.lt_iff_toNat_lt.mp hlt
    have hindex : stepId.toNat - (E.expectedReadId steps).toNat
        < (E.storedPayloads steps).length := by omega
    rw [(LawfulSteps.readExact_stored steps stepId hread hlt).1, windowAt_of_le hle,
      List.getD_eq_getElem?_getD, List.getElem?_eq_getElem hindex]
    rfl
  · have hge : E.expectedWriteId steps ≤ stepId := UInt32.not_lt.mp hlt
    have hge' : (E.expectedWriteId steps).toNat ≤ stepId.toNat := UInt32.le_iff_toNat_le.mp hge
    rw [(LawfulSteps.readExact_missing steps stepId hge).1, windowAt_eq_none (by omega)]
    rfl

/-- Reading drops steps up to the one that was looked for, and keeps the later ones. -/
theorem readExact_kept {steps : E.Steps} {stepId : StepId}
    (hread : E.expectedReadId steps ≤ stepId) :
    (E.expectedReadId (E.nbsStepsReadExactStepId steps stepId).2).toNat ≤ stepId.toNat + 1 ∧
      (∀ later : StepId, stepId.toNat < later.toNat →
        bufferedPayload (E.nbsStepsReadExactStepId steps stepId).2 later
          = bufferedPayload steps later) ∧
      ∀ payload ∈ E.storedPayloads (E.nbsStepsReadExactStepId steps stepId).2,
        payload ∈ E.storedPayloads steps := by
  have hle : (E.expectedReadId steps).toNat ≤ stepId.toNat := UInt32.le_iff_toNat_le.mp hread
  have hwrite := LawfulSteps.writeId_eq steps
  have hwrite' := LawfulSteps.writeId_eq (E.nbsStepsReadExactStepId steps stepId).2
  by_cases hlt : stepId < E.expectedWriteId steps
  · -- The write id stays and the steps up to this one are gone, so the buffer starts after it.
    have hlt' : stepId.toNat < (E.expectedWriteId steps).toNat := UInt32.lt_iff_toNat_lt.mp hlt
    obtain ⟨-, hstored, hsame⟩ := LawfulSteps.readExact_stored steps stepId hread hlt
    rw [hsame, hstored, List.length_drop] at hwrite'
    have hstart : (E.expectedReadId (E.nbsStepsReadExactStepId steps stepId).2).toNat
        = (E.expectedReadId steps).toNat
          + (stepId.toNat - (E.expectedReadId steps).toNat + 1) := by omega
    refine ⟨by omega, fun later hlater => ?_, fun payload hpayload => ?_⟩
    · unfold bufferedPayload
      rw [hstored, hstart, windowAt_drop _ (by omega)]
    · rw [hstored] at hpayload
      exact List.mem_of_mem_drop hpayload
  · have hge : E.expectedWriteId steps ≤ stepId := UInt32.not_lt.mp hlt
    have hge' : (E.expectedWriteId steps).toNat ≤ stepId.toNat := UInt32.le_iff_toNat_le.mp hge
    obtain ⟨-, hstored, hsame⟩ := LawfulSteps.readExact_missing steps stepId hge
    rw [hsame] at hwrite'
    -- The buffer ends at or before the step, so it held nothing later and does not now.
    refine ⟨by omega, fun later hlater => ?_, fun payload hpayload => hstored.mem hpayload⟩
    unfold bufferedPayload
    rw [windowAt_eq_none (by omega), windowAt_eq_none (by omega)]

end Buffer

/-! ### The rule for properties of the buffers -/

/-- A property of the buffers of the participants, of the history and of the next step. Only
a new participant and a stored step can do something to it. -/
structure BufferRule (inv : Server E S → Prop) : Prop where
  pool : ∀ {s : Server E S}, inv s → PoolInvariant s.game.participants
  same : ∀ {s s' : Server E S}, inv s → PoolInvariant s'.game.participants →
    (∀ i, (s'.participant i).isUsed = (s.participant i).isUsed ∧
      (s'.participant i).steps = (s.participant i).steps) →
    s'.game.participants.log = s.game.participants.log → nextStepId s' = nextStepId s → inv s'
  create : ∀ {s : Server E S} {t : ConnectionPtr} {p : PartyPtr S} {players : List Nat}
    {i : ParticipantPtr S} {participants : Participants E S}, inv s →
    ParticipantsJoinOutcome s.game.participants players p
      (E.expectedWriteId s.game.authoritativeSteps) (.ok i, participants) →
    inv (assignParty
      (addParty ((nameParty s p).setParticipants participants) p (some t) [i]) t p)
  stored : ∀ {s : Server E S} {i : ParticipantPtr S} {steps : E.Steps}, inv s →
    OneMore (s.participant i).steps steps →
    inv (storeStep s i (E.expectedWriteId (s.participant i).steps) steps)

namespace BufferRule

variable {inv : Server E S → Prop} {s s' : Server E S}

/-- The game is the same, whatever became of the connections and the parties. -/
theorem of_game (h : BufferRule inv) (hs : inv s) (hgame : s'.game = s.game) : inv s' := by
  refine h.same hs (hgame ▸ h.pool hs) (fun i => ?_) (by rw [hgame]) ?_
  · unfold Server.participant
    rw [hgame]
    exact ⟨rfl, rfl⟩
  · unfold nextStepId
    rw [hgame]

/-- States of participants do not matter to their buffers. -/
theorem setStates (h : BufferRule inv) (hs : inv s) (hpool : PoolInvariant s'.game.participants)
    {references : List (ParticipantPtr S)} {state : ParticipantState}
    (hparticipant : ∀ i, s'.participant i
      = if i ∈ references then { s.participant i with state } else s.participant i)
    (hlog : s'.game.participants.log = s.game.participants.log)
    (hsteps : s'.game.authoritativeSteps = s.game.authoritativeSteps) : inv s' := by
  refine h.same hs hpool (fun i => ?_) hlog ?_
  · rw [hparticipant]
    split
    · exact ⟨rfl, rfl⟩
    · exact ⟨rfl, rfl⟩
  · unfold nextStepId
    rw [hsteps]

/-- Requests and ticks keep such a property. Of them only a join for a new party touches a
buffer. -/
theorem requestRule (h : BufferRule inv) (allowed : Server E S → Op S → Prop) :
    RequestRule allowed inv (fun _ => True) where
  same := fun _ _ hs hgame _ => h.of_game hs hgame
  join := by
    intro s t request uninitialized r hs _ hr
    cases hr with
    | created p i participants htype hfind hplace hjoin => exact h.create hs hjoin
    | _ => exact h.of_game hs rfl
  joinFault := fun _ _ _ _ => trivial
  tick := by
    intro s p s' hs hs'
    have hpool := (pool_playKeeps fun _ _ => True).tick s p s' (h.pool hs) hs'
    have hlog := hs'.log
    have hsteps := hs'.authoritativeSteps
    cases hs' with
    -- Three kinds of ticks set states. The others do not touch the game.
    | lost counter hused hstate hfailing =>
      exact h.setStates hs hpool (participant_lost s p counter) hlog hsteps
    | dissolved hused hstate hcount hconnection =>
      exact h.setStates hs hpool (participant_dissolved s p) hlog hsteps
    | disconnected t hused hstate hcount hconnection hfull =>
      exact h.setStates hs hpool (participant_dissolved s p) hlog hsteps
    | _ => exact h.of_game hs rfl
  tickFault := fun _ _ _ _ _ => trivial
  connectionFault := fun _ _ => trivial

/-- Each step of a request keeps it. -/
theorem storeRule [LawfulSteps E] (h : BufferRule inv) (p : PartyPtr S) : StoreRule p inv where
  single := by
    intro s i stepId inStream hs _
    have houtcome := deserializeSingleStep_outcome s i stepId inStream
    generalize nimbleServerParticipantDeserializeSingleStep s i stepId inStream = r at houtcome ⊢
    obtain ⟨code, consumed, s'⟩ := r
    dsimp only at houtcome ⊢
    cases houtcome with
    | failed code hcode => exact hs
    | ignored hid => exact hs
    | stored steps hid hmore =>
      -- A step is stored only under the id that the buffer expects.
      rw [hid]
      exact h.stored hs hmore
  note := fun _ _ _ hs => h.of_game hs rfl

/-- Storing the steps of a request. Old authoritative steps are discarded first, which does
not move the next step. -/
theorem store [LawfulSteps E] (h : BufferRule inv) (hs : inv s) (t : ConnectionPtr)
    (inStream : InStream) (uninitialized : Uninitialized S) :
    inv (readIncomingSteps s t inStream uninitialized).2.2 := by
  obtain ⟨steps, hsteps, hread⟩ := readIncomingSteps_cases s t inStream uninitialized
  have hpool := h.pool hs
  have hdiscard : inv { s with game := { s.game with authoritativeSteps := steps } } :=
    h.same hs hpool (fun _ => ⟨rfl, rfl⟩) rfl hsteps.expectedWriteId
  rcases hread with hread | hread
  · rw [hread]
    exact hdiscard
  · rw [hread]
    exact StoreRule.handleIncomingSteps inv hdiscard (fun p _ => h.storeRule p) inStream
      uninitialized

end BufferRule

/-! ### The invariant -/

/-- From the next step on, the buffer of the participant holds what was accepted. -/
structure Buffered (s : Server E S) (i : ParticipantPtr S) : Prop where
  readId : E.expectedReadId (s.participant i).steps ≤ nextStepId s
  accepted : ∀ stepId, nextStepId s ≤ stepId →
    acceptedPayload i stepId s.game.participants.log
      = bufferedPayload (s.participant i).steps stepId
  payloads : ∀ payload ∈ E.storedPayloads (s.participant i).steps, payload.length < 256

/-- The buffer, what was accepted for it and the next step stay as they are. -/
theorem Buffered.congr {s s' : Server E S} {i : ParticipantPtr S} (h : Buffered s i)
    (hsteps : (s'.participant i).steps = (s.participant i).steps)
    (haccepted : ∀ stepId, acceptedPayload i stepId s'.game.participants.log
      = acceptedPayload i stepId s.game.participants.log)
    (hnext : nextStepId s' = nextStepId s) : Buffered s' i where
  readId := by
    rw [hsteps, hnext]
    exact h.readId
  accepted := by
    intro stepId hstepId
    rw [hsteps, haccepted]
    exact h.accepted stepId (hnext ▸ hstepId)
  payloads := by
    rw [hsteps]
    exact h.payloads

/-- The buffers are in order, and the composed steps were woven from the accepted payloads. -/
structure Weaving (s : Server E S) : Prop where
  pool : PoolInvariant s.game.participants
  buffers : ∀ i, (s.participant i).isUsed = true → Buffered s i
  woven : AllWoven s.game.participants.log

namespace Weaving

variable {s s' : Server E S}

/-- The buffers of used participants, the history and the next step stay as they are. -/
theorem congr (h : Weaving s) (hpool : PoolInvariant s'.game.participants)
    (hparticipant : ∀ i, (s'.participant i).isUsed = (s.participant i).isUsed ∧
      (s'.participant i).steps = (s.participant i).steps)
    (hlog : s'.game.participants.log = s.game.participants.log)
    (hnext : nextStepId s' = nextStepId s) : Weaving s' := by
  refine ⟨hpool, fun i hused => ?_, hlog ▸ h.woven⟩
  obtain ⟨hflag, hsteps⟩ := hparticipant i
  exact (h.buffers i (hflag.symm.trans hused)).congr hsteps (fun _ => by rw [hlog]) hnext

/-- A new participant starts with an empty buffer at the next step, and nothing was accepted
for it since it joined. -/
theorem create [LawfulSteps E] (h : Weaving s) {t : ConnectionPtr} {p : PartyPtr S}
    {players : List Nat} {i : ParticipantPtr S} {participants : Participants E S}
    (hjoin : ParticipantsJoinOutcome s.game.participants players p
      (E.expectedWriteId s.game.authoritativeSteps) (.ok i, participants)) :
    Weaving (assignParty
      (addParty ((nameParty s p).setParticipants participants) p (some t) [i]) t p) := by
  have hpool := h.pool.join hjoin
  obtain ⟨-, x, -, -, -, hsteps, hget, hlog⟩ := hjoin.taken
  refine ⟨hpool, fun j hused => ?_, ?_⟩
  · have hparticipant : (assignParty (addParty ((nameParty s p).setParticipants participants)
        p (some t) [i]) t p).participant j = if i = j then x else s.participant j := hget j
    by_cases hij : i = j
    · subst hij
      rw [if_pos rfl] at hparticipant
      have hstored : E.storedPayloads x.steps = [] := by
        rw [hsteps, LawfulSteps.reInit_stored]
      have hread : E.expectedReadId x.steps = nextStepId s := by
        rw [hsteps, expectedReadId_reInit]
        rfl
      refine ⟨?_, fun stepId _ => ?_, ?_⟩
      · rw [hparticipant, hread]
        exact UInt32.le_refl _
      · rw [hparticipant]
        show acceptedPayload i stepId participants.log = _
        rw [hlog]
        -- The join is the newest event, and what was accepted before it does not count.
        unfold acceptedPayload bufferedPayload windowAt
        simp [hstored]
      · rw [hparticipant, hstored]
        exact List.forall_mem_nil _
    · rw [if_neg hij] at hparticipant
      have hold := h.buffers j (by rw [hparticipant] at hused; exact hused)
      refine hold.congr (by rw [hparticipant]) (fun stepId => ?_) rfl
      show acceptedPayload j stepId participants.log = _
      rw [hlog]
      exact if_neg hij
  · show AllWoven participants.log
    rw [hlog]
    exact h.woven.cons (by rintro _ _ _ ⟨⟩)

/-- A payload that is accepted extends the buffer by the step id it was accepted for. -/
theorem stored [LawfulSteps E] (h : Weaving s) {i : ParticipantPtr S} {steps : E.Steps}
    (hmore : OneMore (s.participant i).steps steps) :
    Weaving (storeStep s i (E.expectedWriteId (s.participant i).steps) steps) := by
  have hread := hmore.readId
  obtain ⟨payload, hlength, hstored⟩ := hmore.payload
  have hpool : PoolInvariant (s.game.participants.set i { s.participant i with steps }) :=
    h.pool.set i rfl rfl
  refine ⟨hpool.congr (fun _ => rfl) (fun _ => rfl) rfl rfl, fun j hused => ?_,
    h.woven.cons (by rintro _ _ _ ⟨⟩)⟩
  have hparticipant := participant_storeStep s i j (E.expectedWriteId (s.participant i).steps)
    steps
  by_cases hij : i = j
  · subst hij
    rw [if_pos rfl] at hparticipant
    have hold := h.buffers i (by rw [hparticipant] at hused; exact hused)
    refine ⟨?_, fun stepId hstepId => ?_, ?_⟩
    · rw [hparticipant, hread]
      exact hold.readId
    · rw [hparticipant]
      show (acceptedPayload i stepId s.game.participants.log).or
        (if i = i ∧ _ = stepId then (E.storedPayloads steps).getLast? else none) = _
      have hwrite := LawfulSteps.writeId_eq (s.participant i).steps
      rw [hold.accepted stepId hstepId]
      unfold bufferedPayload
      rw [hread, hstored, windowAt_concat, ← hwrite, List.getLast?_concat]
      by_cases hid : E.expectedWriteId (s.participant i).steps = stepId
      · -- Nothing was accepted for this id before.
        subst hid
        rw [windowAt_eq_none (by omega), if_pos rfl, if_pos ⟨rfl, rfl⟩]
        rfl
      · have hne : ¬stepId.toNat = (E.expectedWriteId (s.participant i).steps).toNat :=
          fun heq => hid (UInt32.toNat_inj.mp heq).symm
        rw [if_neg hne, if_neg (fun h => hid h.2), Option.or_none]
    · rw [hparticipant]
      intro other hother
      rw [hstored] at hother
      rcases List.mem_append.mp hother with hother | hother
      · exact hold.payloads other hother
      · rw [List.mem_singleton.mp hother]
        exact hlength
  · rw [if_neg hij] at hparticipant
    have hold := h.buffers j (by rw [hparticipant] at hused; exact hused)
    refine hold.congr (by rw [hparticipant]) (fun stepId => ?_) rfl
    -- For the others nothing was accepted.
    show (acceptedPayload j stepId s.game.participants.log).or
      (if i = j ∧ _ = stepId then (E.storedPayloads steps).getLast? else none) = _
    rw [if_neg (fun h => hij h.1), Option.or_none]

/-- The server reads what was accepted for the next step. -/
theorem providedStep_eq [LawfulSteps E] (h : Weaving s) {i : ParticipantPtr S}
    (hused : (s.participant i).isUsed = true) :
    providedStep (s.participant i) (nextStepId s)
      = acceptedPayload i (nextStepId s) s.game.participants.log := by
  have hold := h.buffers i hused
  rw [hold.accepted _ (UInt32.le_refl _)]
  exact toOption_readExact hold.readId

/-- What was accepted fits the octet that counts it. -/
theorem length_accepted [LawfulSteps E] (h : Weaving s) {i : ParticipantPtr S}
    (hused : (s.participant i).isUsed = true) {payload : List UInt8}
    (hpayload : acceptedPayload i (nextStepId s) s.game.participants.log = some payload) :
    payload.length < 256 := by
  have hold := h.buffers i hused
  rw [hold.accepted _ (UInt32.le_refl _)] at hpayload
  unfold bufferedPayload windowAt at hpayload
  split at hpayload
  · exact hold.payloads payload (List.mem_of_getElem? hpayload)
  · cases hpayload

/-- What is written of an accepted payload is all of it. -/
theorem countedOctets_accepted [LawfulSteps E] (h : Weaving s) {i : ParticipantPtr S}
    (hused : (s.participant i).isUsed = true) :
    countedOctets ((acceptedPayload i (nextStepId s) s.game.participants.log).getD [])
      = (acceptedPayload i (nextStepId s) s.game.participants.log).getD [] := by
  cases hpayload : acceptedPayload i (nextStepId s) s.game.participants.log with
  | none => rfl
  | some payload => exact countedOctets_of_lt (h.length_accepted hused hpayload)

/-- Every entry of the next step is that of a participant, with what was accepted for it. -/
theorem content_of_mem [LawfulSteps E] (h : Weaving s) {id : UInt8} {content : EntryContent}
    (hentry : ⟨id, content⟩ ∈ stepEntries s) :
    ∃ i, (s.participant i).isUsed = true ∧ id = slotOctet i ∧
      content = entryContent (composedType (s.participant i) (nextStepId s))
        (partyIdOf s (s.participant i))
        ((acceptedPayload i (nextStepId s) s.game.participants.log).getD []) := by
  obtain ⟨i, hused, heq⟩ := mem_stepEntries.mp hentry
  have hid : (s.participant i).id = slotOctet i := h.pool.id i hused
  unfold composedEntry at heq
  rw [StepEntry.mk.injEq, hid, h.providedStep_eq hused] at heq
  exact ⟨i, hused, heq.1.symm, heq.2.symm⟩

/-- The next step is woven from the accepted payloads. -/
theorem stepWoven [LawfulSteps E] (h : Weaving s) :
    StepWoven s.game.participants.participants (nextStepId s) (stepEntries s)
      s.game.participants.log where
  nodup := nodup_participantId_stepEntries h.pool
  normal := by
    intro i hused hstate
    have hid : (s.participant i).id = slotOctet i := h.pool.id i hused
    have hnormal : (s.participant i).state = .normal := hstate
    refine mem_stepEntries.mpr ⟨i, hused, ?_⟩
    unfold composedEntry composedType
    rw [hid, hnormal, h.providedStep_eq hused]
    cases hpayload : acceptedPayload i (nextStepId s) s.game.participants.log with
    | none => rfl
    | some payload =>
      show (⟨slotOctet i, .normal (countedOctets payload)⟩ : StepEntry) = _
      rw [countedOctets_of_lt (h.length_accepted hused hpayload)]
      rfl
  normalPayload := by
    intro id payload hentry
    obtain ⟨i, hused, hid, hcontent⟩ := h.content_of_mem hentry
    refine ⟨i, hid, ?_⟩
    cases htype : composedType (s.participant i) (nextStepId s) with
    | normal =>
      have hsome := isSome_of_composedType_normal htype
      rw [h.providedStep_eq hused] at hsome
      obtain ⟨accepted, haccepted⟩ := Option.isSome_iff_exists.mp hsome
      rw [htype, haccepted] at hcontent
      cases hcontent
      show _ = some (countedOctets accepted)
      rw [countedOctets_of_lt (h.length_accepted hused haccepted), haccepted]
    -- Entries of the other kinds have no payload, or one that is not of a normal step.
    | joined | stepNotProvidedInTime | waitingForReJoin | left =>
      rw [htype] at hcontent
      cases hcontent
  joinedPayload := by
    intro id partyId payload hentry
    obtain ⟨i, hused, hid, hcontent⟩ := h.content_of_mem hentry
    refine ⟨i, hid, ?_⟩
    cases htype : composedType (s.participant i) (nextStepId s) with
    | joined =>
      rw [htype] at hcontent
      cases hcontent
      exact h.countedOctets_accepted hused
    | normal | stepNotProvidedInTime | waitingForReJoin | left =>
      rw [htype] at hcontent
      cases hcontent

/-- A round adds a woven step, and reading drops only what the step was woven from. -/
theorem round [LawfulSteps E] [LawfulStepTypes E] (h : Weaving s) (hround : RoundWritten s s') :
    Weaving s' := by
  have hnext := hround.nextStepId_eq
  refine ⟨hround.pool, fun i hused' => ?_, ?_⟩
  · obtain ⟨hused, hsteps⟩ : (s.participant i).isUsed = true ∧ (s'.participant i).steps
        = (E.nbsStepsReadExactStepId (s.participant i).steps (nextStepId s)).2 := by
      rw [hround.participant i] at hused' ⊢
      split at hused'
      · rename_i hused
        rw [if_pos hused]
        refine ⟨hused, ?_⟩
        unfold composedParticipant
        cases (s.participant i).state <;> rfl
      · rename_i hused
        exact absurd hused' hused
    have hold := h.buffers i hused
    obtain ⟨hread, hlater, hkept⟩ := readExact_kept hold.readId
    refine ⟨?_, fun stepId hstepId => ?_, fun payload hpayload => ?_⟩
    · rw [hsteps, UInt32.le_iff_toNat_le, hnext]
      exact hread
    · rw [UInt32.le_iff_toNat_le, hnext] at hstepId
      -- A composed step is no payload, so the history says the same about later ids.
      rw [hsteps, hlater stepId (by omega), hround.log]
      exact hold.accepted stepId (UInt32.le_iff_toNat_le.mpr (by omega))
    · rw [hsteps] at hpayload
      exact hold.payloads payload (hkept payload hpayload)
  · rw [hround.log]
    refine h.woven.cons fun before stepId octets heq => ?_
    cases heq
    exact ⟨stepEntries s, decodeStep_stepEntries h.pool, h.stepWoven⟩

end Weaving

/-- Being woven is a property of the buffers, -/
theorem weaving_bufferRule [LawfulSteps E] : BufferRule (Weaving (E := E) (S := S)) where
  pool := fun h => h.pool
  same := fun h => h.congr
  create := fun h hjoin => h.create hjoin
  stored := fun h hmore => h.stored hmore

/-- and a round whose step fits keeps it too. -/
theorem weaving_fittingRule [LawfulSteps E] [LawfulStepTypes E] :
    FittingRule (E := E) (S := S) Weaving where
  toRequestRule := weaving_bufferRule.requestRule _
  pool := fun _ h => h.pool
  store := fun _ t inStream uninitialized h =>
    weaving_bufferRule.store h t inStream uninitialized
  round := fun _ _ h hround => h.round hround

/-- A new game has no participants and no history. -/
theorem StartsGame.weaving {s : Server E S} (h : StartsGame s) : Weaving s := by
  obtain ⟨before, stepId, hinit⟩ := h
  obtain ⟨hpool, hparticipant, hlog, -, -, -, -⟩ :=
    (nimbleServerReInitWithGame_ensures before stepId).of_ok hinit
  refine ⟨hpool, fun i hused => ?_, ?_⟩
  · rw [hparticipant i] at hused
    cases hused
  · rw [hlog]
    intro newer before stepId octets older heq
    exact absurd heq (by simp)

/-! ### Exact weaving -/

/-- On every run of a game whose steps fit their buffers, each composed step is woven exactly
from the payloads that were accepted for its id before it was composed, and no id is
composed twice. -/
theorem authoritative_weaving_exact [LawfulSteps E] [LawfulStepTypes E] [LawfulOutStreams E]
    {start s : Server E S} (hstart : StartsGame start)
    (hrun : Reaches Server.step (fun s op => op.IsPlay ∧ FitsWhenComposed s op) start s) :
    (∀ newer before stepId octets older,
        s.game.participants.log = newer ++ .composed before stepId octets :: older →
        ∃ entries, decodeStep E octets = some entries ∧
          StepWoven before stepId entries older) ∧
      ((composedSteps s.game.participants.log).map (·.1)).Nodup := by
  have hweaving := weaving_fittingRule.reachable hstart.weaving hrun
  obtain ⟨first, hhistory⟩ := history_reachable hstart hrun
  refine ⟨hweaving.woven, List.Nodup.of_map UInt32.toNat ?_⟩
  rw [List.map_map]
  exact hhistory.ids ▸ List.nodup_range'

/-- The history ends in a composed step that passes a check. -/
def newestComposed (check : Vector (Participant E S) S.maxParticipantCount → StepId →
    List UInt8 → List (Event E S) → Bool) : List (Event E S) → Bool
  | .composed before stepId octets :: older => check before stepId octets older
  | _ => false

/-- What the check found, taken apart. -/
theorem exists_of_newestComposed {check : Vector (Participant E S) S.maxParticipantCount →
    StepId → List UInt8 → List (Event E S) → Bool} {log : List (Event E S)}
    (h : newestComposed check log = true) :
    ∃ before stepId octets older, log = .composed before stepId octets :: older ∧
      check before stepId octets older = true := by
  unfold newestComposed at h
  split at h
  · exact ⟨_, _, _, _, rfl, h⟩
  · cases h

/-- One client joins and sends four steps, of which the server composes two. In the second
step it has the second payload. -/
theorem authoritative_weaving_exact_onePlayer :
    ∃ start s : Server plainExternal (plainSetup 1), StartsGame start ∧
      Reaches Server.step (fun s op => op.IsPlay ∧ FitsWhenComposed s op) start s ∧
      ∃ before octets older entries,
        s.game.participants.log = .composed before 1 octets :: older ∧
        decodeStep plainExternal octets = some entries ∧ ⟨0, .normal [2]⟩ ∈ entries := by
  obtain ⟨start, s, hstart, hrun, hs⟩ :=
    exists_run Server.step (fun s op => op.IsPlay ∧ PlainFits s op)
      (fun s => newestComposed (fun before stepId _ older => decide (stepId = 1 ∧
          before[0].isUsed = true ∧ before[0].state = .normal ∧
          acceptedPayload ⟨0, by decide⟩ stepId older = some [2]))
        s.game.participants.log = true)
      (plainGame 1)
      [.receive 0, .join 0 onePlayer (zeroLocals _),
        .incomingSteps 0 (gameStep 0 [[1], [2], [3], [4]]) (zeroLocals _),
        .composeRound, .composeRound]
      (by decide +kernel)
  have hgame := startsGame_of_blankGame hstart
  have hfits : Reaches Server.step (fun s op => op.IsPlay ∧ FitsWhenComposed s op) start s :=
    hrun.mono fun s op h => ⟨h.1, h.2.fitsWhenComposed⟩
  obtain ⟨before, stepId, octets, older, hlog, hcheck⟩ := exists_of_newestComposed hs
  obtain ⟨rfl, hused, hstate, haccepted⟩ := of_decide_eq_true hcheck
  obtain ⟨entries, hdecode, hwoven⟩ :=
    (authoritative_weaving_exact hgame hfits).1 [] before 1 octets older hlog
  have hentry := hwoven.normal ⟨0, by decide⟩ hused hstate
  rw [haccepted] at hentry
  exact ⟨start, s, hgame, hfits, before, octets, older, entries, hlog, hdecode, hentry⟩

/-- 47 clients join and each sends steps of 20 octets. -/
def crowdedGame : List (Op (plainSetup 47)) :=
  ((List.finRange 47).flatMap fun k =>
    [.receive (k.castLE (by decide)), .join (k.castLE (by decide)) onePlayer (zeroLocals _)]) ++
  ((List.finRange 47).map fun k => .incomingSteps (k.castLE (by decide))
    (gameStep 0 ([] :: List.replicate (if k = 0 then 3 else 1) (List.replicate 20 1)))
    (zeroLocals _)) ++
  [.composeRound, .composeRound]

/-- The second step of these 47 clients would have 1035 octets. The last client is in state
normal and its payload was accepted for this step. Its entry ends after the octet that
announces 20 octets, and the step cannot be read back. -/
theorem weaving_truncated :
    ∃ start s : Server plainExternal (plainSetup 47), StartsGame start ∧
      Reaches Server.step (fun s op => op.IsPlay ∧ s.Enabled op) start s ∧
      ∃ before stepId octets older,
        s.game.participants.log = .composed before stepId octets :: older ∧
        before[46].isUsed = true ∧ before[46].state = .normal ∧
        acceptedPayload ⟨46, by decide⟩ stepId older = some (List.replicate 20 1) ∧
        octets.drop 1013 = [46, 20] ∧ decodeStep plainExternal octets = none := by
  obtain ⟨start, s, hstart, hrun, hs⟩ :=
    exists_run Server.step (fun s op => op.IsPlay ∧ s.Enabled op)
      (fun s => newestComposed (fun before stepId octets older => decide (
          before[46].isUsed = true ∧ before[46].state = .normal ∧
          acceptedPayload ⟨46, by decide⟩ stepId older = some (List.replicate 20 1) ∧
          octets.drop 1013 = [46, 20] ∧ decodeStep plainExternal octets = none))
        s.game.participants.log = true)
      (plainGame 47) crowdedGame (by decide +kernel)
  obtain ⟨before, stepId, octets, older, hlog, hcheck⟩ := exists_of_newestComposed hs
  exact ⟨start, s, startsGame_of_blankGame hstart, hrun, before, stepId, octets, older, hlog,
    of_decide_eq_true hcheck⟩

end NimbleServer
