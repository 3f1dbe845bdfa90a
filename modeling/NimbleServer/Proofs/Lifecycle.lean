import NimbleServer.Lib.Sessions
import NimbleServer.Proofs.History
import NimbleServer.Proofs.References

/-!
# `NimbleServer.Proofs.Lifecycle`: a participant in the authoritative stream

Looked at through one participant id, the authoritative steps are a stream of sessions: an
entry that says the participant joined, then entries of a playing or waiting participant,
and an entry that says it left.

A session opens because a participant that just joined keeps that state until a step is
composed. Only a tick could take the state from it, by setting the participants of a party
to waiting; the tick does this to a party that failed to provide its steps, and a party
with a participant that just joined has not failed yet (`Lifecycle.fresh`). A session
closes once, because composing the entry destroys the participant.
-/

set_option autoImplicit false

namespace NimbleServer

open NimbleServer.Lib

variable {E : External} {S : Setup}

/-! ### The stream of a participant id -/

/-- The types of a participant that is playing or waiting. -/
def StepType.IsInner (stepType : StepType) : Prop :=
  stepType = .normal ∨ stepType = .stepNotProvidedInTime ∨ stepType = .waitingForReJoin

/-- What a step says about a participant id: the type of its entry. -/
def entryTypeIn (E : External) (id : UInt8) (octets : List UInt8) : Option StepType :=
  ((decodeStep E octets).bind fun entries =>
    entries.find? (·.participantId == id)).map (·.content.stepType)

/-- What the composed steps say about a participant id, oldest first. -/
def presence (id : UInt8) (log : List (Event E S)) : List (Option StepType) :=
  (composedSteps log).map fun step => entryTypeIn E id step.2

/-- The stream of a participant id, and whether a session is open. -/
abbrev Sessions (isOpen : Bool) (l : List (Option StepType)) : Prop :=
  SessionStream .joined .left StepType.IsInner isOpen l

/-- An id without a used participant has no entry in the next step. -/
theorem entryTypeIn_absent [LawfulStepTypes E] {s : Server E S}
    (hpool : PoolInvariant s.game.participants) {id : UInt8}
    (habsent : ∀ i, slotOctet i = id → (s.participant i).isUsed = false) :
    entryTypeIn E id (encodeStep E (stepEntries s)) = none := by
  unfold entryTypeIn
  rw [decodeStep_stepEntries hpool, Option.bind_some, Option.map_eq_none_iff, List.find?_eq_none]
  intro entry hentry
  obtain ⟨i, hused, rfl⟩ := mem_stepEntries.mp hentry
  have hid : (s.participant i).id = slotOctet i := hpool.id i hused
  show ¬((s.participant i).id == id) = true
  rw [hid, beq_iff_eq]
  intro heq
  cases (habsent i heq).symm.trans hused

/-- A used participant has an entry in the next step. -/
theorem entryTypeIn_used [LawfulStepTypes E] {s : Server E S}
    (hpool : PoolInvariant s.game.participants) {i : ParticipantPtr S}
    (hused : (s.participant i).isUsed = true) :
    entryTypeIn E (slotOctet i) (encodeStep E (stepEntries s))
      = some (composedType (s.participant i) (nextStepId s)) := by
  have hid : ∀ j, (s.participant j).isUsed = true → (s.participant j).id = slotOctet j :=
    fun j hj => hpool.id j hj
  unfold entryTypeIn
  rw [decodeStep_stepEntries hpool, Option.bind_some]
  cases hfind : (stepEntries s).find? (·.participantId == slotOctet i) with
  | none =>
    have hnot := List.find?_eq_none.mp hfind _ (mem_stepEntries.mpr ⟨i, hused, rfl⟩)
    exact absurd (beq_iff_eq.mpr (hid i hused)) hnot
  -- Ids are slots, so the entry that is found is that of the participant.
  | some entry =>
    obtain ⟨j, hj, rfl⟩ := mem_stepEntries.mp (List.mem_of_find?_eq_some hfind)
    have htest := List.find?_some hfind
    have heq : (s.participant j).id = slotOctet i := beq_iff_eq.mp htest
    rw [hid j hj] at heq
    rw [slotOctet_injective hpool.capacity heq]
    exact congrArg some (entryContent_stepType _ _ _)

/-! ### The invariant -/

/-- A round keeps the standing of the participants of parties in use: they are not leaving. -/
theorem References.round {strict : Prop} {s s' : Server E S} (h : References strict s)
    (hround : RoundWritten s s') : References strict s' := by
  refine h.congr hround.pool (fun p hp => ?_) fun p i hp hi => ?_
  · rw [hround.parties.isUsed] at hp
    exact ⟨hp, hround.parties.participantReferences p, hround.parties.state p⟩
  · rw [hround.parties.isUsed] at hp
    obtain ⟨hused, -, hleaving, -⟩ := (h.parties p hp).member i hi
    rw [hround.participant i, if_pos hused]
    unfold composedParticipant
    cases hstate : (s.participant i).state with
    | leaving => exact absurd hstate hleaving
    | justJoined => exact ⟨rfl, rfl, .inr ⟨hstate, rfl⟩⟩
    | normal | waitingForRejoin | destroyed => exact ⟨rfl, rfl, .inl hstate.symm⟩

/-- The parties are in order, a participant that just joined is in no party that failed, and
the stream of each id has an open session exactly if its participant is used and its entry
was composed. -/
structure Lifecycle (s : Server E S) : Prop where
  references : References False s
  fresh : ∀ p i, (s.party p).isUsed = true → i ∈ (s.party p).participantReferences →
    (s.participant i).state = .justJoined →
    (s.party p).quality.forcedStepInRowCounter = 0
  present : ∀ i, (s.participant i).isUsed = true → (s.participant i).state ≠ .justJoined →
    Sessions true (presence (slotOctet i) s.game.participants.log)
  absent : ∀ id, (∀ i, slotOctet i = id → (s.participant i).isUsed = true →
      (s.participant i).state = .justJoined) →
    Sessions false (presence id s.game.participants.log)

namespace Lifecycle

variable {s s' : Server E S}

/-- No step is composed, no participant is allocated, and none starts or stops to have just
joined. -/
theorem congr (h : Lifecycle s) (hreferences : References False s')
    (hparticipant : ∀ i, (s'.participant i).isUsed = (s.participant i).isUsed ∧
      ((s'.participant i).state = .justJoined ↔ (s.participant i).state = .justJoined))
    (hparty : ∀ p, (s'.party p).isUsed = true → (s.party p).isUsed = true ∧
      (s'.party p).participantReferences = (s.party p).participantReferences ∧
      ((s.party p).quality.forcedStepInRowCounter = 0 →
        (s'.party p).quality.forcedStepInRowCounter = 0))
    (hsteps : composedSteps s'.game.participants.log = composedSteps s.game.participants.log) :
    Lifecycle s' := by
  have hpresence : ∀ id, presence id s'.game.participants.log
      = presence id s.game.participants.log := by
    intro id
    unfold presence
    rw [hsteps]
  refine ⟨hreferences, ?_, ?_, ?_⟩
  · intro p i hused hi hjoined
    obtain ⟨hused, hrefs, hforced⟩ := hparty p hused
    rw [hrefs] at hi
    exact hforced (h.fresh p i hused hi ((hparticipant i).2.mp hjoined))
  · intro i hused hstate
    rw [hpresence]
    rw [(hparticipant i).1] at hused
    exact h.present i hused fun hjoined => hstate ((hparticipant i).2.mpr hjoined)
  · intro id hid
    rw [hpresence]
    refine h.absent id fun i hi hused => (hparticipant i).2.mp (hid i hi ?_)
    rw [(hparticipant i).1]
    exact hused

/-- One party is replaced by one with the same participants, and its count of forced steps is
kept or reset. -/
theorem replace (h : Lifecycle s) (hreferences : References False s') (p : PartyPtr S)
    {x : LocalParty S} (hgame : s'.game = s.game)
    (hs' : ∀ q, s'.party q = if p = q then x else s.party q)
    (hused : x.isUsed = (s.party p).isUsed)
    (hrefs : x.participantReferences = (s.party p).participantReferences)
    (hforced : (s.party p).quality.forcedStepInRowCounter = 0 →
      x.quality.forcedStepInRowCounter = 0) : Lifecycle s' := by
  refine h.congr hreferences (fun i => ?_) (fun q hq => ?_) (by rw [hgame])
  · unfold Server.participant
    rw [hgame]
    exact ⟨rfl, Iff.rfl⟩
  · rw [hs'] at hq ⊢
    split at hq
    · rename_i hpq
      subst hpq
      rw [if_pos rfl]
      exact ⟨hused.symm.trans hq, hrefs, hforced⟩
    · rename_i hpq
      rw [if_neg hpq]
      exact ⟨hq, rfl, id⟩

/-- A party that fails to provide its steps has no participant that just joined. -/
theorem not_justJoined (h : Lifecycle s) {p : PartyPtr S} {i : ParticipantPtr S}
    (hused : (s.party p).isUsed = true) (hi : i ∈ (s.party p).participantReferences)
    (hfailing : isFailingToProvideStepsInTime (s.party p).quality = true) :
    (s.participant i).state ≠ .justJoined := by
  intro hjoined
  have hzero := h.fresh p i hused hi hjoined
  unfold isFailingToProvideStepsInTime at hfailing
  rw [hzero] at hfailing
  -- Zero is below both thresholds.
  dsimp only at hfailing
  split at hfailing
  · cases hfailing
  · cases hfailing

/-- The participants of a party change their state, none of them having just joined. -/
theorem setStates (h : Lifecycle s) (hreferences : References False s') {p : PartyPtr S}
    {x : LocalParty S} (state : ParticipantState) (hstate : state ≠ .justJoined)
    (hs' : ∀ q, s'.party q = if p = q then x else s.party q)
    (hx : x.isUsed = true → (s.party p).isUsed = true ∧
      x.participantReferences = (s.party p).participantReferences ∧
      x.quality = (s.party p).quality)
    (hparticipant : ∀ i, s'.participant i
      = if i ∈ (s.party p).participantReferences then { s.participant i with state }
        else s.participant i)
    (hjoined : ∀ i ∈ (s.party p).participantReferences,
      (s.participant i).state ≠ .justJoined)
    (hlog : s'.game.participants.log = s.game.participants.log) : Lifecycle s' := by
  refine h.congr hreferences (fun i => ?_) (fun q hq => ?_) (by rw [hlog])
  · rw [hparticipant]
    split
    · rename_i hi
      exact ⟨rfl, fun hj => absurd hj hstate, fun hj => absurd hj (hjoined i hi)⟩
    · exact ⟨rfl, Iff.rfl⟩
  · rw [hs'] at hq ⊢
    split at hq
    · rename_i hpq
      subst hpq
      obtain ⟨hused, hrefs, hquality⟩ := hx hq
      rw [if_pos rfl, hquality]
      exact ⟨hused, hrefs, id⟩
    · rename_i hpq
      rw [if_neg hpq]
      exact ⟨hq, rfl, id⟩

/-- A new participant just joined, in a party that starts over. -/
theorem create (h : Lifecycle s) {t : ConnectionPtr} {p : PartyPtr S} {players : List Nat}
    {stepId : StepId} {i : ParticipantPtr S} {participants : Participants E S}
    (hjoin : ParticipantsJoinOutcome s.game.participants players p stepId
      (.ok i, participants)) :
    Lifecycle (assignParty
      (addParty ((nameParty s p).setParticipants participants) p (some t) [i]) t p) := by
  have hreferences := h.references.create (t := t) hjoin
  obtain ⟨hfree, x, hused, -, hstate, -, hget, hlog⟩ := hjoin.taken
  have hparty := fun q => party_created s t p q participants i
  have hparticipant : ∀ j, (assignParty (addParty ((nameParty s p).setParticipants participants)
      p (some t) [i]) t p).participant j = if i = j then x else s.participant j := hget
  have hpresence : ∀ id, presence id participants.log = presence id s.game.participants.log := by
    intro id
    unfold presence
    rw [hlog, composedSteps_joined]
  refine ⟨hreferences, ?_, ?_, ?_⟩
  · intro q j hq hj hjoined
    rw [hparty] at hq hj ⊢
    split at hq
    · rename_i hpq
      rw [if_pos hpq]
      rfl
    · rename_i hpq
      rw [if_neg hpq] at hj ⊢
      -- The new participant was not used, so no party in use references it yet.
      have hij : i ≠ j := by
        rintro rfl
        cases hfree.symm.trans ((h.references.parties q hq).member i hj).1
      rw [hparticipant, if_neg hij] at hjoined
      exact h.fresh q j hq hj hjoined
  · intro j hj hnot
    rw [hparticipant] at hj hnot
    split at hj
    · rename_i hij
      rw [if_pos hij] at hnot
      exact absurd hstate hnot
    · rename_i hij
      rw [if_neg hij] at hnot
      exact (hpresence _).symm ▸ h.present j hj hnot
  · intro id hid
    show Sessions false (presence id participants.log)
    rw [hpresence]
    refine h.absent id fun j hj hjused => ?_
    have hij : i ≠ j := by
      rintro rfl
      cases hfree.symm.trans hjused
    have hjoined := hid j hj
    rw [hparticipant, if_neg hij] at hjoined
    exact hjoined hjused

/-- A round adds one position to the stream of every id, and no used participant has just
joined any more. -/
theorem round [LawfulStepTypes E] (h : Lifecycle s) (hround : RoundWritten s s') :
    Lifecycle s' := by
  have hpool := h.references.pool
  have hreferences := h.references.round hround
  have hpresence : ∀ id, presence id s'.game.participants.log
      = presence id s.game.participants.log
        ++ [entryTypeIn E id (encodeStep E (stepEntries s))] := by
    intro id
    unfold presence
    rw [hround.log, composedSteps_composed, List.map_append]
    rfl
  -- Whoever is used after the round was used before and not leaving, and is not new any more.
  have hnone : ∀ i, (s'.participant i).isUsed = true →
      (s'.participant i).state ≠ .justJoined ∧ (s.participant i).isUsed = true ∧
        (s.participant i).state ≠ .leaving := by
    intro i hused
    rw [hround.participant i] at hused ⊢
    split at hused
    · rename_i hold
      rw [if_pos hold]
      cases hstate : (s.participant i).state with
      | leaving => simp [composedParticipant, hstate, nimbleServerParticipantDestroy] at hused
      | justJoined | normal | waitingForRejoin | destroyed =>
        simp [composedParticipant, hstate, hold]
    · rename_i hold
      exact absurd hused hold
  -- The stream of a used participant after the round. It is open unless the participant left.
  have hstream : ∀ i, (s.participant i).isUsed = true →
      Sessions (decide ((s.participant i).state ≠ .leaving))
        (presence (slotOctet i) s'.game.participants.log) := by
    intro i hused
    rw [hpresence, entryTypeIn_used hpool hused]
    have hopen : (s.participant i).state ≠ .justJoined →
        Sessions true (presence (slotOctet i) s.game.participants.log) := h.present i hused
    unfold composedType
    cases hstate : (s.participant i).state with
    -- The session was closed until now, because the participant has no entry yet.
    | justJoined =>
      refine .opened (h.absent _ fun j hj _ => ?_)
      rw [slotOctet_injective hpool.capacity hj]
      exact hstate
    | waitingForRejoin =>
      exact .within (.inr (.inr rfl)) (hopen (by rw [hstate]; rintro ⟨⟩))
    | leaving => exact .closed (hopen (by rw [hstate]; rintro ⟨⟩))
    | normal | destroyed =>
      refine .within ?_ (hopen (by rw [hstate]; rintro ⟨⟩))
      dsimp only
      split
      · exact .inl rfl
      · exact .inr (.inl rfl)
  refine ⟨hreferences, ?_, ?_, ?_⟩
  · intro p i hused hi hjoined
    have hmember := (hreferences.parties p hused).member i hi
    exact absurd hjoined (hnone i hmember.1).1
  · intro i hused _
    obtain ⟨-, hold, hleaving⟩ := hnone i hused
    have := hstream i hold
    rwa [decide_eq_true hleaving] at this
  · intro id hid
    by_cases hsome : ∃ i, slotOctet i = id ∧ (s.participant i).isUsed = true
    · obtain ⟨i, rfl, hused⟩ := hsome
      -- Otherwise the participant is still used after the round, and then it is not new.
      have hleaving : (s.participant i).state = .leaving := by
        by_contra hleaving
        have hkept : (s'.participant i).isUsed = true := by
          rw [hround.participant i, if_pos hused]
          unfold composedParticipant
          cases hstate : (s.participant i).state with
          | leaving => exact absurd hstate hleaving
          | justJoined | normal | waitingForRejoin | destroyed => exact hused
        exact (hnone i hkept).1 (hid i rfl hkept)
      have := hstream i hused
      rwa [decide_eq_false (not_not.mpr hleaving)] at this
    · have hunused : ∀ i, slotOctet i = id → (s.participant i).isUsed = false :=
        fun i hi => Bool.eq_false_iff.mpr fun hused => hsome ⟨i, hi, hused⟩
      rw [hpresence, entryTypeIn_absent hpool hunused]
      refine .gap (h.absent id fun i hi hused => ?_)
      exact absurd hused (by rw [hunused i hi]; exact Bool.false_ne_true)

end Lifecycle

/-- Every operation keeps it on runs whose steps fit. -/
theorem lifecycle_fittingRule [LawfulSteps E] [LawfulStepTypes E] :
    FittingRule (E := E) (S := S) Lifecycle where
  pool := fun _ h => h.references.pool
  same := by
    intro s s' h hgame hparties
    have hparty : ∀ p, s'.party p = s.party p :=
      fun p => congrArg (LocalParties.get · p) hparties
    refine h.congr ((references_playKeeps False).same s s' h.references hgame hparties)
      (fun i => ?_) (fun p hp => ?_) (by rw [hgame])
    · unfold Server.participant
      rw [hgame]
      exact ⟨rfl, Iff.rfl⟩
    · rw [hparty] at hp ⊢
      exact ⟨hp, rfl, id⟩
  join := by
    intro s t request uninitialized r h _ hr
    have hreferences := (references_playKeeps False).join s t request uninitialized r
      h.references (fun h => h.elim) hr
    cases hr with
    | noPlace code hplace => exact h
    | sessionFull code p hplace =>
      exact h.replace hreferences p rfl (party_nameParty s p) rfl rfl id
    | found p hcount hmatch =>
      exact h.replace hreferences p rfl (party_assignParty s t p) rfl rfl id
    | unassigned p q htype hfind hnamed hcount hpointer =>
      exact h.replace hreferences p rfl (party_assignParty s t p) rfl rfl id
    | rejoined p htype hfind hnamed hcount =>
      exact h.replace hreferences p rfl (party_rejoined s t p) rfl rfl fun _ => rfl
    | created p i participants htype hfind hplace hjoin => exact h.create hjoin
  joinFault := fun _ _ _ _ => trivial
  tick := by
    intro s p s' h hs'
    have hreferences := (references_playKeeps False).tick s p s' h.references hs'
    have hlog := hs'.log
    have hdissolved : ∀ {s'' : Server E S}, References False s'' → (s.party p).isUsed = true →
        (s.party p).state = .waitingForReJoin →
        (∀ q, s''.party q = (dissolveParty (advanceTimer s p) p).party q) →
        s''.game = (dissolveParty (advanceTimer s p) p).game → Lifecycle s'' := by
      intro s'' hreferences hused hstate hparty hgame
      refine h.setStates hreferences .leaving (by decide)
        (fun q => (hparty q).trans (party_dissolved s p q)) (fun hx => by cases hx) ?_ ?_ ?_
      · intro i
        refine Eq.trans ?_ (participant_dissolved s p i)
        exact congrArg (fun game => game.participants.get i) hgame
      · intro i hi
        -- The participants of a waiting party wait, so none of them just joined.
        rw [(h.references.parties p hused).waiting hstate i hi]
        rintro ⟨⟩
      · rw [hgame]
        exact dissolveParty_log _ p
    cases hs' with
    | unused hused => exact h
    | kept counter hused hstate hcounter =>
      exact h.replace hreferences p rfl (fun q => Server.party_setParty s p q _) rfl rfl id
    -- Here the count of forced steps is needed.
    | lost counter hused hstate hfailing =>
      exact h.setStates hreferences .waitingForRejoin (by decide)
        (fun q => party_lost s p q counter) (fun _ => ⟨hused, rfl, rfl⟩)
        (participant_lost s p counter) (fun i hi => h.not_justJoined hused hi hfailing) hlog
    | waited hused hstate =>
      exact h.replace hreferences p rfl (party_advanceTimer s p) rfl rfl id
    | stale hused hstate => exact h
    | dissolved hused hstate hcount hconnection =>
      exact hdissolved hreferences hused hstate (fun _ => rfl) rfl
    | disconnected t hused hstate hcount hconnection hfull =>
      exact hdissolved hreferences hused hstate (fun _ => rfl) rfl
  tickFault := fun _ _ _ _ _ => trivial
  connectionFault := fun _ _ => trivial
  store := by
    intro s t inStream uninitialized h
    have hstored := StoredFor.of_readIncomingSteps s t inStream uninitialized
    refine h.congr ((references_playKeeps False).readIncomingSteps h.references t inStream
      uninitialized) (fun i => ?_) (fun p hp => ?_) hstored.composedSteps
    · obtain ⟨steps, hi⟩ := hstored.participant i
      rw [hi]
      exact ⟨rfl, Iff.rfl⟩
    · rw [hstored.parties.isUsed] at hp
      refine ⟨hp, hstored.parties.participantReferences p, fun hforced => ?_⟩
      rw [hstored.forcedStepInRowCounter]
      exact hforced
  round := fun _ _ h hround => h.round hround

/-- A new game has no participants, and the stream of every id is empty. -/
theorem StartsGame.lifecycle {s : Server E S} (h : StartsGame s) : Lifecycle s := by
  have hreferences := h.references False
  obtain ⟨before, stepId, hinit⟩ := h
  obtain ⟨-, hparticipant, hlog, -, hparties, -, -⟩ :=
    (nimbleServerReInitWithGame_ensures before stepId).of_ok hinit
  refine ⟨hreferences, ?_, ?_, ?_⟩
  · intro p i _ _ hjoined
    rw [hparticipant i] at hjoined
    cases hjoined
  · intro i hused _
    rw [hparticipant i] at hused
    cases hused
  · intro id _
    rw [hlog]
    exact .nil

/-! ### Sessions in the stream -/

/-- On every run of a game whose steps fit their buffers, the composed steps have consecutive
ids, and each of them is made of entries for different participants. For each participant
id, what these steps say about it is the beginning of a sequence of sessions: no entry for
some steps, an entry in each step from a joined entry to a left entry, and only entries of
a playing or waiting participant between the two. -/
theorem participant_entries_in_sessions [LawfulSteps E] [LawfulStepTypes E] [LawfulOutStreams E]
    {start s : Server E S} (hstart : StartsGame start)
    (hrun : Reaches Server.step (fun s op => op.IsPlay ∧ FitsWhenComposed s op) start s)
    (id : UInt8) :
    (∃ first, (composedSteps s.game.participants.log).map (fun step => step.1.toNat)
        = List.range' first (composedSteps s.game.participants.log).length) ∧
      (∀ step ∈ composedSteps s.game.participants.log, ∃ entries,
        decodeStep E step.2 = some entries ∧ (entries.map (·.participantId)).Nodup) ∧
      ∃ sessions : List (Session StepType.IsInner),
        presence id s.game.participants.log
          <+: sessions.flatMap (Session.positions .joined .left) := by
  obtain ⟨first, hhistory⟩ := history_reachable hstart hrun
  have hlifecycle := lifecycle_fittingRule.reachable hstart.lifecycle hrun
  refine ⟨⟨first, hhistory.ids⟩, hhistory.entries, ?_⟩
  -- The session is open or not, depending on the participant of this id.
  by_cases hopen : ∃ i, slotOctet i = id ∧ (s.participant i).isUsed = true ∧
      (s.participant i).state ≠ .justJoined
  · obtain ⟨i, rfl, hused, hstate⟩ := hopen
    exact (hlifecycle.present i hused hstate).exists_sessions
  · refine (hlifecycle.absent id fun i hi hused => ?_).exists_sessions
    by_contra hstate
    exact hopen ⟨i, hi, hused, hstate⟩

/-- The first of two clients joins, plays one step, is lost and dissolved, and leaves. Its
stream is one complete session. -/
theorem participant_entries_in_sessions_left :
    ∃ start s : Server plainExternal (plainSetup 2), StartsGame start ∧
      Reaches Server.step (fun s op => op.IsPlay ∧ FitsWhenComposed s op) start s ∧
      presence 0 s.game.participants.log
        = some .joined :: List.replicate 21 (some .stepNotProvidedInTime) ++ [some .left] ∧
      ∃ sessions : List (Session StepType.IsInner),
        presence 0 s.game.participants.log
          <+: sessions.flatMap (Session.positions .joined .left) := by
  obtain ⟨start, s, hstart, hrun, hpresence⟩ :=
    exists_run Server.step (fun s op => op.IsPlay ∧ PlainFits s op)
      (fun s => presence 0 s.game.participants.log
        = some .joined :: List.replicate 21 (some .stepNotProvidedInTime) ++ [some .left])
      (plainGame 2)
      (firstClientLost 182 ++
        [.incomingSteps 1 (gameStep 22 (List.replicate 5 [8])) (zeroLocals _), .composeRound])
      (by decide +kernel)
  have hgame := startsGame_of_blankGame hstart
  have hfits : Reaches Server.step (fun s op => op.IsPlay ∧ FitsWhenComposed s op) start s :=
    hrun.mono fun s op h => ⟨h.1, h.2.fitsWhenComposed⟩
  exact ⟨start, s, hgame, hfits, hpresence, (participant_entries_in_sessions hgame hfits 0).2.2⟩

end NimbleServer
