import NimbleServer.Proofs.HostMigration
import NimbleServer.Proofs.LockstepRefinement

/-!
# `NimbleServer.Proofs.MigratedGame`: playing on after a host migration

A host takes over a game from another one: it sets up a game and calls
`nimbleServerHostMigration` with the participants that played. `Proofs/HostMigration.lean`
says what the server holds right after the call. This module follows the game from there.

* `hostMigration_migrated`: the migrated server satisfies the invariants of a running game, so
  the results about every later run apply to it as they do to a new game. The k-th participant
  of the list has the party in slot k, and this is the id a client comes back with.
* `migrated_party_can_be_rejoined`: as long as a party stays in use, whatever the others do,
  its client gets its participant back. The client was promised no more than that. The source
  never takes a participant back from waiting, so every step that the new host composes says
  that the participant waits, also after its client came back.
* `migrated_game_plays_on`: the new host plays in lockstep, from a table at which everybody who
  was listed is absent. Here the game must not be at step 0: the buffers are set up for the
  step before the next one, and the subtraction wraps around.
-/

set_option autoImplicit false

namespace NimbleServer

open NimbleServer.Lib

variable {E : External} {S : Setup}

/-! ### The loop of the migration -/

/-- What naming a slot and preparing a party keep holds where the loop ends. Induction on the
participants. -/
theorem prepareParties_keeps
    (hcapacity : S.maxParticipantCount < NIMBLE_SERVER_CIRCULAR_BUFFER_SIZE)
    (inv : Server E S → Prop) (hnamed : ∀ s p, inv s → inv (nameParty s p))
    (hprepared : ∀ s p i, inv s → inv (prepareParty s p
      (preparedPool s.game.participants i (UInt8.ofNat i.val) p (nextStepId s - 1)) i))
    (uninitialized : Uninitialized S) :
    ∀ (ids : List (ParticipantPtr S)) (s : Server E S), inv s →
      Ensures (prepareParties uninitialized (partyInfos ids) s) (fun r => inv r.2)
        (fun _ => False) := by
  intro ids
  induction ids with
  | nil =>
    intro s h
    exact h
  | cons i ids ih =>
    intro s h
    show Ensures (prepareParties uninitialized (partyInfo i :: partyInfos ids) s) _ _
    unfold prepareParties
    refine (localPartiesPrepare_outcome hcapacity s _ i uninitialized).bind ?_
    intro r hr
    cases hr with
    | refused err s' herr hrefused hsame =>
      dsimp only
      rw [if_pos herr]
      rcases hsame with rfl | ⟨p, rfl⟩
      · exact h
      · exact hnamed s p h
    -- The source takes the step id before the next one, `nextStepId s - 1`.
    | prepared p hplace hfree =>
      dsimp only
      rw [if_neg (by decide)]
      exact ih _ (hprepared s p i h)

/-- What `Prepared` does not say: the parties are named, those that are not in use reference
nobody, each participant is the first player of its client and has an empty buffer that
starts one step before the next one, and nothing has happened yet. -/
structure NewlyPrepared (s : Server E S) : Prop where
  named : PartiesNamed s
  unused : ∀ p, (s.party p).isUsed = false → (s.party p).participantReferences = []
  participant : ∀ i, (s.participant i).isUsed = true → (s.participant i).localIndex = 0 ∧
    ∃ steps, (s.participant i).steps = E.nbsStepsReInit steps (nextStepId s - 1)
  log : s.game.participants.log = []

/-- It holds where the loop starts: there are no parties and no participants. -/
theorem StartsGame.newlyPrepared {s : Server E S} (h : StartsGame s) :
    NewlyPrepared (resetParties s) where
  named := by
    intro p hp
    cases (resetParties_unused s p).symm.trans hp
  unused := by
    intro p _
    rw [party_resetParties]
    rfl
  participant := by
    intro i hi
    cases (h.participant_unused i).symm.trans hi
  log := by
    obtain ⟨before, stepId, hinit⟩ := h
    exact ((nimbleServerReInitWithGame_ensures before stepId).of_ok hinit).2.2.1

namespace NewlyPrepared

variable {s : Server E S}

/-- A slot gets the id it should have. -/
theorem nameParty (h : NewlyPrepared s) (p : PartyPtr S) :
    NewlyPrepared (NimbleServer.nameParty s p) where
  named := h.named.replace p (party_nameParty s p) fun _ => rfl
  unused := by
    intro q hq
    rw [party_nameParty] at hq ⊢
    split at hq
    · rename_i hpq
      rw [if_pos hpq]
      exact h.unused p hq
    · rename_i hpq
      rw [if_neg hpq]
      exact h.unused q hq
  participant := h.participant
  log := h.log

/-- One more party is prepared. -/
theorem prepareParty (h : NewlyPrepared s) (p : PartyPtr S) (i : ParticipantPtr S) :
    NewlyPrepared (NimbleServer.prepareParty s p
      (preparedPool s.game.participants i (UInt8.ofNat i.val) p (nextStepId s - 1)) i) where
  named := h.named.replace p
    (fun q => party_prepareParty s p q _ i) fun _ => rfl
  unused := by
    intro q hq
    rw [party_prepareParty] at hq ⊢
    split at hq
    · cases hq
    · rename_i hpq
      rw [if_neg hpq]
      exact h.unused q hq
  participant := by
    intro j hj
    have hget : ∀ x, ((s.game.participants.set i x).get j)
        = if i = j then x else s.participant j := fun x => Participants.get_set _ i j x
    change ((s.game.participants.set i _).get j).isUsed = true at hj
    show ((s.game.participants.set i _).get j).localIndex = 0 ∧
      ∃ steps, ((s.game.participants.set i _).get j).steps
        = E.nbsStepsReInit steps (nextStepId s - 1)
    rw [hget] at hj ⊢
    split at hj
    · rename_i hij
      rw [if_pos hij]
      exact ⟨rfl, _, rfl⟩
    · rename_i hij
      rw [if_neg hij]
      exact h.participant j hj
  log := h.log

end NewlyPrepared

/-! ### The migrated server -/

/-- The server is in order, and the participants of the list wait in their parties. -/
structure Migrated (ids : List (ParticipantPtr S)) (s : Server E S) : Prop where
  back : BackReferences s
  prepared : NewlyPrepared s
  listed : ∀ i, (s.participant i).isUsed = true → i ∈ ids
  party : ∀ (p : PartyPtr S) i, ids[p.val]? = some i → (s.party p).isUsed = true ∧
    (s.party p).participantReferences = [i] ∧ (s.participant i).isUsed = true ∧
    (s.participant i).state = .waitingForRejoin

/-- On a new game exactly the listed participants are used. -/
theorem Prepared.isUsed_iff {start s : Server E S} {ids : List (ParticipantPtr S)}
    (h : Prepared start ids s) (hunused : ∀ i, (start.participant i).isUsed = false)
    (i : ParticipantPtr S) : (s.participant i).isUsed = true ↔ i ∈ ids := by
  refine ⟨fun hi => ?_, fun hi => (h.waiting i hi).1⟩
  refine Decidable.byContradiction fun hnot => ?_
  rw [h.others i hnot] at hi
  cases (hunused i).symm.trans hi

/-- The place of a participant in the list is the slot of its party. -/
theorem Prepared.exists_party {start s : Server E S} {ids : List (ParticipantPtr S)}
    (h : Prepared start ids s) {i : ParticipantPtr S} (hi : i ∈ ids) :
    ∃ p, PreparedFor s p i := by
  obtain ⟨k, hk, rfl⟩ := List.getElem_of_mem hi
  exact ⟨⟨k, Nat.lt_of_lt_of_le hk h.fits⟩, h.party _ _ (List.getElem?_eq_getElem hk)⟩

/-- A party in use is one of those that were prepared. -/
theorem Prepared.exists_participant {start s : Server E S} {ids : List (ParticipantPtr S)}
    (h : Prepared start ids s) {p : PartyPtr S} (hp : (s.party p).isUsed = true) :
    ∃ i ∈ ids, PreparedFor s p i := by
  have hlt : p.val < ids.length := by
    refine Nat.not_le.mp fun hle => ?_
    cases (h.unused p hle).symm.trans hp
  exact ⟨ids[p.val], List.getElem_mem hlt, h.party p _ (List.getElem?_eq_getElem hlt)⟩

/-- After the loop, and with the free list rebuilt, the server is migrated. -/
theorem Prepared.migrated {start s : Server E S} {ids : List (ParticipantPtr S)}
    (h : Prepared start ids s) (hunused : ∀ i, (start.participant i).isUsed = false)
    (hcovers : PoolCovers s.game.participants) (hnew : NewlyPrepared s)
    {freeList : CircularBuffer}
    (hlist : freeList.toList = (unlistedSlots S (partyInfos ids)).map slotOctet) :
    Migrated ids (s.setParticipants { s.game.participants with freeList }) := by
  have hused := h.isUsed_iff hunused
  -- The free list holds the ids that are not listed, and these are the participants that are not
  -- used.
  have hpool : PoolInvariant { s.game.participants with freeList } := by
    refine ⟨hcovers.capacity, ⟨_, hlist, (List.nodup_finRange _).filter _, fun i => ?_⟩,
      hcovers.count, hcovers.id⟩
    rw [mem_unlistedSlots hcovers.capacity ids i, ← hused i]
    exact Bool.eq_false_iff.symm
  have hreferences : References False
      (s.setParticipants { s.game.participants with freeList }) := by
    refine ⟨hpool, fun p hp => ?_⟩
    obtain ⟨i, hi, hfor⟩ := h.exists_participant hp
    -- The one participant of a prepared party waits, as the party does.
    have hmember : ∀ {P : ParticipantPtr S → Prop}, P i →
        ∀ j ∈ (s.party p).participantReferences, P j := by
      intro P hP j hj
      rw [hfor.participantReferences] at hj
      exact List.mem_singleton.mp hj ▸ hP
    have hwaiting : (s.participant i).state = .waitingForRejoin := (h.waiting i hi).2
    refine ⟨?_, hmember ⟨(h.waiting i hi).1, hfor.inParty, ?_, ?_⟩, ?_,
      fun _ => hmember hwaiting, False.elim⟩
    · show (s.party p).participantReferences ≠ []
      rw [hfor.participantReferences]
      exact List.cons_ne_nil i []
    · show (s.participant i).state ≠ .leaving
      rw [hwaiting]
      rintro ⟨⟩
    · show (s.participant i).state ≠ .destroyed
      rw [hwaiting]
      rintro ⟨⟩
    · show (s.party p).state ≠ .dissolved
      rw [hfor.state]
      rintro ⟨⟩
  refine ⟨⟨hreferences, fun p => ?_, hnew.unused, fun i hi => ?_, fun i hi _ => ?_⟩,
    ⟨hnew.named, hnew.unused, hnew.participant, hnew.log⟩,
    fun i hi => (hused i).mp hi, fun p i hi => ?_⟩
  · show (s.party p).participantReferences.Nodup
    -- A party has one participant or none.
    cases hp : (s.party p).isUsed with
    | false =>
      rw [hnew.unused p hp]
      exact List.nodup_nil
    | true =>
      obtain ⟨i, -, hfor⟩ := h.exists_participant hp
      rw [hfor.participantReferences]
      exact List.nodup_singleton i
  · obtain ⟨p, hfor⟩ := h.exists_party ((hused i).mp hi)
    show (s.participant i).inParty ≠ none
    rw [hfor.inParty]
    exact Option.some_ne_none p
  · obtain ⟨p, hfor⟩ := h.exists_party ((hused i).mp hi)
    refine ⟨p, hfor.isUsed, ?_⟩
    show i ∈ (s.party p).participantReferences
    rw [hfor.participantReferences]
    exact List.mem_singleton_self i
  · have hfor := h.party p i hi
    have hmem := List.mem_of_getElem? hi
    exact ⟨hfor.isUsed, hfor.participantReferences, h.waiting i hmem⟩

/-- The migration of a new game succeeds for different participants that fit, and leaves a
server that is in order. -/
theorem hostMigration_migrated {s : Server E S} (hstart : StartsGame s)
    {ids : List (ParticipantPtr S)} (hnodup : ids.Nodup)
    (hfits : ids.length ≤ S.maxConnectionCount) (uninitialized : Uninitialized S) :
    Ensures (nimbleServerHostMigration s (partyInfos ids) uninitialized)
      (fun r => r.1 = 0 ∧ Migrated ids r.2) (fun _ => False) := by
  have hcovers := hstart.poolInvariant.covers
  have hcapacity := hcovers.capacity
  have hunused := hstart.participant_unused
  have hloop := ((prepareParties_prepared hcapacity uninitialized (resetParties s) ids [] _
    (Prepared.nil (resetParties_unused s))).and
    (prepareParties_keeps hcapacity NewlyPrepared (fun _ p h => h.nameParty p)
      (fun _ p i h => h.prepareParty p i) uninitialized ids _
      hstart.newlyPrepared)).and
    (prepareParties_covers uninitialized (partyInfos ids) (resetParties s) hcovers)
  refine hostMigration_ensures hcapacity (hloop.mono (fun _ h => h) fun _ h => h.1.1) ?_ ?_
  · rintro r ⟨⟨hended, -⟩, -⟩ hneg
    rcases hended with ⟨hzero, -⟩ | ⟨-, done, i, rest, hids, hprepared, hrefused⟩
    · omega
    · exact absurd hrefused
        (hprepared.not_refused hunused (hcovers.count_eq_zero hunused) hnodup hfits hids)
  · rintro r freeList ⟨⟨hended, hnew⟩, hpool⟩ hpos hlist
    rcases hended with ⟨-, hprepared⟩ | ⟨hneg, -⟩
    · exact ⟨rfl, hprepared.migrated hunused hpool.covers hnew hlist⟩
    · omega

/-! ### Coming back to the new host -/

/-- Until its party goes out of use, a migrated participant waits, and every step that is
composed says so. -/
theorem Migrated.staysWaiting [LawfulSteps E] [LawfulStepTypes E] [LawfulOutStreams E]
    {migrated s : Server E S} {ids : List (ParticipantPtr S)} (h : Migrated ids migrated)
    {p : PartyPtr S} {i : ParticipantPtr S} (hi : ids[p.val]? = some i)
    (hrun : Reaches Server.step (fun s op => op.IsPlay ∧ FitsWhenComposed s op ∧
      (s.party p).isUsed = true) migrated s) :
    KeepsParty p migrated s ∧ StaysWaiting i migrated s := by
  obtain ⟨-, hrefs, hused, hwaiting⟩ := h.party p i hi
  -- What `Proofs/Rejoining.lean` shows for a party in use applies to a prepared one.
  have hkeeps : ∀ s, Reaches Server.step (fun s op => op.IsPlay ∧ FitsWhenComposed s op ∧
      (s.party p).isUsed = true) migrated s → KeepsParty p migrated s := fun s hs =>
    (KeepsParty.playRule p migrated).reachable (fun _ _ h => h.1)
      ⟨h.back, fun _ => rfl, fun _ => rfl, fun _ _ _ => rfl⟩ (hs.mono fun _ _ h => ⟨h.1, h.2.2⟩)
  -- A party in use references no participant that is leaving.
  have hstay : Reaches Server.step (fun s op => op.IsPlay ∧ FitsWhenComposed s op ∧
      (s.participant i).state ≠ .leaving) migrated s := by
    refine (hrun.restrict _ hkeeps).mono ?_
    rintro s op ⟨⟨hplay, hfits, hp⟩, hkept⟩
    have hmem : i ∈ (s.party p).participantReferences := by
      rw [hkept.references hp, hrefs]
      exact List.mem_singleton_self i
    exact ⟨hplay, hfits, ((hkept.back.references.parties p hp).member i hmem).2.2.1⟩
  exact ⟨hkeeps s hrun, (StaysWaiting.playRule i migrated).reachable (fun _ _ h => h.1)
    ⟨h.back.references.pool, hused, .inl hwaiting, [], (List.append_nil _).symm,
      List.forall_mem_nil _⟩ hstay⟩

/-- A game at step 7 with room for three players. -/
def gameAtStepSeven : Result (Server plainExternal (plainSetup 3)) := do
  nimbleServerReInitWithGame (← nimbleServerInit (zeroMemory (plainSetup 3))) 7

/-- Two participants of three, not in the order of their slots. -/
def twoOfThree : List (ParticipantPtr (plainSetup 3)) := [⟨2, by decide⟩, ⟨0, by decide⟩]

/-- The game takes over two participants, and then the operations are carried out. -/
theorem exists_migrated (allowed : Server plainExternal (plainSetup 3) → Op (plainSetup 3) → Prop)
    [∀ s op, Decidable (allowed s op)] (P : Server plainExternal (plainSetup 3) → Prop)
    [DecidablePred P] (ops : List (Op (plainSetup 3)))
    (h : gameAtStepSeven.toOption.any (fun start => decide (nextStepId start = 7) &&
      (nimbleServerHostMigration start (partyInfos twoOfThree) (zeroLocals _)).toOption.any
        fun r => (runChecked Server.step (fun s op => decide (allowed s op)) r.2 ops).any
          fun s => decide (P s)) = true) :
    ∃ start err migrated s, StartsGame start ∧ nextStepId start = 7 ∧
      nimbleServerHostMigration start (partyInfos twoOfThree) (zeroLocals _)
        = .ok (err, migrated) ∧ Reaches Server.step allowed migrated s ∧ P s := by
  obtain ⟨start, hstart, hcheck⟩ := exists_ok_of_any h
  rw [Bool.and_eq_true] at hcheck
  obtain ⟨⟨err, migrated⟩, hmigrate, hrest⟩ := exists_ok_of_any hcheck.2
  rw [Option.any_eq_true] at hrest
  obtain ⟨s, hs, hP⟩ := hrest
  obtain ⟨before, -, hinit⟩ := bind_eq_ok.mp hstart
  exact ⟨start, err, migrated, s, ⟨before, 7, hinit⟩, of_decide_eq_true hcheck.1, hmigrate,
    reaches_of_runChecked ops _ _ hs, of_decide_eq_true hP⟩

/-- The buffers of migrated participants are empty and start in the past, so the server is
ready to weave steps. The step before the first one does not exist: a game that is migrated
at step 0 has buffers that start at the last step of all. -/
theorem Migrated.weaving [LawfulSteps E] {s : Server E S} {ids : List (ParticipantPtr S)}
    (h : Migrated ids s) (hnext : nextStepId s ≠ 0) : Weaving s := by
  refine ⟨h.back.references.pool, fun i hi => ?_, ?_⟩
  · obtain ⟨-, steps, hsteps⟩ := h.prepared.participant i hi
    have hstored : E.storedPayloads (s.participant i).steps = [] := by
      rw [hsteps, LawfulSteps.reInit_stored]
    refine ⟨?_, fun stepId _ => ?_, ?_⟩
    · rw [hsteps, expectedReadId_reInit]
      -- Only here it matters that the game is not at step 0.
      have hpos : 0 < (nextStepId s).toNat :=
        Nat.pos_of_ne_zero fun hzero => hnext (UInt32.toNat_inj.mp hzero)
      have hone : (1 : UInt32) ≤ nextStepId s := UInt32.le_iff_toNat_le.mpr hpos
      rw [UInt32.le_iff_toNat_le, UInt32.toNat_sub_of_le _ _ hone]
      exact Nat.sub_le _ _
    · rw [h.prepared.log]
      unfold acceptedPayload bufferedPayload windowAt
      simp [hstored]
    · rw [hstored]
      exact List.forall_mem_nil _
  · rw [h.prepared.log]
    intro newer before stepId octets older heq
    exact absurd heq (by simp)

/-- The seats of a migrated game: who was listed is absent and has handed in nothing, and
nobody else sits. -/
theorem Migrated.seat [LawfulSteps E] {s : Server E S} {ids : List (ParticipantPtr S)}
    (h : Migrated ids s) :
    (∀ i, i ∉ ids → (gameOf s).seat i = none) ∧
    ∀ (p : PartyPtr S) i, ids[p.val]? = some i →
      (gameOf s).seat i = some { group := p, phase := .absent, pending := [] } := by
  refine ⟨fun i hi => ?_, fun p i hi => ?_⟩
  · exact seatOf_of_not_isUsed (Bool.eq_false_iff.mpr fun hused => hi (h.listed i hused)) _
  · obtain ⟨hp, hrefs, hused, hstate⟩ := h.party p i hi
    have hmem : i ∈ (s.party p).participantReferences := hrefs ▸ List.mem_singleton_self i
    have hparty := ((h.back.references.parties p hp).member i hmem).2.1
    obtain ⟨-, steps, hsteps⟩ := h.prepared.participant i hused
    refine seatOf_of_isUsed hused hparty (by rw [hstate]; rfl) ?_
    unfold pendingFrom
    rw [hsteps, LawfulSteps.reInit_stored, List.drop_nil]

/-- A game that is not at step 0 takes over different participants. On every later run whose
steps fit their buffers the new host plays the same game in lockstep as the old one did: it
starts at its next step with everybody who was listed absent in a group of their own and
nobody else at the table, and the steps it composes are the encoded reports of the rounds. -/
theorem migrated_game_plays_on [LawfulSteps E] [LawfulStepTypes E] [LawfulOutStreams E]
    {start migrated s : Server E S} (hstart : StartsGame start) (hnext : nextStepId start ≠ 0)
    {ids : List (ParticipantPtr S)} (hnodup : ids.Nodup) (hfits : ids.length ≤ S.maxConnectionCount)
    {uninitialized : Uninitialized S} {err : Int}
    (hmigrate : nimbleServerHostMigration start (partyInfos ids) uninitialized
      = .ok (err, migrated)) (hrun : Reaches Server.step
      (fun s op => op.IsPlay ∧ s.Enabled op ∧ FitsWhenComposed s op) migrated s) :
    (gameOf migrated).round = (nextStepId start).toNat ∧
    (∀ i, i ∉ ids → (gameOf migrated).seat i = none) ∧
    (∀ (p : PartyPtr S) i, ids[p.val]? = some i →
      (gameOf migrated).seat i = some { group := p, phase := .absent, pending := [] }) ∧
    ∃ rounds, Lockstep.Run 3 5 (gameOf migrated) rounds (gameOf s) ∧
      composedSteps s.game.participants.log = rounds.map (roundStep E) := by
  have hmigrated : Migrated ids migrated :=
    ((hostMigration_migrated hstart hnodup hfits uninitialized).of_ok hmigrate).2
  -- The migration does not write to the authoritative buffer.
  have hsame : nextStepId migrated = nextStepId start :=
    (nimbleServerHostMigration_ensures (fun s => nextStepId s = nextStepId start) rfl
      (fun _ _ h => h) (fun _ _ h _ => h) (fun _ _ _ _ h _ => h) (partyInfos ids)
      uninitialized).of_ok hmigrate
  have hplayed : PlayedFrom migrated migrated :=
    ⟨hmigrated.back, hmigrated.prepared.named, hmigrated.weaving (hsame ▸ hnext),
      .of_eq rfl rfl⟩
  have hreached : PlayedFrom migrated s :=
    (PlayedFrom.playRule migrated).reachable (fun _ _ h => h.1) hplayed hrun
  obtain ⟨rounds, hrounds, hsteps⟩ := hreached.plays
  refine ⟨congrArg UInt32.toNat hsame, hmigrated.seat.1, hmigrated.seat.2, rounds, hrounds, ?_⟩
  rw [hsteps, hmigrated.prepared.log]
  rfl

/-- A new client joins the migrated game and is five steps ahead, so that a round is due
although the others are absent. -/
theorem migrated_game_plays_on_newClient :
    ∃ migrated s : Server plainExternal (plainSetup 3), (gameOf migrated).round = 7 ∧
      ∃ rounds, Lockstep.Run 3 5 (gameOf migrated) rounds (gameOf s) ∧ rounds.length = 1 := by
  obtain ⟨start, err, migrated, s, hgame, hnext, hmigrate, hrun, hcomposed⟩ :=
    exists_migrated (fun s op => op.IsPlay ∧ s.Enabled op ∧ PlainFits s op)
      (fun s => (composedSteps s.game.participants.log).length = 1)
      [.receive 0, .join 0 onePlayer (zeroLocals _),
        .incomingSteps 0 (gameStep 7 (List.replicate 5 [8])) (zeroLocals _), .composeRound]
      (by decide +kernel)
  have hfits : Reaches Server.step
      (fun s op => op.IsPlay ∧ s.Enabled op ∧ FitsWhenComposed s op) migrated s :=
    hrun.mono fun _ _ h => ⟨h.1, h.2.1, h.2.2.fitsWhenComposed⟩
  have hnonzero : nextStepId start ≠ 0 := by
    rw [hnext]
    decide
  obtain ⟨hfirst, -, -, rounds, hplayed, hsteps⟩ :=
    migrated_game_plays_on hgame hnonzero (by decide) (by decide) hmigrate hfits
  rw [hnext] at hfirst
  rw [hsteps, List.length_map] at hcomposed
  exact ⟨migrated, s, hfirst, rounds, hplayed, hcomposed⟩

end NimbleServer
