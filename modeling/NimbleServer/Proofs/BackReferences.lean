import NimbleServer.Proofs.References

/-!
# `NimbleServer.Proofs.BackReferences`: every participant has its party

`References` looks from the parties to their participants. This module looks the other way.
Parties and participants are recycled at different times: a party slot becomes free at the
tick that dissolves it, its participants only when the next step is composed. In between the
slot can be taken again, and the participants still point at it.

`BackReferences` says what holds of the participants through this. A used participant
always points at a party, and as long as it is not leaving some party in use references it.
A party that is not in use references nobody. Two consequences:

* Composing never follows a null `inParty`.
* Steps of one participant are stored through one party at most.
-/

set_option autoImplicit false

namespace NimbleServer

open NimbleServer.Lib

variable {E : External} {S : Setup}

/-- The parties agree with their participants, and the participants with their parties. -/
structure BackReferences (s : Server E S) : Prop where
  references : References False s
  nodup : ∀ p, (s.party p).participantReferences.Nodup
  unused : ∀ p, (s.party p).isUsed = false → (s.party p).participantReferences = []
  inParty : ∀ i, (s.participant i).isUsed = true → (s.participant i).inParty ≠ none
  owner : ∀ i, (s.participant i).isUsed = true → (s.participant i).state ≠ .leaving →
    ∃ p, (s.party p).isUsed = true ∧ i ∈ (s.party p).participantReferences

namespace BackReferences

variable {s s' : Server E S}

/-- A party that references a participant is in use. -/
theorem isUsed (h : BackReferences s) {p : PartyPtr S} {i : ParticipantPtr S}
    (hi : i ∈ (s.party p).participantReferences) : (s.party p).isUsed = true := by
  refine Bool.not_eq_false _ |>.mp fun hunused => ?_
  rw [h.unused p hunused] at hi
  exact List.not_mem_nil hi

/-- No party appears or disappears and none changes its references. A participant can be
given back, and one that is leaving stays so. -/
theorem congr (h : BackReferences s) (hreferences : References False s')
    (hused : ∀ p, (s'.party p).isUsed = (s.party p).isUsed)
    (hrefs : ∀ p, (s'.party p).participantReferences = (s.party p).participantReferences)
    (hparticipant : ∀ i, (s'.participant i).isUsed = true → (s.participant i).isUsed = true ∧
      (s'.participant i).inParty = (s.participant i).inParty ∧
      ((s.participant i).state = .leaving → (s'.participant i).state = .leaving)) :
    BackReferences s' where
  references := hreferences
  nodup := fun p => hrefs p ▸ h.nodup p
  unused := fun p hp => (hrefs p).trans (h.unused p ((hused p).symm.trans hp))
  inParty := by
    intro i hi
    obtain ⟨hi, hin, -⟩ := hparticipant i hi
    rw [hin]
    exact h.inParty i hi
  owner := by
    intro i hi hstate
    obtain ⟨hi, -, hleaving⟩ := hparticipant i hi
    obtain ⟨p, hp, hmem⟩ := h.owner i hi fun hl => hstate (hleaving hl)
    exact ⟨p, (hused p).trans hp, hrefs p ▸ hmem⟩

/-- The participants are the same, and one party is replaced by one with the same flag and
references. -/
theorem replace (h : BackReferences s) (hreferences : References False s') (p : PartyPtr S)
    {x : LocalParty S} (hgame : s'.game = s.game)
    (hs' : ∀ q, s'.party q = if p = q then x else s.party q)
    (hused : x.isUsed = (s.party p).isUsed)
    (hrefs : x.participantReferences = (s.party p).participantReferences) :
    BackReferences s' := by
  refine h.congr hreferences (fun q => ?_) (fun q => ?_) fun i hi => ?_
  · rw [hs']
    split
    · rename_i hpq
      rw [← hpq, hused]
    · rfl
  · rw [hs']
    split
    · rename_i hpq
      rw [← hpq, hrefs]
    · rfl
  · have hsame : s'.participant i = s.participant i :=
      congrArg (fun game => game.participants.get i) hgame
    rw [hsame] at hi ⊢
    exact ⟨hi, rfl, fun h => h⟩

/-- One participant is replaced by one with the same standing. -/
theorem setParticipant (h : BackReferences s) (i : ParticipantPtr S) {x : Participant E S}
    (hid : x.id = (s.participant i).id) (hx : SameStanding (s.participant i) x) :
    BackReferences (s.setParticipant i x) := by
  refine h.congr (h.references.setParticipant i hid hx) (fun _ => rfl) (fun _ => rfl)
    fun j hj => ?_
  rw [Server.participant_setParticipant] at hj ⊢
  split at hj
  · rename_i hij
    rw [if_pos hij, ← hij]
    refine ⟨hx.isUsed.symm.trans hj, hx.inParty, fun hleaving => ?_⟩
    -- The only state that changes here is that of somebody who just joined.
    rcases hx.state with hstate | ⟨hjoined, -⟩
    · exact hstate.trans hleaving
    · cases hjoined.symm.trans hleaving
  · rename_i hij
    rw [if_neg hij]
    exact ⟨hj, rfl, fun h => h⟩

/-- A participant that left is not used any more. -/
theorem destroy (h : BackReferences s) {i : ParticipantPtr S}
    (hused : (s.participant i).isUsed = true) (hleaving : (s.participant i).state = .leaving) :
    Ensures (nimbleServerParticipantsDestroy s.game.participants (s.participant i).id)
      (fun participants => BackReferences (s.setParticipants participants))
      (fun _ => False) := by
  have hpool := h.references.pool
  refine ((h.references.destroy hused hleaving).and
    (hpool.counted.destroy hused (hpool.toNat_id hused))).mono ?_ fun _ hf => hf.1
  rintro _ ⟨hreferences, rfl, -⟩
  refine h.congr hreferences (fun _ => rfl) (fun _ => rfl) fun j hj => ?_
  -- Whoever is still used is another participant, and is as before.
  obtain ⟨hij, hother⟩ := isUsed_of_destroyedPool hj
  have hsame : (destroyedPool s.game.participants i).get j = s.participant j := by
    rw [get_destroyedPool, if_neg hij]
    rfl
  show (s.participant j).isUsed = true ∧
    ((destroyedPool s.game.participants i).get j).inParty = _ ∧
    (_ → ((destroyedPool s.game.participants i).get j).state = _)
  rw [hsame]
  exact ⟨hother, rfl, fun h => h⟩

/-- A new party takes a slot that referenced nobody, and its participant points at it. -/
theorem create (h : BackReferences s) {t : ConnectionPtr} {p : PartyPtr S}
    {players : List Nat} {stepId : StepId} {i : ParticipantPtr S}
    {participants : Participants E S} (hfree : (s.party p).isUsed = false)
    (hjoin : ParticipantsJoinOutcome s.game.participants players p stepId
      (.ok i, participants)) :
    BackReferences (assignParty
      (addParty ((nameParty s p).setParticipants participants) p (some t) [i]) t p) := by
  obtain ⟨-, x, -, hin, -, -, hget, -⟩ := hjoin.taken
  have hparty := fun q => party_created s t p q participants i
  have hparticipant : ∀ j, (assignParty (addParty ((nameParty s p).setParticipants participants)
      p (some t) [i]) t p).participant j = if i = j then x else s.participant j := hget
  refine ⟨h.references.create hjoin, ?_, ?_, ?_, ?_⟩
  · intro q
    rw [hparty q]
    split
    · exact List.nodup_singleton i
    · exact h.nodup q
  · intro q hq
    rw [hparty q] at hq ⊢
    split at hq
    · cases hq
    · rename_i hpq
      rw [if_neg hpq]
      exact h.unused q hq
  · intro j hj
    rw [hparticipant j] at hj ⊢
    split at hj
    · rename_i hij
      rw [if_pos hij, hin]
      rintro ⟨⟩
    · rename_i hij
      rw [if_neg hij]
      exact h.inParty j hj
  · -- The new participant is owned by the new party, the others by their old one.
    intro j hj hstate
    rw [hparticipant j] at hj hstate
    split at hj
    · rename_i hij
      refine ⟨p, ?_, ?_⟩
      · rw [hparty p, if_pos rfl]
        rfl
      · rw [hparty p, if_pos rfl, ← hij]
        exact List.mem_singleton_self i
    · rename_i hij
      rw [if_neg hij] at hstate
      obtain ⟨q, hq, hmem⟩ := h.owner j hj hstate
      -- The slot that is taken was not in use, so it is not the owner.
      have hpq : p ≠ q := by
        rintro rfl
        cases hfree.symm.trans hq
      refine ⟨q, ?_, ?_⟩
      · rw [hparty q, if_neg hpq]
        exact hq
      · rw [hparty q, if_neg hpq]
        exact hmem

/-- A dissolved party forgets its participants, and they are leaving. -/
theorem dissolve (h : BackReferences s) {p : PartyPtr S} (hused : (s.party p).isUsed = true)
    (hpool : PoolInvariant (dissolveParty (advanceTimer s p) p).game.participants) :
    BackReferences (dissolveParty (advanceTimer s p) p) := by
  have hparty := party_dissolved s p
  have hparticipant := participant_dissolved s p
  refine ⟨h.references.dissolve hused hpool, ?_, ?_, ?_, ?_⟩
  · intro q
    rw [hparty q]
    split
    · exact List.nodup_nil
    · exact h.nodup q
  · intro q hq
    rw [hparty q] at hq ⊢
    split at hq
    · rename_i hpq
      rw [if_pos hpq]
      rfl
    · rename_i hpq
      rw [if_neg hpq]
      exact h.unused q hq
  · intro i hi
    rw [hparticipant i] at hi ⊢
    split at hi
    · rename_i hmem
      rw [if_pos hmem]
      exact h.inParty i hi
    · rename_i hmem
      rw [if_neg hmem]
      exact h.inParty i hi
  · intro i hi hstate
    rw [hparticipant i] at hi hstate
    by_cases hmem : i ∈ (s.party p).participantReferences
    · -- The participants of the dissolved party have no owner any more, and are leaving.
      rw [if_pos hmem] at hstate
      exact absurd rfl hstate
    · rw [if_neg hmem] at hi hstate
      obtain ⟨q, hq, hmemq⟩ := h.owner i hi hstate
      have hpq : p ≠ q := by
        rintro rfl
        exact hmem hmemq
      refine ⟨q, ?_, ?_⟩
      · rw [hparty q, if_neg hpq]
        exact hq
      · rw [hparty q, if_neg hpq]
        exact hmemq

/-- The participants of a party that lost its client were not leaving, so none of those that
are leaving is set to waiting. -/
theorem lose (h : BackReferences s) {p : PartyPtr S} (hused : (s.party p).isUsed = true)
    (impedingDisconnectCounter : Nat)
    (hreferences : References False (setToWaitingForReJoin
      (s.setParty p { s.party p with impedingDisconnectCounter }) p)) :
    BackReferences (setToWaitingForReJoin
      (s.setParty p { s.party p with impedingDisconnectCounter }) p) := by
  have hparty := fun q => party_lost s p q impedingDisconnectCounter
  refine h.congr hreferences (fun q => ?_) (fun q => ?_) fun i hi => ?_
  · rw [hparty q]
    split
    · rename_i hpq
      rw [← hpq]
    · rfl
  · rw [hparty q]
    split
    · rename_i hpq
      rw [← hpq]
    · rfl
  · rw [participant_lost s p impedingDisconnectCounter i] at hi ⊢
    split at hi
    · rename_i hmem
      rw [if_pos hmem]
      exact ⟨hi, rfl, fun hleaving => absurd hleaving
        ((h.references.parties p hused).member i hmem).2.2.1⟩
    · rename_i hmem
      rw [if_neg hmem]
      exact ⟨hi, rfl, fun h => h⟩

end BackReferences

/-! ### Every operation keeps the back references -/

/-- Storing steps keeps the back references. -/
theorem backReferences_storeKeeps : StoreKeeps (BackReferences (E := E) (S := S)) where
  steps := fun _ i _ h => h.setParticipant i rfl ⟨rfl, rfl, .inl rfl⟩
  counters := fun s p quality highest count h =>
    h.replace ((references_playKeeps False).counters s p quality highest count h.references) p rfl
      (fun q => Server.party_setParty s p q _) rfl rfl
  log := fun s event h => h.congr ((references_playKeeps False).log s event h.references)
    (fun _ => rfl) (fun _ => rfl) fun _ hi => ⟨hi, rfl, fun h => h⟩
  authoritativeSteps := fun s steps h =>
    h.congr ((references_playKeeps False).authoritativeSteps s steps h.references)
      (fun _ => rfl) (fun _ => rfl) fun _ hi => ⟨hi, rfl, fun h => h⟩

/-- Composing keeps the back references, and it does not stop at a null party. -/
theorem backReferences_composeRule :
    ComposeRule (BackReferences (E := E) (S := S)) (fun f => f ≠ .nullParty) :=
  backReferences_storeKeeps.composeRule
    (fun _ i h _ hstate => h.setParticipant i rfl ⟨rfl, rfl, .inr ⟨hstate, rfl⟩⟩)
    (fun _ _ h hused hleaving =>
      (h.destroy hused hleaving).mono (fun _ h => h) fun _ hf => hf.elim)
    (fun _ i h hused hnull => absurd hnull (h.inParty i hused)) (by rintro ⟨⟩)

/-- Requests and ticks keep them. -/
theorem backReferences_requestRule :
    RequestRule (fun _ _ => True) (BackReferences (E := E) (S := S)) (fun _ => True) where
  same := by
    intro s s' h hgame hparties
    have hparty : ∀ p, s'.party p = s.party p := fun p =>
      congrArg (LocalParties.get · p) hparties
    refine h.congr ((references_playKeeps False).same s s' h.references hgame hparties)
      (fun p => by rw [hparty p]) (fun p => by rw [hparty p]) fun i hi => ?_
    have hsame : s'.participant i = s.participant i :=
      congrArg (fun game => game.participants.get i) hgame
    rw [hsame] at hi ⊢
    exact ⟨hi, rfl, fun h => h⟩
  join := by
    intro s t request uninitialized r h _ hr
    have hreferences := (references_playKeeps False).join s t request uninitialized r h.references
      False.elim hr
    cases hr with
    | noPlace code hplace => exact h
    | sessionFull code p hplace =>
      exact h.replace hreferences p rfl (party_nameParty s p) rfl rfl
    | found p hcount hmatch => exact h.replace hreferences p rfl (party_assignParty s t p) rfl rfl
    | unassigned p q htype hfind hnamed hcount hpointer =>
      exact h.replace hreferences p rfl (party_assignParty s t p) rfl rfl
    | rejoined p htype hfind hnamed hcount =>
      exact h.replace hreferences p rfl (party_rejoined s t p) rfl rfl
    | created p i participants htype hfind hplace hjoin =>
      exact h.create (firstFreeParty_isUsed hplace) hjoin
  joinFault := fun _ _ _ _ => trivial
  tick := by
    intro s p s' h hs'
    have hreferences := (references_playKeeps False).tick s p s' h.references hs'
    have hpool := (pool_playKeeps fun _ _ => True).tick s p s' h.references.pool hs'
    cases hs' with
    | unused hused => exact h
    | kept counter hused hstate hcounter =>
      exact h.replace hreferences p rfl (fun q => Server.party_setParty s p q _) rfl rfl
    -- The two cases that assign states to participants have their own lemmas.
    | lost counter hused hstate hfailing => exact h.lose hused counter hreferences
    | waited hused hstate => exact h.replace hreferences p rfl (party_advanceTimer s p) rfl rfl
    | stale hused hstate => exact h
    | dissolved hused hstate hcount hconnection => exact h.dissolve hused hpool
    | disconnected t hused hstate hcount hconnection hfull =>
      -- Giving the connection back comes on top of dissolving, and touches no party.
      exact (h.dissolve hused hpool).congr hreferences (fun _ => rfl) (fun _ => rfl)
        fun _ hi => ⟨hi, rfl, fun h => h⟩
  tickFault := fun _ _ _ _ _ => trivial
  connectionFault := fun _ _ => trivial

/-- In a new game nobody references and nobody is referenced. -/
theorem StartsGame.backReferences {s : Server E S} (h : StartsGame s) : BackReferences s := by
  have hreferences := h.references False
  have hrefs := fun p => (h.parties_reset p).2
  obtain ⟨before, stepId, hinit⟩ := h
  obtain ⟨-, hinit, -⟩ := (nimbleServerReInitWithGame_ensures before stepId).of_ok hinit
  have hunused : ∀ i, (s.participant i).isUsed = false := by
    intro i
    rw [hinit i]
    rfl
  refine ⟨hreferences, fun p => ?_, fun p _ => hrefs p, ?_, ?_⟩
  · rw [hrefs p]
    exact List.nodup_nil
  · intro i hi
    cases (hunused i).symm.trans hi
  · intro i hi
    cases (hunused i).symm.trans hi

/-- In every state of a running game the parties and the participants agree. -/
theorem backReferences_reachable {start s : Server E S} (hstart : StartsGame start)
    (hrun : Reaches Server.step (fun _ op => op.IsPlay) start s) : BackReferences s := by
  have hplay := backReferences_requestRule.playRule backReferences_storeKeeps
    (backReferences_composeRule (E := E) (S := S) |>.mono fun _ _ => trivial)
  exact hrun.invariant BackReferences hstart.backReferences fun s op hs hop =>
    hplay.step hs trivial hop

/-! ### The result -/

/-- In every state of a running game: the participants that a party in use references are
used, point back at it, and are neither leaving nor destroyed. A used participant that is
not leaving is referenced by exactly one party in use, exactly once. A used participant
points at a party. Hence composing does not stop at a null party, and no participant is
referenced by two parties, in use or not. -/
theorem references_agree_with_backReferences {start s : Server E S} (hstart : StartsGame start)
    (hrun : Reaches Server.step (fun _ op => op.IsPlay) start s) :
    (∀ p, (s.party p).isUsed = true → ∀ i ∈ (s.party p).participantReferences,
      (s.participant i).isUsed = true ∧ (s.participant i).inParty = some p ∧
      (s.participant i).state ≠ .leaving ∧ (s.participant i).state ≠ .destroyed) ∧
    (∀ i, (s.participant i).isUsed = true → (s.participant i).state ≠ .leaving →
      ∃ p, (s.party p).isUsed = true ∧ (s.party p).participantReferences.count i = 1 ∧
        ∀ q, (s.party q).isUsed = true → i ∈ (s.party q).participantReferences → q = p) ∧
    (∀ i, (s.participant i).isUsed = true → (s.participant i).inParty ≠ none) ∧
    (nimbleServerComposeAuthoritativeSteps s ≠ .error .nullParty) ∧
    (∀ p q i, i ∈ (s.party p).participantReferences →
      i ∈ (s.party q).participantReferences → p = q) := by
  have h : BackReferences s := backReferences_reachable hstart hrun
  refine ⟨fun p hp => (h.references.parties p hp).member, ?_, h.inParty, ?_, ?_⟩
  · intro i hi hstate
    obtain ⟨p, hp, hmem⟩ := h.owner i hi hstate
    refine ⟨p, hp, List.count_eq_one_of_mem (h.nodup p) hmem, ?_⟩
    intro q hq hmemq
    exact h.references.disjoint hq hp hmemq hmem
  · intro hnull
    exact (backReferences_composeRule.composeRounds (by rintro ⟨⟩) _ 0 s h).of_error hnull rfl
  · intro p q i hp hq
    exact h.references.disjoint (h.isUsed hp) (h.isUsed hq) hp hq

/-- The first client was lost and its party was dissolved. Its participant is leaving and
still points at a party, and the participant of the second client has one party. -/
theorem references_agree_with_backReferences_dissolved :
    ∃ start s : Server plainExternal (plainSetup 2), StartsGame start ∧
      Reaches Server.step (fun _ op => op.IsPlay) start s ∧
      (s.party ⟨0, by decide⟩).isUsed = false ∧
      (s.participant ⟨0, by decide⟩).state = .leaving ∧
      (s.participant ⟨0, by decide⟩).inParty ≠ none ∧
      ∃ p, (s.party p).participantReferences.count ⟨1, by decide⟩ = 1 := by
  obtain ⟨start, s, hstart, hrun, hparty, hused, hleaving, hused', hstate⟩ :=
    exists_run Server.step (fun _ op => op.IsPlay)
      (fun s : Server plainExternal (plainSetup 2) =>
        (s.party ⟨0, by decide⟩).isUsed = false ∧
        (s.participant ⟨0, by decide⟩).isUsed = true ∧
        (s.participant ⟨0, by decide⟩).state = .leaving ∧
        (s.participant ⟨1, by decide⟩).isUsed = true ∧
        (s.participant ⟨1, by decide⟩).state ≠ .leaving)
      (plainGame 2) (firstClientLost 182)
      (by decide +kernel)
  have hgame := startsGame_of_blankGame hstart
  obtain ⟨-, howner, hin, -, -⟩ := references_agree_with_backReferences hgame hrun
  obtain ⟨p, -, hcount, -⟩ := howner ⟨1, by decide⟩ hused' hstate
  exact ⟨start, s, hgame, hrun, hparty, hleaving, hin ⟨0, by decide⟩ hused, p, hcount⟩

end NimbleServer
