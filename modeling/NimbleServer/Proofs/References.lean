import NimbleServer.Model.PlainServer
import NimbleServer.Proofs.Pool

/-!
# `NimbleServer.Proofs.References`: the participants of a party

A party references its participants, and a participant points back to its party. Both have
a state. The quality tick sets the party and its participants to waiting; a dissolved party
marks its participants as leaving and forgets them; composing destroys participants that
are leaving. `References` says what holds between the two through all of this: a party in
use has participants, they are used, point back to it and are not leaving, and those of a
waiting party are waiting.

A rejoin sets the state of the party to normal and leaves its participants waiting
(`rejoin_leaves_participants_waiting`). So that the participants of a normal party are not
waiting holds only on runs without such a rejoin. The parameter `strict` of `References`
says whether the run is one of these.
-/

set_option autoImplicit false

namespace NimbleServer

open NimbleServer.Lib

variable {E : External} {S : Setup}

/-! ### A party and its participants -/

/-- The two participants differ at most in their steps, and in that one that just joined can
have become normal. -/
structure SameStanding (x x' : Participant E S) : Prop where
  isUsed : x'.isUsed = x.isUsed
  inParty : x'.inParty = x.inParty
  state : x'.state = x.state ∨ x.state = .justJoined ∧ x'.state = .normal

/-- Nothing changed about the participant. -/
theorem SameStanding.refl (x : Participant E S) : SameStanding x x :=
  ⟨rfl, rfl, .inl rfl⟩

/-- The party `x` in slot `p` and its participants agree. -/
structure WellReferenced (strict : Prop) (s : Server E S) (p : PartyPtr S) (x : LocalParty S) :
    Prop where
  nonempty : x.participantReferences ≠ []
  member : ∀ i ∈ x.participantReferences, (s.participant i).isUsed = true ∧
    (s.participant i).inParty = some p ∧ (s.participant i).state ≠ .leaving ∧
    (s.participant i).state ≠ .destroyed
  present : x.state ≠ .dissolved
  waiting : x.state = .waitingForReJoin → ∀ i ∈ x.participantReferences,
    (s.participant i).state = .waitingForRejoin
  normal : strict → x.state = .normal → ∀ i ∈ x.participantReferences,
    (s.participant i).state ≠ .waitingForRejoin

/-- The pool is in order, and every party in use agrees with its participants. -/
structure References (strict : Prop) (s : Server E S) : Prop where
  pool : PoolInvariant s.game.participants
  parties : ∀ p, (s.party p).isUsed = true → WellReferenced strict s p (s.party p)

/-- No request takes over a party in use that waits for its client. -/
@[reducible] def RejoinsNotWaiting (s : Server E S) : Op S → Prop
  | .join _ request _ => request.joinGameType = .partySecret →
      ∀ p : PartyPtr S, p.val = request.partyId.toNat →
        (s.party p).participantReferences.length = request.playerCount →
        (s.party p).isUsed = true → (s.party p).state ≠ .waitingForReJoin
  | _ => True

/-- The condition can be evaluated for each operation. -/
instance (s : Server E S) (op : Op S) : Decidable (RejoinsNotWaiting s op) :=
  Op.decidableOf (RejoinsNotWaiting s) op

namespace WellReferenced

variable {strict : Prop} {s s' : Server E S} {p : PartyPtr S} {x x' : LocalParty S}

/-- The party keeps its references and its state, and its participants their standing. -/
theorem congr (h : WellReferenced strict s p x)
    (hrefs : x'.participantReferences = x.participantReferences) (hstate : x'.state = x.state)
    (hparticipant : ∀ i ∈ x.participantReferences,
      SameStanding (s.participant i) (s'.participant i)) : WellReferenced strict s' p x' where
  nonempty := hrefs ▸ h.nonempty
  member := by
    rw [hrefs]
    intro i hi
    obtain ⟨hused, hin, hleaving, hdestroyed⟩ := h.member i hi
    have hsame := hparticipant i hi
    refine ⟨hsame.isUsed.trans hused, hsame.inParty.trans hin, ?_⟩
    -- The state is the same, or the participant has become normal.
    rcases hsame.state with hs | ⟨-, hs⟩
    · rw [hs]
      exact ⟨hleaving, hdestroyed⟩
    · rw [hs]
      exact ⟨by decide, by decide⟩
  present := hstate ▸ h.present
  waiting := by
    rw [hrefs, hstate]
    intro hwaiting i hi
    have hold := h.waiting hwaiting i hi
    rcases (hparticipant i hi).state with hs | ⟨hjoined, -⟩
    · exact hs.trans hold
    · -- A waiting participant did not just join.
      cases hjoined.symm.trans hold
  normal := by
    rw [hrefs, hstate]
    intro hstrict hnormal i hi
    rcases (hparticipant i hi).state with hs | ⟨-, hs⟩
    · rw [hs]
      exact h.normal hstrict hnormal i hi
    · rw [hs]
      rintro ⟨⟩

end WellReferenced

namespace References

variable {strict : Prop} {s s' : Server E S}

/-- Two parties in use have different participants. -/
theorem disjoint (h : References strict s) {p q : PartyPtr S} {i : ParticipantPtr S}
    (hp : (s.party p).isUsed = true) (hq : (s.party q).isUsed = true)
    (hip : i ∈ (s.party p).participantReferences)
    (hiq : i ∈ (s.party q).participantReferences) : p = q := by
  have hinp := ((h.parties p hp).member i hip).2.1
  have hinq := ((h.parties q hq).member i hiq).2.1
  exact Option.some.inj (hinp.symm.trans hinq)

/-- Nothing changes about parties in use, and participants they reference keep their
standing. -/
theorem congr (h : References strict s) (hpool : PoolInvariant s'.game.participants)
    (hparty : ∀ p, (s'.party p).isUsed = true → (s.party p).isUsed = true ∧
      (s'.party p).participantReferences = (s.party p).participantReferences ∧
      (s'.party p).state = (s.party p).state)
    (hparticipant : ∀ p i, (s'.party p).isUsed = true →
      i ∈ (s.party p).participantReferences →
      SameStanding (s.participant i) (s'.participant i)) : References strict s' := by
  refine ⟨hpool, fun p hp => ?_⟩
  obtain ⟨hused, hrefs, hstate⟩ := hparty p hp
  exact (h.parties p hused).congr hrefs hstate fun i hi => hparticipant p i hp hi

/-- One party is replaced. The participants of the others keep their standing. -/
theorem update (h : References strict s) (hpool : PoolInvariant s'.game.participants)
    (p : PartyPtr S) {x : LocalParty S}
    (hs' : ∀ q, s'.party q = if p = q then x else s.party q)
    (hx : x.isUsed = true → WellReferenced strict s' p x)
    (hparticipant : ∀ q i, p ≠ q → (s.party q).isUsed = true →
      i ∈ (s.party q).participantReferences →
      SameStanding (s.participant i) (s'.participant i)) : References strict s' := by
  refine ⟨hpool, fun q hq => ?_⟩
  rw [hs'] at hq ⊢
  split at hq
  · rename_i hpq
    rw [if_pos hpq, ← hpq]
    exact hx hq
  · rename_i hpq
    rw [if_neg hpq]
    exact (h.parties q hq).congr rfl rfl fun i hi => hparticipant q i hpq hq hi

/-- One party is replaced by one with the same references and state. -/
theorem replace (h : References strict s) (p : PartyPtr S) {x : LocalParty S}
    (hgame : s'.game = s.game) (hs' : ∀ q, s'.party q = if p = q then x else s.party q)
    (hused : x.isUsed = (s.party p).isUsed)
    (hrefs : x.participantReferences = (s.party p).participantReferences)
    (hstate : x.state = (s.party p).state) : References strict s' := by
  have hsame : ∀ i, SameStanding (s.participant i) (s'.participant i) := by
    intro i
    unfold Server.participant
    rw [hgame]
    exact SameStanding.refl _
  refine h.update (by rw [hgame]; exact h.pool) p hs' ?_ fun _ i _ _ _ => hsame i
  intro hx
  exact (h.parties p (hused.symm.trans hx)).congr hrefs hstate fun i _ => hsame i

/-- One participant is replaced by one with the same standing. -/
theorem setParticipant (h : References strict s) (i : ParticipantPtr S) {x : Participant E S}
    (hid : x.id = (s.participant i).id) (hx : SameStanding (s.participant i) x) :
    References strict (s.setParticipant i x) := by
  refine h.congr (h.pool.set i hx.isUsed hid) (fun p hp => ⟨hp, rfl, rfl⟩) fun _ j _ _ => ?_
  rw [Server.participant_setParticipant]
  split
  · rename_i hij
    exact hij ▸ hx
  · exact SameStanding.refl _

/-- A participant that is leaving belongs to no party in use, so it can be destroyed. -/
theorem destroy (h : References strict s) {i : ParticipantPtr S}
    (hused : (s.participant i).isUsed = true) (hleaving : (s.participant i).state = .leaving) :
    Ensures (nimbleServerParticipantsDestroy s.game.participants (s.participant i).id)
      (fun participants => References strict (s.setParticipants participants))
      (fun _ => False) := by
  refine ((h.pool.destroy hused).and
    (h.pool.counted.destroy hused (h.pool.toNat_id hused))).mono ?_ (fun _ hf => hf.1)
  rintro _ ⟨hpool, rfl, -⟩
  refine h.congr hpool (fun p hp => ⟨hp, rfl, rfl⟩) fun p j hp hj => ?_
  have hij : i ≠ j := by
    rintro rfl
    exact ((h.parties p hp).member i hj).2.2.1 hleaving
  show SameStanding (s.participant j) ((destroyedPool s.game.participants i).get j)
  rw [get_destroyedPool, if_neg hij]
  exact SameStanding.refl _

/-- A request that takes over a party sets its state to normal, and changes nothing else that
matters here. -/
theorem rejoin (h : References strict s) {t : ConnectionPtr} {p : PartyPtr S}
    (hwaiting : strict → (s.party p).isUsed = true → (s.party p).state ≠ .waitingForReJoin) :
    References strict
      (assignParty (s.setParty p (nimbleServerLocalPartyRejoin (s.party p) t)) t p) := by
  refine h.update h.pool p (party_rejoined s t p) ?_ fun _ i _ _ _ => SameStanding.refl _
  intro hused
  have hold := h.parties p hused
  refine ⟨hold.nonempty, hold.member, by rintro ⟨⟩, by rintro ⟨⟩, ?_⟩
  intro hstrict _
  -- The party was normal before: it is in use, and it was not waiting.
  cases hstate : (s.party p).state with
  | normal => exact hold.normal hstrict hstate
  | waitingForReJoin => exact absurd hstate (hwaiting hstrict hused)
  | dissolved => exact absurd hstate hold.present

/-- A new party has one participant, which just joined. -/
theorem create (h : References strict s) {t : ConnectionPtr} {p : PartyPtr S}
    {players : List Nat} {stepId : StepId} {i : ParticipantPtr S}
    {participants : Participants E S}
    (hjoin : ParticipantsJoinOutcome s.game.participants players p stepId
      (.ok i, participants)) :
    References strict (assignParty
      (addParty ((nameParty s p).setParticipants participants) p (some t) [i]) t p) := by
  obtain ⟨hfree, x, hused, hin, hstate, -, hget, -⟩ := hjoin.taken
  refine h.update (h.pool.join hjoin) p (fun q => party_created s t p q participants i) ?_ ?_
  · intro _
    have hnew : participants.get i = x := by rw [hget, if_pos rfl]
    have hparticipant : ∀ j ∈ (createdParty (s.party p) p t i).participantReferences,
        (assignParty (addParty ((nameParty s p).setParticipants participants) p (some t) [i]) t
          p).participant j = x := by
      intro j hj
      rw [List.mem_singleton.mp hj]
      exact hnew
    refine ⟨List.cons_ne_nil i [], ?_, by rintro ⟨⟩, by rintro ⟨⟩, ?_⟩
    · intro j hj
      rw [hparticipant j hj, hstate]
      exact ⟨hused, hin, by decide, by decide⟩
    · intro _ _ j hj
      rw [hparticipant j hj, hstate]
      rintro ⟨⟩
  · intro q j _ hq hj
    -- The new participant was not used, so it is in no other party.
    have hij : i ≠ j := by
      rintro rfl
      cases hfree.symm.trans ((h.parties q hq).member i hj).1
    show SameStanding (s.participant j) (participants.get j)
    rw [hget, if_neg hij]
    exact SameStanding.refl _

/-- A party that lost its client waits, and so do its participants. -/
theorem lose (h : References strict s) {p : PartyPtr S} (hused : (s.party p).isUsed = true)
    (impedingDisconnectCounter : Nat)
    (hpool : PoolInvariant (setToWaitingForReJoin
      (s.setParty p { s.party p with impedingDisconnectCounter }) p).game.participants) :
    References strict (setToWaitingForReJoin
      (s.setParty p { s.party p with impedingDisconnectCounter }) p) := by
  have hparticipant := participant_lost s p impedingDisconnectCounter
  have hold := h.parties p hused
  refine h.update hpool p (fun q => party_lost s p q impedingDisconnectCounter) ?_ ?_
  · intro _
    refine ⟨hold.nonempty, ?_, by rintro ⟨⟩, ?_, by rintro _ ⟨⟩⟩
    · intro i hi
      rw [hparticipant i, if_pos hi]
      exact ⟨(hold.member i hi).1, (hold.member i hi).2.1, by rintro ⟨⟩, by rintro ⟨⟩⟩
    · intro _ i hi
      rw [hparticipant i, if_pos hi]
  · -- The participants of other parties are other participants.
    intro q i hpq hq hi
    have hnot : i ∉ (s.party p).participantReferences :=
      fun hip => hpq (h.disjoint hused hq hip hi)
    rw [hparticipant i, if_neg hnot]
    exact SameStanding.refl _

/-- A dissolved party is not in use, and its participants are in no other party. -/
theorem dissolve (h : References strict s) {p : PartyPtr S} (hused : (s.party p).isUsed = true)
    (hpool : PoolInvariant (dissolveParty (advanceTimer s p) p).game.participants) :
    References strict (dissolveParty (advanceTimer s p) p) := by
  refine h.update hpool p (party_dissolved s p) (fun hx => by cases hx) ?_
  intro q i hpq hq hi
  have hnot : i ∉ (s.party p).participantReferences :=
    fun hip => hpq (h.disjoint hused hq hip hi)
  rw [participant_dissolved, if_neg hnot]
  exact SameStanding.refl _

end References

/-- The agreement survives every operation of a running game. -/
theorem references_playKeeps (strict : Prop) :
    PlayKeeps (fun (s : Server E S) op => strict → RejoinsNotWaiting s op) (References strict)
      (fun _ => True) where
  steps := fun s i steps h => h.setParticipant i rfl ⟨rfl, rfl, .inl rfl⟩
  counters := fun s p quality highest count h =>
    h.replace p rfl (fun q => Server.party_setParty s p q _) rfl rfl rfl
  log := fun s event h => h.congr (h.pool.congr (fun _ => rfl) (fun _ => rfl) rfl rfl)
    (fun p hp => ⟨hp, rfl, rfl⟩) fun _ _ _ _ => SameStanding.refl _
  authoritativeSteps := fun s steps h => h.congr h.pool (fun p hp => ⟨hp, rfl, rfl⟩)
    fun _ _ _ _ => SameStanding.refl _
  joined := fun s i h _ hstate => h.setParticipant i rfl ⟨rfl, rfl, .inr ⟨hstate, rfl⟩⟩
  left := fun s i h hused hleaving => (h.destroy hused hleaving).mono (fun _ h => h)
    (fun _ _ => trivial)
  nullParty := trivial
  stepsCorrupt := trivial
  same := by
    intro s s' h hgame hparties
    refine h.congr (by rw [hgame]; exact h.pool) (fun p hp => ?_) fun _ i _ _ => ?_
    · have hparty : s'.party p = s.party p := congrArg (LocalParties.get · p) hparties
      rw [hparty] at hp ⊢
      exact ⟨hp, rfl, rfl⟩
    · have hparticipant : s'.participant i = s.participant i :=
        congrArg (fun game => game.participants.get i) hgame
      rw [hparticipant]
      exact SameStanding.refl _
  join := by
    intro s t request uninitialized r h hallowed hr
    have hassign : ∀ p, References strict (assignParty s t p) := fun p =>
      h.replace p rfl (party_assignParty s t p) rfl rfl rfl
    cases hr with
    | noPlace code hplace => exact h
    | sessionFull code p hplace => exact h.replace p rfl (party_nameParty s p) rfl rfl rfl
    | found p hcount hmatch => exact hassign p
    | unassigned p q htype hfind hnamed hcount hpointer => exact hassign p
    | rejoined p htype hfind hnamed hcount =>
      -- This is the only case in which the kind of run matters.
      exact h.rejoin fun hstrict hused => hallowed hstrict htype p hnamed hcount hused
    | created p i participants htype hfind hplace hjoin => exact h.create hjoin
  joinFault := fun _ _ _ _ => trivial
  tick := by
    intro s p s' h hs'
    have hpool := (pool_playKeeps fun _ _ => True).tick s p s' h.pool hs'
    cases hs' with
    | unused hused => exact h
    | kept counter hused hstate hcounter =>
      exact h.replace p rfl (fun q => Server.party_setParty s p q _) rfl rfl rfl
    | lost counter hused hstate hfailing => exact h.lose hused counter hpool
    | waited hused hstate => exact h.replace p rfl (party_advanceTimer s p) rfl rfl rfl
    | stale hused hstate => exact h
    | dissolved hused hstate hcount hconnection => exact h.dissolve hused hpool
    | disconnected t hused hstate hcount hconnection hfull =>
      exact (h.dissolve hused hpool).congr hpool (fun q hq => ⟨hq, rfl, rfl⟩)
        fun _ _ _ _ => SameStanding.refl _
  tickFault := fun _ _ _ _ _ => trivial
  connectionFault := fun _ _ => trivial

/-- A new game has no party in use. -/
theorem StartsGame.references {s : Server E S} (h : StartsGame s) (strict : Prop) :
    References strict s := by
  have hreset := h.parties_reset
  obtain ⟨before, stepId, hinit⟩ := h
  have hpool := ((nimbleServerReInitWithGame_ensures before stepId).of_ok hinit).1
  refine ⟨hpool, fun p hp => ?_⟩
  cases (hreset p).1.symm.trans hp

/-- In every state of a running game the parties agree with their participants. -/
theorem references_reachable (strict : Prop) {start s : Server E S} (hstart : StartsGame start)
    {allowed : Server E S → Op S → Prop} (hplay : ∀ s op, allowed s op → op.IsPlay)
    (hallowed : ∀ s op, allowed s op → strict → RejoinsNotWaiting s op)
    (hrun : Reaches Server.step allowed start s) : References strict s :=
  hrun.invariant (References strict) (hstart.references strict) fun s op hs hop =>
    (references_playKeeps strict).playRule.step hs (hallowed s op hop) (hplay s op hop)

/-! ### The states agree -/

/-- On every run of a game in which no request takes over a party that waits for its client,
a party in use is waiting exactly when all its participants are, and none of the
participants of a normal party is. -/
theorem party_participant_states_agree {start s : Server E S} (hstart : StartsGame start)
    (hrun : Reaches Server.step (fun s op => op.IsPlay ∧ RejoinsNotWaiting s op) start s)
    {p : PartyPtr S} (hused : (s.party p).isUsed = true) :
    ((s.party p).state = .waitingForReJoin ↔
        ∀ i ∈ (s.party p).participantReferences,
          (s.participant i).state = .waitingForRejoin) ∧
      ((s.party p).state = .normal →
        ∀ i ∈ (s.party p).participantReferences,
          (s.participant i).state ≠ .waitingForRejoin) := by
  have hreferences : References True s :=
    references_reachable True hstart (fun _ _ h => h.1) (fun _ _ h _ => h.2) hrun
  have hparty := hreferences.parties p hused
  refine ⟨⟨hparty.waiting, ?_⟩, hparty.normal trivial⟩
  intro hall
  cases hstate : (s.party p).state with
  | waitingForReJoin => rfl
  | normal =>
    -- A party in use has a participant, and that of a normal party does not wait.
    obtain ⟨i, hi⟩ := List.exists_mem_of_ne_nil _ hparty.nonempty
    exact absurd (hall i hi) (hparty.normal trivial hstate i hi)
  | dissolved => exact absurd hstate hparty.present

/-- The first client is lost and its party waits, and so does its participant. -/
theorem party_participant_states_agree_lost :
    ∃ start s : Server plainExternal (plainSetup 2), StartsGame start ∧
      Reaches Server.step (fun s op => op.IsPlay ∧ RejoinsNotWaiting s op) start s ∧
      (s.party ⟨0, by decide⟩).participantReferences = [⟨0, by decide⟩] ∧
      (s.party ⟨0, by decide⟩).state = .waitingForReJoin ∧
      (s.participant ⟨0, by decide⟩).state = .waitingForRejoin := by
  obtain ⟨start, s, hstart, hrun, hused, hrefs, hwaiting⟩ :=
    exists_run Server.step (fun s op => op.IsPlay ∧ RejoinsNotWaiting s op)
      (fun s => (s.party ⟨0, by decide⟩).isUsed = true ∧
        (s.party ⟨0, by decide⟩).participantReferences = [⟨0, by decide⟩] ∧
        (s.party ⟨0, by decide⟩).state = .waitingForReJoin)
      (plainGame 2) (firstClientLost 181)
      (by decide +kernel)
  have hgame := startsGame_of_blankGame hstart
  have hagree := party_participant_states_agree hgame hrun hused
  refine ⟨start, s, hgame, hrun, hrefs, hwaiting, ?_⟩
  exact hagree.1.mp hwaiting _ (hrefs ▸ List.mem_cons_self)

/-- The first client is lost and rejoins with the server's secret. Its party is normal, and
its participant still waits for a rejoin. -/
theorem rejoin_leaves_participants_waiting :
    ∃ start s : Server plainExternal (plainSetup 2), StartsGame start ∧
      Reaches Server.step (fun s op => op.IsPlay ∧ s.Enabled op) start s ∧
      (s.party ⟨0, by decide⟩).isUsed = true ∧
      (s.party ⟨0, by decide⟩).participantReferences = [⟨0, by decide⟩] ∧
      (s.party ⟨0, by decide⟩).state = .normal ∧
      (s.participant ⟨0, by decide⟩).state = .waitingForRejoin := by
  obtain ⟨start, s, hstart, hrun, hs⟩ :=
    exists_run Server.step (fun s op => op.IsPlay ∧ s.Enabled op)
      (fun s => (s.party ⟨0, by decide⟩).isUsed = true ∧
        (s.party ⟨0, by decide⟩).participantReferences = [⟨0, by decide⟩] ∧
        (s.party ⟨0, by decide⟩).state = .normal ∧
        (s.participant ⟨0, by decide⟩).state = .waitingForRejoin)
      (plainGame 2)
      (firstClientLost 181 ++ [.receive 2, .join 2 (returningPlayer 0 7) (zeroLocals _)])
      (by decide +kernel)
  exact ⟨start, s, startsGame_of_blankGame hstart, hrun, hs⟩

end NimbleServer
