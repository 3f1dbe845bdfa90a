import NimbleServer.Lib.Trace
import NimbleServer.Proofs.References

/-!
# `NimbleServer.Proofs.LostPlaces`: places that a lost connection takes with it

`nimbleServerConnectionDisconnected` takes a party out of use and leaves its participants as
they are. The ticks look only at parties in use, so nothing marks these participants as
leaving, and composing gives back only the places of participants that are leaving. Their
places are lost until the next game is set up.

The history of a run here is one entry for each call that took a party out of use: the
participants of that party. `LosesPlaces` is the invariant. It looks at `References`, which
such a call keeps, and not at `BackReferences`, which it breaks: the party that went out of
use still references its participants.

`disconnects_use_up_places` counts. The calls that returned success and the participants who
still play fit into the capacity together. After as many calls as there are places no request
can open a party any more.
-/

set_option autoImplicit false

namespace NimbleServer

open NimbleServer.Lib

variable {E : External} {S : Setup}

/-! ### Runs of one game -/

/-- The operations within one game, with the notifications of the transport layer. -/
@[reducible] def Op.IsInGame : Op S → Prop
  | .reInitWithGame _ | .hostMigration _ _ => False
  | _ => True

/-- The condition can be evaluated for each operation. -/
instance (op : Op S) : Decidable op.IsInGame := Op.decidableOf Op.IsInGame op

/-- The participants of the party that a notification takes out of use, if it does. -/
def droppedParties (s : Server E S) : Op S → List (List (ParticipantPtr S))
  | .connectionDisconnected c =>
    if h : c.val < S.maxConnectionCount then
      if (s.party ⟨c.val, h⟩).isUsed then [(s.party ⟨c.val, h⟩).participantReferences] else []
    else []
  | _ => []

/-- The participants that play: a party in use references them. -/
def playingParticipants (s : Server E S) : List (ParticipantPtr S) :=
  (List.finRange S.maxParticipantCount).filter fun i =>
    decide (∃ p, (s.party p).isUsed = true ∧ i ∈ (s.party p).participantReferences)

/-- The participant is used and will not leave, and no party in use references it. -/
structure Stranded (s : Server E S) (i : ParticipantPtr S) : Prop where
  isUsed : (s.participant i).isUsed = true
  state : (s.participant i).state ≠ .leaving
  alone : ∀ p, (s.party p).isUsed = true → i ∉ (s.party p).participantReferences

/-- Everybody of the list is stranded, and is listed once. -/
structure LosesPlaces (lost : List (ParticipantPtr S)) (s : Server E S) : Prop where
  references : References False s
  refsNodup : ∀ p, (s.party p).isUsed = true → (s.party p).participantReferences.Nodup
  nodup : lost.Nodup
  stranded : ∀ i ∈ lost, Stranded s i

namespace LosesPlaces

variable {lost : List (ParticipantPtr S)} {s s' : Server E S}

/-- No party comes into use and none in use changes its references. Those of the list stay used
and are not set to leaving. -/
theorem congr (h : LosesPlaces lost s) (hreferences : References False s')
    (hparty : ∀ p, (s'.party p).isUsed = true → (s.party p).isUsed = true ∧
      (s'.party p).participantReferences = (s.party p).participantReferences)
    (hparticipant : ∀ i ∈ lost, (s'.participant i).isUsed = (s.participant i).isUsed ∧
      ((s'.participant i).state = .leaving → (s.participant i).state = .leaving)) :
    LosesPlaces lost s' where
  references := hreferences
  refsNodup := by
    intro p hp
    obtain ⟨hused, hrefs⟩ := hparty p hp
    rw [hrefs]
    exact h.refsNodup p hused
  nodup := h.nodup
  stranded := by
    intro i hi
    obtain ⟨hused, hstate⟩ := hparticipant i hi
    have hold := h.stranded i hi
    refine ⟨hused.trans hold.isUsed, fun hleaving => hold.state (hstate hleaving), ?_⟩
    intro p hp
    obtain ⟨hpused, hrefs⟩ := hparty p hp
    rw [hrefs]
    exact hold.alone p hpused

/-- One party is replaced by one with the same references, if it is still in use. -/
theorem replace (h : LosesPlaces lost s) (hreferences : References False s') (p : PartyPtr S)
    {x : LocalParty S} (hs' : ∀ q, s'.party q = if p = q then x else s.party q)
    (hx : x.isUsed = true → (s.party p).isUsed = true ∧
      x.participantReferences = (s.party p).participantReferences)
    (hparticipant : ∀ i ∈ lost, (s'.participant i).isUsed = (s.participant i).isUsed ∧
      ((s'.participant i).state = .leaving → (s.participant i).state = .leaving)) :
    LosesPlaces lost s' := by
  refine h.congr hreferences (fun q hq => ?_) hparticipant
  rw [hs' q] at hq ⊢
  split at hq
  · rename_i hpq
    rw [if_pos hpq, ← hpq]
    exact hx hq
  · rename_i hpq
    rw [if_neg hpq]
    exact ⟨hq, rfl⟩

/-- The states of the participants of a party in use are set. Nobody of the list is one of
them. -/
theorem setStates (h : LosesPlaces lost s) {p : PartyPtr S} (hused : (s.party p).isUsed = true)
    {state : ParticipantState} (hparticipant : ∀ i, s'.participant i
      = if i ∈ (s.party p).participantReferences then { s.participant i with state }
        else s.participant i) :
    ∀ i ∈ lost, (s'.participant i).isUsed = (s.participant i).isUsed ∧
      ((s'.participant i).state = .leaving → (s.participant i).state = .leaving) := by
  intro i hi
  rw [hparticipant i, if_neg ((h.stranded i hi).alone p hused)]
  exact ⟨rfl, fun hstate => hstate⟩

/-- One participant gets other steps, or becomes normal. -/
theorem setParticipant (h : LosesPlaces lost s) (i : ParticipantPtr S) {x : Participant E S}
    (hid : x.id = (s.participant i).id) (hx : SameStanding (s.participant i) x) :
    LosesPlaces lost (s.setParticipant i x) := by
  refine h.congr (h.references.setParticipant i hid hx) (fun p hp => ⟨hp, rfl⟩) fun j _ => ?_
  rw [Server.participant_setParticipant]
  split
  · rename_i hij
    rw [← hij]
    refine ⟨hx.isUsed, fun hleaving => ?_⟩
    -- The state stays or becomes normal, so it is not set to leaving here.
    rcases hx.state with hstate | ⟨-, hstate⟩
    · exact hstate.symm.trans hleaving
    · cases hstate.symm.trans hleaving
  · exact ⟨rfl, fun hstate => hstate⟩

/-- The place that is given back is that of a participant who was leaving. -/
theorem destroy (h : LosesPlaces lost s) {i : ParticipantPtr S}
    (hused : (s.participant i).isUsed = true) (hleaving : (s.participant i).state = .leaving) :
    Ensures (nimbleServerParticipantsDestroy s.game.participants (s.participant i).id)
      (fun participants => LosesPlaces lost (s.setParticipants participants))
      (fun _ => True) := by
  have hpool := h.references.pool
  refine ((h.references.destroy hused hleaving).and
    (hpool.counted.destroy hused (hpool.toNat_id hused))).mono ?_ fun _ _ => trivial
  rintro _ ⟨hreferences, rfl, -⟩
  refine h.congr hreferences (fun p hp => ⟨hp, rfl⟩) fun j hj => ?_
  -- Nobody of the list is leaving, so it is somebody else's place.
  have hij : i ≠ j := by
    rintro rfl
    exact (h.stranded i hj).state hleaving
  show ((destroyedPool s.game.participants i).get j).isUsed = _ ∧
    (((destroyedPool s.game.participants i).get j).state = _ → _)
  rw [get_destroyedPool, if_neg hij]
  exact ⟨rfl, fun hstate => hstate⟩

/-- A new party gets a participant that was not used. -/
theorem create (h : LosesPlaces lost s) {t : ConnectionPtr} {p : PartyPtr S}
    {players : List Nat} {stepId : StepId} {i : ParticipantPtr S}
    {participants : Participants E S}
    (hjoin : ParticipantsJoinOutcome s.game.participants players p stepId
      (.ok i, participants)) :
    LosesPlaces lost (assignParty
      (addParty ((nameParty s p).setParticipants participants) p (some t) [i]) t p) := by
  obtain ⟨hunused, x, -, -, -, -, hget, -⟩ := hjoin.taken
  have hparty := fun q => party_created s t p q participants i
  -- The new participant was not used, and everybody of the list is.
  have hne : ∀ j ∈ lost, i ≠ j := by
    rintro j hj rfl
    cases hunused.symm.trans (h.stranded i hj).isUsed
  refine ⟨h.references.create hjoin, ?_, h.nodup, ?_⟩
  · intro q hq
    rw [hparty q] at hq ⊢
    split at hq
    · rename_i hpq
      rw [if_pos hpq]
      exact List.nodup_singleton i
    · rename_i hpq
      rw [if_neg hpq]
      exact h.refsNodup q hq
  · intro j hj
    have hold := h.stranded j hj
    have hsame : (assignParty (addParty ((nameParty s p).setParticipants participants) p
        (some t) [i]) t p).participant j = s.participant j :=
      (hget j).trans (if_neg (hne j hj))
    refine ⟨by rw [hsame]; exact hold.isUsed, by rw [hsame]; exact hold.state, fun q hq => ?_⟩
    rw [hparty q] at hq ⊢
    split at hq
    · rename_i hpq
      rw [if_pos hpq]
      exact fun hmem => hne j hj (List.mem_singleton.mp hmem).symm
    · rename_i hpq
      rw [if_neg hpq]
      exact hold.alone q hq

/-! ### The operations of a running game -/

/-- Storing steps, and counting them, -/
theorem storeKeeps (lost : List (ParticipantPtr S)) :
    StoreKeeps (LosesPlaces (E := E) lost) where
  steps := fun _ i _ h => h.setParticipant i rfl ⟨rfl, rfl, .inl rfl⟩
  counters := fun s p quality highest count h =>
    h.replace ((references_playKeeps False).counters s p quality highest count h.references) p
      (fun q => Server.party_setParty s p q _) (fun hp => ⟨hp, rfl⟩)
      fun _ _ => ⟨rfl, fun hstate => hstate⟩
  log := fun s event h => h.congr ((references_playKeeps False).log s event h.references)
    (fun _ hp => ⟨hp, rfl⟩) fun _ _ => ⟨rfl, fun hstate => hstate⟩
  authoritativeSteps := fun s steps h =>
    h.congr ((references_playKeeps False).authoritativeSteps s steps h.references)
      (fun _ hp => ⟨hp, rfl⟩) fun _ _ => ⟨rfl, fun hstate => hstate⟩

/-- composing a step, -/
theorem composeRule (lost : List (ParticipantPtr S)) :
    ComposeRule (LosesPlaces (E := E) lost) (fun _ => True) :=
  (storeKeeps lost).composeRule
    (fun _ i h _ hstate => h.setParticipant i rfl ⟨rfl, rfl, .inr ⟨hstate, rfl⟩⟩)
    (fun _ _ h hused hleaving => h.destroy hused hleaving)
    (fun _ _ _ _ _ => trivial) trivial

/-- joins and ticks, -/
theorem requestRule (lost : List (ParticipantPtr S)) :
    RequestRule (fun _ _ => True) (LosesPlaces (E := E) lost) (fun _ => True) where
  same := by
    intro s s' h hgame hparties
    have hparty : ∀ p, s'.party p = s.party p := fun p =>
      congrArg (LocalParties.get · p) hparties
    have hparticipant : ∀ i, s'.participant i = s.participant i := fun i =>
      congrArg (fun game => game.participants.get i) hgame
    refine h.congr ((references_playKeeps False).same s s' h.references hgame hparties)
      (fun p hp => ?_) fun i _ => ?_
    · rw [hparty p] at hp ⊢
      exact ⟨hp, rfl⟩
    · rw [hparticipant i]
      exact ⟨rfl, fun hstate => hstate⟩
  join := by
    intro s t request uninitialized r h _ hr
    have hreferences := (references_playKeeps False).join s t request uninitialized r
      h.references False.elim hr
    have hkept : ∀ i ∈ lost, (s.participant i).isUsed = (s.participant i).isUsed ∧
        ((s.participant i).state = .leaving → (s.participant i).state = .leaving) :=
      fun _ _ => ⟨rfl, fun hstate => hstate⟩
    cases hr with
    | noPlace code hplace => exact h
    | sessionFull code p hplace =>
      exact h.replace hreferences p (party_nameParty s p) (fun hp => ⟨hp, rfl⟩) hkept
    | found p hcount hmatch =>
      exact h.replace hreferences p (party_assignParty s t p) (fun hp => ⟨hp, rfl⟩) hkept
    | unassigned p q htype hfind hnamed hcount hpointer =>
      exact h.replace hreferences p (party_assignParty s t p) (fun hp => ⟨hp, rfl⟩) hkept
    | rejoined p htype hfind hnamed hcount =>
      exact h.replace hreferences p (party_rejoined s t p) (fun hp => ⟨hp, rfl⟩) hkept
    | created p i participants htype hfind hplace hjoin => exact h.create hjoin
  joinFault := fun _ _ _ _ => trivial
  tick := by
    intro s p s' h hs'
    have hreferences := (references_playKeeps False).tick s p s' h.references hs'
    cases hs' with
    | unused hused => exact h
    | kept counter hused hstate hcounter =>
      exact h.replace hreferences p (fun q => Server.party_setParty s p q _)
        (fun hp => ⟨hp, rfl⟩) fun _ _ => ⟨rfl, fun hstate => hstate⟩
    | lost counter hused hstate hfailing =>
      exact h.replace hreferences p (fun q => party_lost s p q counter) (fun hp => ⟨hp, rfl⟩)
        (h.setStates hused (participant_lost s p counter))
    | waited hused hstate =>
      exact h.replace hreferences p (party_advanceTimer s p) (fun hp => ⟨hp, rfl⟩)
        fun _ _ => ⟨rfl, fun hstate => hstate⟩
    | stale hused hstate => exact h
    -- A party that gives up marks its own participants as leaving, and is not in use afterwards.
    | dissolved hused hstate hcount hconnection =>
      exact h.replace hreferences p (party_dissolved s p) (by rintro ⟨⟩)
        (h.setStates hused (participant_dissolved s p))
    | disconnected t hused hstate hcount hconnection hfull =>
      exact h.replace hreferences p (party_dissolved s p) (by rintro ⟨⟩)
        (h.setStates hused (participant_dissolved s p))
  tickFault := fun _ _ _ _ _ => trivial
  connectionFault := fun _ _ => trivial

/-- and so all operations of a running game keep the list. -/
theorem playRule (lost : List (ParticipantPtr S)) :
    PlayRule (fun _ _ => True) (LosesPlaces (E := E) lost) (fun _ => True) :=
  (requestRule lost).playRule (storeKeeps lost) (composeRule lost)

/-! ### The notification -/

/-- A party in use goes out of use. Its participants were not listed yet, and from now on they
are stranded. -/
theorem drop (h : LosesPlaces lost s) (c : ConnectionPtr) {p : PartyPtr S}
    (hused : (s.party p).isUsed = true) :
    LosesPlaces ((s.party p).participantReferences ++ lost) (dropParty s c p) := by
  have hparty := party_dropParty s c p
  -- A party that is in use afterwards is another one, and is as it was.
  have hother : ∀ q, ((dropParty s c p).party q).isUsed = true →
      p ≠ q ∧ (dropParty s c p).party q = s.party q := by
    intro q hq
    rw [hparty q] at hq ⊢
    split at hq
    · cases hq
    · rename_i hpq
      exact ⟨hpq, if_neg hpq⟩
  have hreferences : References False (dropParty s c p) := by
    refine h.references.congr h.references.pool (fun q hq => ?_) fun _ _ _ _ =>
      SameStanding.refl _
    obtain ⟨-, hsame⟩ := hother q hq
    rw [hsame] at hq ⊢
    exact ⟨hq, rfl, rfl⟩
  refine ⟨hreferences, fun q hq => ?_, ?_, fun i hi => ?_⟩
  · obtain ⟨-, hsame⟩ := hother q hq
    rw [hsame] at hq ⊢
    exact h.refsNodup q hq
  · refine List.nodup_append.mpr ⟨h.refsNodup p hused, h.nodup, ?_⟩
    rintro i hi _ hj rfl
    exact (h.stranded i hj).alone p hused hi
  · rcases List.mem_append.mp hi with hmem | hmem
    · -- No two parties share a participant, so nobody else looks after this one.
      obtain ⟨hiused, -, hleaving, -⟩ := (h.references.parties p hused).member i hmem
      refine ⟨hiused, hleaving, fun q hq hiq => ?_⟩
      obtain ⟨hpq, hsame⟩ := hother q hq
      rw [hsame] at hq hiq
      exact hpq (h.references.disjoint hused hq hmem hiq)
    · have hold := h.stranded i hmem
      refine ⟨hold.isUsed, hold.state, fun q hq hiq => ?_⟩
      obtain ⟨-, hsame⟩ := hother q hq
      rw [hsame] at hq hiq
      exact hold.alone q hq hiq

end LosesPlaces

/-! ### Whole runs -/

/-- The invariant of a run with its history: everybody of a party that was dropped is
stranded, and each entry has somebody. -/
structure LostSoFar (state : Server E S × List (List (ParticipantPtr S))) : Prop where
  places : LosesPlaces state.2.flatten state.1
  nonempty : ∀ party ∈ state.2, party ≠ []

/-- An operation that drops no party. -/
theorem LostSoFar.of_play {s : Server E S} {drops : List (List (ParticipantPtr S))}
    (h : LostSoFar (s, drops)) {op : Op S} (hop : op.IsPlay ∨ op.IsConnection)
    (hnone : droppedParties s op = []) :
    Ensures (recorded Server.step droppedParties (s, drops) op) LostSoFar (fun _ => True) := by
  have hstep : Ensures (s.step op) (LosesPlaces drops.flatten) (fun _ => True) := by
    rcases hop with hop | hop
    · exact (LosesPlaces.playRule drops.flatten).step h.places trivial hop
    · exact (step_isConnection_ensures s hop).mono
        (fun s' hs' => (LosesPlaces.requestRule drops.flatten).same s s' h.places hs'.1 hs'.2)
        fun _ _ => trivial
  refine Ensures.map (hstep.mono (fun s' hs' => ?_) fun _ hf => hf)
  rw [hnone]
  exact ⟨hs', h.nonempty⟩

/-- Every operation within one game keeps it, a notification with one entry more. -/
theorem LostSoFar.step {state : Server E S × List (List (ParticipantPtr S))}
    (h : LostSoFar state) {op : Op S} (hop : op.IsInGame) :
    Ensures (recorded Server.step droppedParties state op) LostSoFar (fun _ => True) := by
  obtain ⟨s, drops⟩ := state
  cases op with
  | reInitWithGame stepId => exact hop.elim
  | hostMigration infos uninitialized => exact hop.elim
  | connectionDisconnected c =>
    unfold recorded
    simp only [Server.step, droppedParties, connectionDisconnected_eq]
    by_cases hlt : c.val < S.maxConnectionCount
    · rw [dif_pos hlt, dif_pos hlt]
      by_cases hused : (s.party ⟨c.val, hlt⟩).isUsed = true
      · rw [if_pos hused, if_pos hused]
        -- A party in use has somebody, and this somebody is lost now.
        have hnonempty := (h.places.references.parties _ hused).nonempty
        refine ⟨h.places.drop c hused, ?_⟩
        rintro party (_ | ⟨_, hparty⟩)
        · exact hnonempty
        · exact h.nonempty party hparty
      · rw [if_neg hused, if_neg hused]
        exact h
    · rw [dif_neg hlt, dif_neg hlt]
      trivial
  | connectionConnected c => exact h.of_play (.inr trivial) rfl
  | tick => exact h.of_play (.inl (.inr rfl)) rfl
  | _ => exact h.of_play (.inl (.inl trivial)) rfl

/-- A new game has lost nobody. -/
theorem StartsGame.lostSoFar {s : Server E S} (h : StartsGame s) : LostSoFar (s, []) where
  places := by
    refine ⟨h.references False, fun p hp => ?_, List.nodup_nil, by rintro i ⟨⟩⟩
    cases (h.parties_reset p).1.symm.trans hp
  nonempty := by rintro party ⟨⟩

/-- It holds on every run of one game. -/
theorem lostSoFar_reachable {start : Server E S} (hstart : StartsGame start)
    {state : Server E S × List (List (ParticipantPtr S))}
    (hrun : Reaches (recorded Server.step droppedParties) (fun _ op => op.IsInGame) (start, [])
      state) : LostSoFar state :=
  hrun.invariant LostSoFar hstart.lostSoFar fun _ _ h hop => h.step hop

namespace LostSoFar

variable {s : Server E S} {drops : List (List (ParticipantPtr S))}

/-- Each party that was dropped lost somebody. -/
theorem length_le_lost (h : LostSoFar (s, drops)) : drops.length ≤ drops.flatten.length := by
  have hsum := List.length_le_sum_of_one_le (drops.map List.length) fun n hn => by
    obtain ⟨party, hparty, rfl⟩ := List.mem_map.mp hn
    exact List.length_pos_iff.mpr (h.nonempty party hparty)
  rwa [List.length_map, ← List.length_flatten] at hsum

/-- Those who are lost and those who play have different places. -/
theorem length_le (h : LostSoFar (s, drops)) :
    drops.length + (playingParticipants s).length ≤ S.maxParticipantCount := by
  have hnodup : (drops.flatten ++ playingParticipants s).Nodup := by
    refine List.nodup_append.mpr ⟨h.places.nodup, (List.nodup_finRange _).filter _, ?_⟩
    rintro i hi _ hj rfl
    obtain ⟨p, hp, hmem⟩ := of_decide_eq_true (List.mem_filter.mp hj).2
    exact (h.places.stranded i hi).alone p hp hmem
  have hcard := hnodup.length_le_card
  rw [List.length_append, Fintype.card_fin] at hcard
  have hlost := h.length_le_lost
  omega

/-- When as many parties were dropped as there are places, the pool is full. -/
theorem full (h : LostSoFar (s, drops)) (hall : drops.length = S.maxParticipantCount) :
    S.maxParticipantCount ≤ s.game.participants.participantCount := by
  have hsub : drops.flatten ⊆
      (List.finRange S.maxParticipantCount).filter fun i => (s.participant i).isUsed := by
    intro i hi
    exact List.mem_filter.mpr ⟨List.mem_finRange i, (h.places.stranded i hi).isUsed⟩
  have hnodup : drops.flatten.Nodup := h.places.nodup
  have hle := (hnodup.subperm hsub).length_le
  rw [← List.countP_eq_length_filter] at hle
  have hused : s.game.participants.participantCount
      = (List.finRange S.maxParticipantCount).countP fun i => (s.participant i).isUsed :=
    h.places.references.pool.count.trans (Participants.usedCount_eq _)
  have hlost := h.length_le_lost
  omega

/-- Then nobody plays. -/
theorem no_party (h : LostSoFar (s, drops)) (hall : drops.length = S.maxParticipantCount)
    (p : PartyPtr S) : (s.party p).isUsed = false := by
  refine Bool.eq_false_iff.mpr fun hused => ?_
  obtain ⟨i, hi⟩ :=
    List.exists_mem_of_ne_nil _ (h.places.references.parties p hused).nonempty
  have hplays : i ∈ playingParticipants s :=
    List.mem_filter.mpr ⟨List.mem_finRange i, decide_eq_true ⟨p, hused, hi⟩⟩
  have hpos := List.length_pos_of_mem hplays
  have hle := h.length_le
  omega

/-- And no request brings a party into use. -/
theorem join_opens_no_party (h : LostSoFar (s, drops))
    (hall : drops.length = S.maxParticipantCount) {t : ConnectionPtr}
    {request : JoinGameRequest} {uninitialized : Uninitialized S}
    {r : Except Int (PartyPtr S) × Server E S} (hr : JoinOutcome s t request uninitialized r)
    (p : PartyPtr S) : (r.2.party p).isUsed = false := by
  -- Every way but one leaves the flags of the parties alone.
  have hsame : ∀ {s' : Server E S} {q : PartyPtr S} {x : LocalParty S},
      (∀ r, s'.party r = if q = r then x else s.party r) → x.isUsed = (s.party q).isUsed →
      (s'.party p).isUsed = false := by
    intro s' q x hs' hx
    rw [hs' p]
    split
    · rw [hx]
      exact h.no_party hall q
    · exact h.no_party hall p
  cases hr with
  | noPlace code hplace => exact h.no_party hall p
  | sessionFull code q hplace => exact hsame (party_nameParty s q) rfl
  | found q hcount hmatch => exact hsame (party_assignParty s t q) rfl
  | unassigned q q' htype hfind hnamed hcount hpointer =>
    exact hsame (party_assignParty s t q) rfl
  | rejoined q htype hfind hnamed hcount => exact hsame (party_rejoined s t q) rfl
  | created q i participants htype hfind hplace hjoin =>
    have hfull := h.full hall
    -- A new party needs room in the pool.
    cases hjoin with
    | joined _ _ _ hroom _ _ _ => omega

end LostSoFar

/-- On every run of one game, with any notifications of the transport layer in between: the
participants of the parties that notifications took out of use are used for the rest of the
game, are never leaving, and no party in use references them. Each such notification costs a
place: their number and the number of those who play fit into the capacity together. After as
many as there are places nobody plays, and no request opens a party. -/
theorem disconnects_use_up_places {start s : Server E S}
    {drops : List (List (ParticipantPtr S))} (hstart : StartsGame start)
    (hrun : Reaches (recorded Server.step droppedParties) (fun _ op => op.IsInGame) (start, [])
      (s, drops)) :
    drops.flatten.Nodup ∧ (∀ i ∈ drops.flatten, Stranded s i) ∧
      drops.length + (playingParticipants s).length ≤ S.maxParticipantCount ∧
      (drops.length = S.maxParticipantCount →
        (∀ p, (s.party p).isUsed = false) ∧
        ∀ t request uninitialized result s',
          joinGame s t request uninitialized = .ok (result, s') →
          ∀ p, (s'.party p).isUsed = false) := by
  have h := lostSoFar_reachable hstart hrun
  refine ⟨h.places.nodup, h.places.stranded, h.length_le, fun hall => ⟨h.no_party hall, ?_⟩⟩
  intro t request uninitialized result s' hjoin p
  exact h.join_opens_no_party hall ((joinGame_ensures s t request uninitialized).of_ok hjoin) p

/-- A game for one client. The client is lost, another one asks for a place, and there is none. -/
theorem disconnects_use_up_places_onePlayer :
    ∃ (s : Server plainExternal (plainSetup 1))
      (drops : List (List (ParticipantPtr (plainSetup 1)))), drops.length = 1 ∧
      ∀ t request uninitialized result s',
        joinGame s t request uninitialized = .ok (result, s') →
        ∀ p, (s'.party p).isUsed = false := by
  obtain ⟨start, s, hstart, hrun, hdrops⟩ :=
    exists_run (recorded Server.step droppedParties)
      (fun (_ : Server plainExternal (plainSetup 1) × _) op => op.IsInGame)
      (fun state : Server plainExternal (plainSetup 1) × _ => state.2.length = 1)
      ((plainGame 1).map fun s => (s, []))
      [.receive 0, .join 0 onePlayer (zeroLocals _), .connectionDisconnected 0,
        .connectionConnected 1, .receive 1, .join 1 onePlayer (zeroLocals _)] (by decide +kernel)
  obtain ⟨start, hgame, rfl⟩ := map_eq_ok.mp hstart
  obtain ⟨s, drops⟩ := s
  have h := disconnects_use_up_places (startsGame_of_blankGame hgame) hrun
  exact ⟨s, drops, hdrops, (h.2.2.2 hdrops).2⟩

end NimbleServer
