import NimbleServer.Proofs.MigrationPool

/-!
# `NimbleServer.Proofs.HostMigration`: what host migration leaves behind

`nimbleServerHostMigration` resets the parties, prepares one party after the other for the
participants it is given, and rebuilds the free list. `Prepared` is the invariant of its
loop: the parties are filled from slot 0 on, in the order of the list, and nothing else
changes. The loop either comes to its end or stops at the first participant that is refused
(`prepareParties_prepared`).

* On a new game with different participants that fit, everything is as it should be
  (`hostMigration_consistent`).
* In general the pool agrees with the parties afterwards only in two cases
  (`hostMigration_pool_iff`): nobody was used before and the whole list can be prepared, or
  the very first participant is refused and all used participants are leaving already.
  Otherwise participants that are used are left without a party, or their ids are free.
-/

set_option autoImplicit false

namespace NimbleServer

open NimbleServer.Lib

variable {E : External} {S : Setup}

/-! ### Parties with one participant -/

/-- The info of a party with one participant. -/
def partyInfo (i : ParticipantPtr S) : LocalPartyInfo where
  participantIds := [UInt8.ofNat i.val]

/-- The infos of parties with one participant each. -/
def partyInfos (ids : List (ParticipantPtr S)) : List LocalPartyInfo := ids.map partyInfo

/-- The scan over the infos finds exactly the listed participants: an id is the number of its
slot. -/
theorem containsParticipantId_partyInfos
    (hcapacity : S.maxParticipantCount < NIMBLE_SERVER_CIRCULAR_BUFFER_SIZE)
    (ids : List (ParticipantPtr S)) (i : ParticipantPtr S) :
    containsParticipantId (partyInfos ids) (slotOctet i) = true ↔ i ∈ ids := by
  simp only [containsParticipantId, partyInfos, List.any_map, List.any_eq_true,
    Function.comp_apply, partyInfo, List.contains_iff_mem, List.mem_singleton]
  constructor
  · rintro ⟨j, hj, hij⟩
    rw [slotOctet_injective hcapacity (i := i) (j := j) hij]
    exact hj
  · intro hi
    exact ⟨i, hi, rfl⟩

/-- The ids that are left over. -/
theorem mem_unlistedSlots
    (hcapacity : S.maxParticipantCount < NIMBLE_SERVER_CIRCULAR_BUFFER_SIZE)
    (ids : List (ParticipantPtr S)) (i : ParticipantPtr S) :
    i ∈ unlistedSlots S (partyInfos ids) ↔ i ∉ ids := by
  simp [unlistedSlots, ← containsParticipantId_partyInfos hcapacity ids i]

/-- A participant is refused when there is no party for it, when the pool is full, or when it
is used. -/
def Refused (s : Server E S) (i : ParticipantPtr S) : Prop :=
  (∀ p, (s.party p).isUsed = true) ∨
    S.maxParticipantCount ≤ s.game.participants.participantCount ∨
    (s.participant i).isUsed = true

/-- How the preparation of a party with one participant ends. -/
inductive PrepareOutcome (s : Server E S) (stepId : StepId) (i : ParticipantPtr S) :
    Int × Server E S → Prop
  | refused (err : Int) (s' : Server E S) (herr : err < 0) (hrefused : Refused s i)
      (hsame : s' = s ∨ ∃ p, s' = nameParty s p) : PrepareOutcome s stepId i (err, s')
  | prepared (p : PartyPtr S) (hplace : firstFreeParty s = some p)
      (hfree : (s.participant i).isUsed = false) :
      PrepareOutcome s stepId i (0, prepareParty s p
        (preparedPool s.game.participants i (UInt8.ofNat i.val) p stepId) i)

/-- These are all the ways the preparation of one party ends. It does not stop the server. -/
theorem localPartiesPrepare_outcome
    (hcapacity : S.maxParticipantCount < NIMBLE_SERVER_CIRCULAR_BUFFER_SIZE) (s : Server E S)
    (stepId : StepId) (i : ParticipantPtr S) (uninitialized : Uninitialized S) :
    Ensures (nimbleServerLocalPartiesPrepare s stepId (partyInfo i) uninitialized)
      (PrepareOutcome s stepId i) (fun _ => False) := by
  simp only [nimbleServerLocalPartiesPrepare, findFreePartyPlaceButDoNotReserveItYet]
  cases hplace : firstFreeParty s with
  | none => exact .refused _ s (by decide) (.inl fun p => firstFreeParty_none hplace p) (.inl rfl)
  | some p =>
    have hslot := slotOctet_toNat hcapacity i
    -- The one id of the info is in range, so the preparation does not stop.
    have hone : Ensures (nimbleServerParticipantsPrepare s.game.participants
        (UInt8.ofNat i.val) p stepId) (ParticipantsPrepareOutcome s.game.participants
          (UInt8.ofNat i.val) p stepId) (fun _ => False) := by
      refine (nimbleServerParticipantsPrepare_ensures _ _ _ _).mono (fun _ h => h) ?_
      rintro fault ⟨-, hrange⟩
      have hlt := i.isLt
      have : (UInt8.ofNat i.val).toNat = i.val := hslot
      omega
    unfold partyInfo prepareParticipants
    obtain ⟨r, hr, houtcome⟩ := hone.exists_ok
    have hindex : ∀ j : ParticipantPtr S, (UInt8.ofNat i.val).toNat = j.val → j = i :=
      fun j hj => Fin.ext (hj.symm.trans hslot)
    simp only [Server.game_setParty, hr]
    cases houtcome with
    | full hfull => exact .refused _ _ (by decide) (.inr (.inl hfull)) (.inr ⟨p, rfl⟩)
    | used j hid hroom hused =>
      rw [hindex j hid] at hused
      exact .refused _ _ (by decide) (.inr (.inr hused)) (.inr ⟨p, rfl⟩)
    | prepared j hid hroom hfree =>
      obtain rfl := hindex j hid
      exact .prepared p hplace hfree

/-! ### The loop -/

/-- The party in slot `p` is ready for the participant to rejoin. -/
structure PreparedFor (s : Server E S) (p : PartyPtr S) (i : ParticipantPtr S) : Prop where
  isUsed : (s.party p).isUsed = true
  state : (s.party p).state = .waitingForReJoin
  transportConnection : (s.party p).transportConnection = none
  participantReferences : (s.party p).participantReferences = [i]
  inParty : (s.participant i).inParty = some p

/-- Parties were prepared for the participants of the list, from slot 0 on. -/
structure Prepared (start : Server E S) (done : List (ParticipantPtr S)) (s : Server E S) :
    Prop where
  freeList : s.game.participants.freeList = start.game.participants.freeList
  count : s.game.participants.participantCount
    = start.game.participants.participantCount + done.length
  nodup : done.Nodup
  wasFree : ∀ i ∈ done, (start.participant i).isUsed = false
  others : ∀ i, i ∉ done → s.participant i = start.participant i
  waiting : ∀ i ∈ done,
    (s.participant i).isUsed = true ∧ (s.participant i).state = .waitingForRejoin
  fits : done.length ≤ S.maxConnectionCount
  party : ∀ (p : PartyPtr S) i, done[p.val]? = some i → PreparedFor s p i
  unused : ∀ p : PartyPtr S, done.length ≤ p.val → (s.party p).isUsed = false

/-- The scan for a free party returns the first one. -/
theorem firstFreeParty_first {s : Server E S} {p q : PartyPtr S}
    (h : firstFreeParty s = some p) (hq : q < p) : (s.party q).isUsed = true := by
  obtain ⟨-, before, after, hsplit, hbefore⟩ := List.find?_eq_some_iff_append.mp h
  have hmem : q ∈ before := by
    -- The slots are scanned in ascending order, so a smaller one comes before.
    have hsorted : (before ++ p :: after).Pairwise (· < ·) := hsplit ▸ List.pairwise_lt_finRange _
    have hall : q ∈ before ++ p :: after := hsplit ▸ List.mem_finRange q
    rcases List.mem_append.mp hall with hmem | hmem
    · exact hmem
    · rcases List.mem_cons.mp hmem with rfl | hafter
      · exact absurd hq (lt_irrefl _)
      · have hlt := (List.pairwise_cons.mp (List.pairwise_append.mp hsorted).2.1).1 q hafter
        exact absurd hq (lt_asymm hlt)
  simpa using hbefore q hmem

/-- When the first `count` parties are used and no others, the free slot is the next one. -/
theorem firstFreeParty_slot {s : Server E S} {p : PartyPtr S} {count : Nat}
    (hused : ∀ q : PartyPtr S, q.val < count → (s.party q).isUsed = true)
    (hunused : ∀ q : PartyPtr S, count ≤ q.val → (s.party q).isUsed = false)
    (hplace : firstFreeParty s = some p) : p.val = count := by
  have hle : count ≤ p.val := by
    refine Nat.not_lt.mp fun hlt => ?_
    cases (firstFreeParty_isUsed hplace).symm.trans (hused p hlt)
  refine Nat.le_antisymm (Nat.not_lt.mp fun hlt => ?_) hle
  -- Otherwise the slot after the used ones would be free too, and come first.
  have hlast : count < S.maxConnectionCount := Nat.lt_trans hlt p.isLt
  have hfirst := firstFreeParty_first (q := ⟨count, hlast⟩) hplace hlt
  cases (hunused ⟨count, hlast⟩ (Nat.le_refl _)).symm.trans hfirst

namespace Prepared

variable {start s : Server E S} {done : List (ParticipantPtr S)}

/-- Nothing is prepared yet. -/
theorem nil (hunused : ∀ p, (start.party p).isUsed = false) : Prepared start [] start where
  freeList := rfl
  count := rfl
  nodup := List.nodup_nil
  wasFree := by rintro i ⟨⟩
  others := fun _ _ => rfl
  waiting := by rintro i ⟨⟩
  fits := Nat.zero_le _
  party := by
    intro p i h
    cases h
  unused := fun p _ => hunused p

/-- The free slot that is found is the next one. -/
theorem next_slot (h : Prepared start done s) {p : PartyPtr S}
    (hplace : firstFreeParty s = some p) : p.val = done.length :=
  firstFreeParty_slot
    (fun q hq => (h.party q done[q.val] (List.getElem?_eq_getElem hq)).isUsed) h.unused hplace

/-- Naming a slot changes nothing that matters. -/
theorem named (h : Prepared start done s) (p : PartyPtr S) :
    Prepared start done (nameParty s p) := by
  have hused : ∀ q, ((nameParty s p).party q).isUsed = (s.party q).isUsed := by
    intro q
    rw [party_nameParty]
    split
    · rename_i hpq
      rw [hpq]
    · rfl
  refine ⟨h.freeList, h.count, h.nodup, h.wasFree, h.others, h.waiting, h.fits, ?_, ?_⟩
  · intro q i hi
    have hq := h.party q i hi
    -- The name is the only field that changes, so every other one is read as before.
    have hsame : ∀ {α : Type} (f : LocalParty S → α),
        (∀ x : LocalParty S, f { x with id := UInt8.ofNat p.val } = f x) →
        f ((nameParty s p).party q) = f (s.party q) := by
      intro α f hf
      rw [party_nameParty]
      split
      · rename_i hpq
        rw [hpq]
        exact hpq ▸ hf _
      · rfl
    exact ⟨(hused q).trans hq.isUsed, (hsame (·.state) fun _ => rfl).trans hq.state,
      (hsame (·.transportConnection) fun _ => rfl).trans hq.transportConnection,
      (hsame (·.participantReferences) fun _ => rfl).trans hq.participantReferences, hq.inParty⟩
  · intro q hq
    exact (hused q).trans (h.unused q hq)

/-- One more party is prepared. -/
theorem next (h : Prepared start done s) {p : PartyPtr S} {i : ParticipantPtr S}
    (hplace : firstFreeParty s = some p) (hfree : (s.participant i).isUsed = false)
    (stepId : StepId) :
    Prepared start (done ++ [i]) (prepareParty s p
      (preparedPool s.game.participants i (UInt8.ofNat i.val) p stepId) i) := by
  have hslot := h.next_slot hplace
  have hi : i ∉ done := fun hmem => by cases hfree.symm.trans (h.waiting i hmem).1
  have hget := fun j => Participants.get_set s.game.participants i j
    { nimbleServerParticipantReInit (s.participant i) p stepId with
      localIndex := 0, isUsed := true, state := .waitingForRejoin, id := UInt8.ofNat i.val }
  have hself : ∀ j, i = j → _ := fun j hij => (hget j).trans (if_pos hij)
  have hother : ∀ j, i ≠ j → _ := fun j hij => (hget j).trans (if_neg hij)
  refine ⟨h.freeList, ?_, ?_, ?_, ?_, ?_, ?_, ?_, ?_⟩
  · show s.game.participants.participantCount + 1 = _
    rw [h.count, List.length_append, List.length_singleton]
    omega
  · exact List.nodup_append.mpr ⟨h.nodup, List.nodup_singleton i,
      fun a ha b hb hab => hi (List.mem_singleton.mp hb ▸ hab ▸ ha)⟩
  · intro j hj
    rcases List.mem_append.mp hj with hdone | hnew
    · exact h.wasFree j hdone
    · rw [List.mem_singleton.mp hnew, ← h.others i hi]
      exact hfree
  · intro j hj
    have hij : i ≠ j := fun hij => hj (List.mem_append_right _ (List.mem_singleton.mpr hij.symm))
    exact (hother j hij).trans (h.others j fun hdone => hj (List.mem_append_left _ hdone))
  · intro j hj
    by_cases hij : i = j
    · exact ⟨congrArg Participant.isUsed (hself j hij), congrArg Participant.state (hself j hij)⟩
    · have hdone : j ∈ done := (List.mem_append.mp hj).resolve_right fun hnew =>
        hij (List.mem_singleton.mp hnew).symm
      exact ⟨(congrArg Participant.isUsed (hother j hij)).trans (h.waiting j hdone).1,
        (congrArg Participant.state (hother j hij)).trans (h.waiting j hdone).2⟩
  · rw [List.length_append, List.length_singleton, ← hslot]
    exact p.isLt
  · intro q j hj
    by_cases hpq : p = q
    · -- The new slot.
      subst hpq
      rw [hslot, List.getElem?_concat_length] at hj
      obtain rfl := Option.some.inj hj
      have hparty := party_prepareParty s p p
        (preparedPool s.game.participants i (UInt8.ofNat i.val) p stepId) i
      rw [if_pos rfl] at hparty
      exact ⟨congrArg LocalParty.isUsed hparty, congrArg LocalParty.state hparty,
        congrArg LocalParty.transportConnection hparty,
        congrArg LocalParty.participantReferences hparty,
        congrArg Participant.inParty (hself i rfl)⟩
    · -- A slot before the new one: nothing changes about it.
      have hlt : q.val < done.length := by
        have hlength := (List.getElem?_eq_some_iff.mp hj).1
        rw [List.length_append, List.length_singleton] at hlength
        have : p.val ≠ q.val := fun hval => hpq (Fin.ext hval)
        omega
      rw [List.getElem?_append_left hlt] at hj
      have hq := h.party q j hj
      have hparty := party_prepareParty s p q
        (preparedPool s.game.participants i (UInt8.ofNat i.val) p stepId) i
      rw [if_neg hpq] at hparty
      have hij : i ≠ j := fun hij => hi (hij ▸ List.mem_of_getElem? hj)
      exact ⟨(congrArg LocalParty.isUsed hparty).trans hq.isUsed,
        (congrArg LocalParty.state hparty).trans hq.state,
        (congrArg LocalParty.transportConnection hparty).trans hq.transportConnection,
        (congrArg LocalParty.participantReferences hparty).trans hq.participantReferences,
        (congrArg Participant.inParty (hother j hij)).trans hq.inParty⟩
  · intro q hq
    rw [List.length_append, List.length_singleton] at hq
    have hpq : p ≠ q := by
      rintro rfl
      omega
    rw [party_prepareParty, if_neg hpq]
    exact h.unused q (by omega)

end Prepared

/-- Where the loop can end: after the whole list, or before a participant that is refused. -/
def LoopEnded (start : Server E S) (ids : List (ParticipantPtr S)) (r : Int × Server E S) :
    Prop :=
  (r.1 = 0 ∧ Prepared start ids r.2) ∨
    (r.1 < 0 ∧ ∃ done i rest, ids = done ++ i :: rest ∧ Prepared start done r.2 ∧
      Refused r.2 i)

/-- The loop comes to the end of the list or to a participant that is refused. Induction on the
rest of the list. -/
theorem prepareParties_prepared
    (hcapacity : S.maxParticipantCount < NIMBLE_SERVER_CIRCULAR_BUFFER_SIZE)
    (uninitialized : Uninitialized S) (start : Server E S) :
    ∀ (rest done : List (ParticipantPtr S)) (s : Server E S), Prepared start done s →
      Ensures (prepareParties uninitialized (partyInfos rest) s)
        (LoopEnded start (done ++ rest)) (fun _ => False) := by
  intro rest
  induction rest with
  | nil =>
    intro done s h
    rw [List.append_nil]
    exact .inl ⟨rfl, h⟩
  | cons i rest ih =>
    intro done s h
    show Ensures (prepareParties uninitialized (partyInfo i :: partyInfos rest) s) _ _
    unfold prepareParties
    refine (localPartiesPrepare_outcome hcapacity s _ i uninitialized).bind ?_
    intro r hr
    cases hr with
    | refused err s' herr hrefused hsame =>
      dsimp only
      rw [if_pos herr]
      refine .inr ⟨herr, done, i, rest, rfl, ?_⟩
      -- A refusal can come after a slot was named, which neither frees a party nor takes one.
      rcases hsame with rfl | ⟨p, rfl⟩
      · exact ⟨h, hrefused⟩
      · refine ⟨h.named p, hrefused.imp_left fun hall q => ?_⟩
        rw [party_nameParty]
        split
        · exact hall p
        · exact hall q
    | prepared p hplace hfree =>
      dsimp only
      rw [if_neg (by decide)]
      have hnext := ih (done ++ [i]) _
        (h.next hplace hfree (E.expectedWriteId s.game.authoritativeSteps - 1))
      rwa [List.append_assoc] at hnext

/-- In a pool without used participants a list of different participants that fits is never
refused. -/
theorem Prepared.not_refused {start s : Server E S} {ids done rest : List (ParticipantPtr S)}
    {i : ParticipantPtr S} (h : Prepared start done s)
    (hunused : ∀ i, (start.participant i).isUsed = false)
    (hcount : start.game.participants.participantCount = 0) (hnodup : ids.Nodup)
    (hfits : ids.length ≤ S.maxConnectionCount) (hids : ids = done ++ i :: rest) :
    ¬Refused s i := by
  have hlength : done.length < ids.length := by
    rw [hids, List.length_append, List.length_cons]
    omega
  -- There is a slot left, the pool is not full, and the participant was not prepared before.
  rintro (hall | hfull | hused)
  · have hlt : done.length < S.maxConnectionCount := Nat.lt_of_lt_of_le hlength hfits
    cases (h.unused ⟨done.length, hlt⟩ (Nat.le_refl _)).symm.trans (hall _)
  · have hcard := hnodup.length_le_card
    rw [Fintype.card_fin] at hcard
    rw [h.count, hcount] at hfull
    omega
  · have hi : i ∉ done := by
      rw [hids] at hnodup
      intro hmem
      exact (List.nodup_append.mp hnodup).2.2 i hmem i List.mem_cons_self rfl
    rw [h.others i hi, hunused i] at hused
    cases hused

/-- A party in use references the participant at its place of the list. -/
theorem Prepared.references_of_isUsed {start s : Server E S} {ids : List (ParticipantPtr S)}
    (h : Prepared start ids s) {p : PartyPtr S} (hp : (s.party p).isUsed = true) :
    ∃ hlt : p.val < ids.length, (s.party p).participantReferences = [ids[p.val]] := by
  have hlt : p.val < ids.length := by
    refine Nat.not_le.mp fun hle => ?_
    cases (h.unused p hle).symm.trans hp
  exact ⟨hlt, (h.party p _ (List.getElem?_eq_getElem hlt)).participantReferences⟩

/-! ### A new game -/

/-- A new game has no participants, -/
theorem StartsGame.participant_unused {s : Server E S} (h : StartsGame s)
    (i : ParticipantPtr S) : (s.participant i).isUsed = false := by
  obtain ⟨before, stepId, hinit⟩ := h
  rw [((nimbleServerReInitWithGame_ensures before stepId).of_ok hinit).2.1 i]
  rfl

/-- and after a reset there are no parties. -/
theorem resetParties_unused (s : Server E S) (p : PartyPtr S) :
    ((resetParties s).party p).isUsed = false := by
  rw [party_resetParties]
  rfl

/-- Without used participants the count is zero. -/
theorem PoolCovers.count_eq_zero {pool : Participants E S} (h : PoolCovers pool)
    (hunused : ∀ i, (pool.get i).isUsed = false) : pool.participantCount = 0 := by
  rw [h.count, Participants.usedCount_eq]
  refine List.countP_eq_zero.mpr fun i _ => ?_
  rw [hunused i]
  exact Bool.false_ne_true

/-- Host migration of a new game, for different participants, no more than there are party
slots, succeeds. Exactly the listed participants are used, and they wait for their clients.
The free list holds the other ids in ascending order, and the count is right. Each listed
participant is referenced by exactly one party in use: it waits for its client, has no
connection, references this participant alone and is the party of the participant. Every party
in use is one of these. -/
theorem hostMigration_consistent {s : Server E S} (hstart : StartsGame s)
    (ids : List (ParticipantPtr S)) (hnodup : ids.Nodup)
    (hfits : ids.length ≤ S.maxConnectionCount) (uninitialized : Uninitialized S) :
    ∃ s', nimbleServerHostMigration s (partyInfos ids) uninitialized = .ok (0, s') ∧
      (∀ i, (s'.participant i).isUsed = true ↔ i ∈ ids) ∧
      (∀ i ∈ ids, (s'.participant i).state = .waitingForRejoin) ∧
      s'.game.participants.freeList.toList
        = ((List.finRange S.maxParticipantCount).filter (· ∉ ids)).map
          (fun i => UInt8.ofNat i.val) ∧
      s'.game.participants.participantCount = ids.length ∧
      (∀ i ∈ ids, ∃ p, ((s'.party p).isUsed = true ∧
        (s'.party p).state = .waitingForReJoin ∧ (s'.party p).transportConnection = none ∧
        (s'.party p).participantReferences = [i] ∧ (s'.participant i).inParty = some p) ∧
        ∀ q, (s'.party q).isUsed = true → i ∈ (s'.party q).participantReferences → q = p) ∧
      (∀ p, (s'.party p).isUsed = true →
        ∃ i ∈ ids, (s'.party p).participantReferences = [i]) := by
  have hpool := hstart.poolInvariant
  have hcapacity := hpool.capacity
  have hzero := hpool.covers.count_eq_zero hstart.participant_unused
  have hloop := prepareParties_prepared hcapacity uninitialized (resetParties s) ids [] _
    (Prepared.nil (resetParties_unused s))
  -- Nobody is refused, so the loop ends with the whole list and the free list is built.
  have hresult : Ensures (nimbleServerHostMigration s (partyInfos ids) uninitialized)
      (fun r => r.1 = 0 ∧ ∃ (s1 : Server E S) (freeList : CircularBuffer),
        Prepared (resetParties s) ids s1 ∧
        freeList.toList = (unlistedSlots S (partyInfos ids)).map slotOctet ∧
        r.2 = s1.setParticipants { s1.game.participants with freeList }) (fun _ => False) := by
    refine hostMigration_ensures hcapacity hloop ?_ ?_
    · rintro r (⟨hzero, -⟩ | ⟨-, done, i, rest, hids, hprepared, hrefused⟩) hneg
      · omega
      · exact absurd hrefused
          (hprepared.not_refused hstart.participant_unused hzero hnodup hfits hids)
    · rintro r freeList (⟨-, hprepared⟩ | ⟨hneg, -⟩) hpos hlist
      · exact ⟨rfl, r.2, freeList, hprepared, hlist, rfl⟩
      · omega
  obtain ⟨⟨err, s'⟩, hmigrate, rfl, s1, freeList, hprepared, hlist, rfl⟩ := hresult.exists_ok
  have hused : ∀ i, (s1.participant i).isUsed = true ↔ i ∈ ids := by
    intro i
    refine ⟨fun hi => ?_, fun hi => (hprepared.waiting i hi).1⟩
    refine Decidable.byContradiction fun hnot => ?_
    rw [hprepared.others i hnot] at hi
    cases (hstart.participant_unused i).symm.trans hi
  refine ⟨_, hmigrate, hused, fun i hi => (hprepared.waiting i hi).2, ?_, ?_, ?_, ?_⟩
  · show freeList.toList = _
    rw [hlist]
    refine congrArg (List.map slotOctet) (List.filter_congr fun i _ => ?_)
    have hlisted := containsParticipantId_partyInfos hcapacity ids i
    by_cases hi : i ∈ ids
    · simp [hlisted.mpr hi, hi]
    · simp [Bool.eq_false_iff.mpr fun h => hi (hlisted.mp h), hi]
  · refine hprepared.count.trans ?_
    show s.game.participants.participantCount + _ = _
    rw [hzero, Nat.zero_add]
  · intro i hi
    -- The party of a participant is the slot with its place in the list.
    obtain ⟨k, hk, rfl⟩ := List.getElem_of_mem hi
    have hlt : k < S.maxConnectionCount := Nat.lt_of_lt_of_le hk hfits
    have hp := hprepared.party ⟨k, hlt⟩ ids[k] (List.getElem?_eq_getElem hk)
    refine ⟨⟨k, hlt⟩, ⟨hp.isUsed, hp.state, hp.transportConnection, hp.participantReferences,
      hp.inParty⟩, fun q hq hmem => ?_⟩
    -- The party `q` was prepared for the participant at its own place of the list.
    obtain ⟨hqlt, hreferences⟩ := hprepared.references_of_isUsed hq
    have hsame : ids[k] ∈ [ids[q.val]] := hreferences ▸ hmem
    exact Fin.ext (hnodup.getElem_inj_iff.mp (List.mem_singleton.mp hsame)).symm
  · intro p hp
    obtain ⟨hlt, hreferences⟩ := hprepared.references_of_isUsed hp
    exact ⟨ids[p.val], List.getElem_mem hlt, hreferences⟩

/-- Three clients, of which two migrate. -/
theorem hostMigration_consistent_twoOfThree :
    ∃ s s' : Server plainExternal (plainSetup 3), StartsGame s ∧
      nimbleServerHostMigration s (partyInfos (S := plainSetup 3) [⟨2, by decide⟩, ⟨0, by decide⟩])
        (zeroLocals _) = .ok (0, s') ∧
      s'.game.participants.freeList.toList = [1] ∧
      s'.game.participants.participantCount = 2 := by
  obtain ⟨start, -, hstart, -, -⟩ := exists_run Server.step (fun _ _ => True) (fun _ => True)
    (plainGame 3) [] (by decide +kernel)
  have hgame := startsGame_of_blankGame hstart
  obtain ⟨s', hmigrate, -, -, hfree, hcount, -, -⟩ := hostMigration_consistent hgame
    [⟨2, by decide⟩, ⟨0, by decide⟩] (by decide) (by decide) (zeroLocals _)
  exact ⟨start, s', hgame, hmigrate, hfree.trans (by decide), hcount⟩

/-! ### Any state -/

/-- The free list is without duplicates and holds exactly the ids of the participants that are
not used, and the count is right. Every used participant that is not leaving is referenced by
a party in use. -/
structure PoolAgrees (s : Server E S) : Prop where
  nodup : s.game.participants.freeList.toList.Nodup
  mem_iff : ∀ octet, octet ∈ s.game.participants.freeList.toList ↔
    ∃ i : ParticipantPtr S, octet = UInt8.ofNat i.val ∧ (s.participant i).isUsed = false
  count : s.game.participants.participantCount = s.game.participants.usedCount
  owner : ∀ i, (s.participant i).isUsed = true → (s.participant i).state ≠ .leaving →
    ∃ p, (s.party p).isUsed = true ∧ i ∈ (s.party p).participantReferences

/-- Nobody is used, and the whole list can be prepared. -/
def WholeListFits (s : Server E S) (ids : List (ParticipantPtr S)) : Prop :=
  (∀ i, (s.participant i).isUsed = false) ∧ ids.Nodup ∧ ids.length ≤ S.maxConnectionCount

/-- The first participant of the list is refused once the parties are reset. -/
def FirstRefused (s : Server E S) (ids : List (ParticipantPtr S)) : Prop :=
  ∃ first rest, ids = first :: rest ∧ (S.maxConnectionCount = 0 ∨
    S.maxParticipantCount ≤ s.game.participants.participantCount ∨
    (s.participant first).isUsed = true)

/-- The free list is in order, and everybody who is used is leaving. -/
structure EverybodyLeaves (s : Server E S) : Prop where
  nodup : s.game.participants.freeList.toList.Nodup
  mem_iff : ∀ octet, octet ∈ s.game.participants.freeList.toList ↔
    ∃ i : ParticipantPtr S, octet = UInt8.ofNat i.val ∧ (s.participant i).isUsed = false
  leaving : ∀ i, (s.participant i).isUsed = true → (s.participant i).state = .leaving

/-- While some participant is not used, the count is below the capacity. -/
theorem PoolCovers.count_lt {pool : Participants E S} (h : PoolCovers pool)
    {i : ParticipantPtr S} (hi : (pool.get i).isUsed = false) :
    pool.participantCount < S.maxParticipantCount := by
  have hlt := (List.countP_lt_length_iff
    (p := fun i : ParticipantPtr S => (pool.get i).isUsed)).mpr ⟨i, List.mem_finRange i, hi⟩
  rw [List.length_finRange, ← Participants.usedCount_eq, ← h.count] at hlt
  exact hlt

namespace Prepared

variable {s s' : Server E S} {done : List (ParticipantPtr S)}

/-- A list that was prepared did not start with a refused participant. -/
theorem not_firstRefused (h : Prepared (resetParties s) done s')
    (hcovers : PoolCovers s.game.participants) {ids : List (ParticipantPtr S)}
    (hdone : done ≠ []) (hfront : done <+: ids) : ¬FirstRefused s ids := by
  rintro ⟨first, rest, rfl, hrefused⟩
  cases done with
  | nil => exact hdone rfl
  | cons i more =>
    obtain rfl := (List.cons_prefix_cons.mp hfront).1
    have hfree : (s.participant i).isUsed = false := h.wasFree i List.mem_cons_self
    rcases hrefused with hzero | hfull | hused
    · have hfits := h.fits
      rw [hzero, List.length_cons] at hfits
      omega
    · exact absurd (hcovers.count_lt hfree) (Nat.not_lt.mpr hfull)
    · cases hfree.symm.trans hused

/-- After an error that is not the first thing to happen, the id of the first participant is
both used and free. -/
theorem not_poolAgrees {i : ParticipantPtr S} (h : Prepared (resetParties s) (i :: done) s')
    (hcovers : PoolCovers s.game.participants) : ¬PoolAgrees s' := by
  intro hagrees
  have hfree : (s.participant i).isUsed = false := h.wasFree i List.mem_cons_self
  have hlisted : slotOctet i ∈ s'.game.participants.freeList.toList := by
    rw [h.freeList]
    exact hcovers.free i hfree
  obtain ⟨j, hij, hj⟩ := (hagrees.mem_iff _).mp hlisted
  rw [← slotOctet_injective hcovers.capacity (i := i) (j := j) hij,
    (h.waiting i List.mem_cons_self).1] at hj
  cases hj

/-- After an error at the first participant nothing happened to the pool, and there are no
parties. -/
theorem poolAgrees_iff_of_nil (h : Prepared (resetParties s) [] s')
    (hcovers : PoolCovers s.game.participants) : PoolAgrees s' ↔ EverybodyLeaves s := by
  have hparticipant : ∀ i, s'.participant i = s.participant i := fun i =>
    h.others i List.not_mem_nil
  have hfreeList : s'.game.participants.freeList = s.game.participants.freeList := h.freeList
  have hmem : (∀ octet, octet ∈ s'.game.participants.freeList.toList ↔
      ∃ i : ParticipantPtr S, octet = UInt8.ofNat i.val ∧ (s'.participant i).isUsed = false) ↔
      ∀ octet, octet ∈ s.game.participants.freeList.toList ↔
      ∃ i : ParticipantPtr S, octet = UInt8.ofNat i.val ∧ (s.participant i).isUsed = false := by
    simp only [hfreeList, hparticipant]
  constructor
  · intro hagrees
    refine ⟨hfreeList ▸ hagrees.nodup, hmem.mp hagrees.mem_iff, fun i hi => ?_⟩
    refine Decidable.byContradiction fun hstate => ?_
    rw [← hparticipant i] at hi hstate
    -- Somebody who is not leaving would need a party, and all were reset.
    obtain ⟨p, hp, -⟩ := hagrees.owner i hi hstate
    cases (h.unused p (Nat.zero_le _)).symm.trans hp
  · intro hleaves
    refine ⟨hfreeList ▸ hleaves.nodup, hmem.mpr hleaves.mem_iff, ?_, ?_⟩
    · have hcount : s'.game.participants.participantCount
          = s.game.participants.participantCount := h.count
      rw [hcount, hcovers.count]
      exact (Participants.usedCount_congr fun i => congrArg Participant.isUsed
        (hparticipant i)).symm
    · intro i hi hstate
      rw [hparticipant i] at hi hstate
      exact absurd (hleaves.leaving i hi) hstate

end Prepared

/-- After a migration that succeeded the pool agrees exactly when nobody was used before. -/
theorem poolAgrees_rebuilt_iff {s s' : Server E S} (hcovers : PoolCovers s.game.participants)
    {ids : List (ParticipantPtr S)} (h : Prepared (resetParties s) ids s')
    {freeList : CircularBuffer}
    (hlist : freeList.toList = (unlistedSlots S (partyInfos ids)).map slotOctet)
    (hcount : s'.game.participants.participantCount = s'.game.participants.usedCount) :
    PoolAgrees (s'.setParticipants { s'.game.participants with freeList }) ↔
      ∀ i, (s.participant i).isUsed = false := by
  have hcapacity := hcovers.capacity
  have hmem : ∀ octet, octet ∈ freeList.toList ↔ ∃ i, octet = slotOctet i ∧ i ∉ ids := by
    intro octet
    rw [hlist, List.mem_map]
    constructor
    · rintro ⟨i, hi, rfl⟩
      exact ⟨i, rfl, (mem_unlistedSlots hcapacity ids i).mp hi⟩
    · rintro ⟨i, rfl, hi⟩
      exact ⟨i, (mem_unlistedSlots hcapacity ids i).mpr hi, rfl⟩
  constructor
  · intro hagrees i
    -- A used participant is not on the list, so its id is free afterwards.
    refine Bool.eq_false_iff.mpr fun hused => ?_
    have hi : i ∉ ids := fun hi => by cases (h.wasFree i hi).symm.trans hused
    obtain ⟨j, hij, hj⟩ := (hagrees.mem_iff (slotOctet i)).mp ((hmem _).mpr ⟨i, rfl, hi⟩)
    obtain rfl := slotOctet_injective hcapacity (i := i) (j := j) hij
    have hsame : s'.participant i = s.participant i := h.others i hi
    have hj' : (s'.participant i).isUsed = false := hj
    rw [hsame, hused] at hj'
    cases hj'
  · intro hunused
    have hused : ∀ i, (s'.participant i).isUsed = false ↔ i ∉ ids := by
      intro i
      constructor
      · intro hi hmem
        cases hi.symm.trans (h.waiting i hmem).1
      · intro hi
        rw [h.others i hi]
        exact hunused i
    refine ⟨?_, ?_, hcount, ?_⟩
    · show freeList.toList.Nodup
      rw [hlist]
      exact ((List.nodup_finRange _).filter _).map fun _ _ => slotOctet_injective hcapacity
    · intro octet
      refine (hmem octet).trans (exists_congr fun i => and_congr_right fun _ => ?_)
      exact (hused i).symm
    · intro i hi _
      have hmem : i ∈ ids := by
        refine Decidable.byContradiction fun hnot => ?_
        cases ((hused i).mpr hnot).symm.trans hi
      obtain ⟨k, hk, rfl⟩ := List.getElem_of_mem hmem
      have hp := h.party ⟨k, Nat.lt_of_lt_of_le hk h.fits⟩ ids[k] (List.getElem?_eq_getElem hk)
      refine ⟨_, hp.isUsed, ?_⟩
      show _ ∈ (s'.party _).participantReferences
      rw [hp.participantReferences]
      exact List.mem_singleton_self _

/-- In every state that a server with a game reaches, and for every list of participants: host
migration returns. The pool then agrees with the parties exactly when nobody was used before,
the participants are different and there are enough party slots, or when the first
participant is refused, the free list was in order and everybody who is used is leaving. -/
theorem hostMigration_pool_iff {start s : Server E S} (hstart : StartsGame start)
    (hrun : Reaches Server.step (fun _ _ => True) start s) (ids : List (ParticipantPtr S))
    (uninitialized : Uninitialized S) :
    ∃ err s', nimbleServerHostMigration s (partyInfos ids) uninitialized = .ok (err, s') ∧
      (PoolAgrees s' ↔
        WholeListFits s ids ∨ (FirstRefused s ids ∧ EverybodyLeaves s)) := by
  have hcovers := poolCovers_reachable hstart hrun
  have hloop := (prepareParties_prepared hcovers.capacity uninitialized (resetParties s) ids []
    _ (Prepared.nil (resetParties_unused s))).and
    (prepareParties_covers uninitialized (partyInfos ids) (resetParties s) hcovers)
  have hresult : Ensures (nimbleServerHostMigration s (partyInfos ids) uninitialized)
      (fun r => PoolAgrees r.2 ↔
        WholeListFits s ids ∨ (FirstRefused s ids ∧ EverybodyLeaves s)) (fun _ => False) := by
    refine hostMigration_ensures hcovers.capacity
      (hloop.mono (fun _ h => h) (fun _ h => h.1)) ?_ ?_
    · rintro r ⟨hended, -⟩ hneg
      rcases hended with ⟨hzero, -⟩ | ⟨-, done, i, rest, hids, hprepared, hrefused⟩
      · omega
      -- A refusal rules out the first case.
      have hnotWhole : ¬WholeListFits s ids := by
        rintro ⟨hunused, hnodup, hfits⟩
        exact hprepared.not_refused hunused (hcovers.count_eq_zero hunused) hnodup hfits hids
          hrefused
      cases done with
      | nil =>
        rw [hprepared.poolAgrees_iff_of_nil hcovers]
        have hfirst : FirstRefused s ids := by
          refine ⟨i, rest, hids, ?_⟩
          rcases hrefused with hall | hfull | hused
          · refine .inl (Nat.eq_zero_of_not_pos fun hpos => ?_)
            cases (hprepared.unused ⟨0, hpos⟩ (Nat.zero_le _)).symm.trans (hall ⟨0, hpos⟩)
          · have hcount : r.2.game.participants.participantCount
                = s.game.participants.participantCount := hprepared.count
            exact .inr (.inl (hcount ▸ hfull))
          · have hsame : r.2.participant i = s.participant i :=
              hprepared.others i List.not_mem_nil
            exact .inr (.inr (hsame ▸ hused))
        simp [hnotWhole, hfirst]
      -- Some parties were prepared, and then the free list was not rebuilt.
      | cons j more =>
        have hfront : j :: more <+: ids := ⟨i :: rest, hids.symm⟩
        have hnotFirst := hprepared.not_firstRefused hcovers (List.cons_ne_nil j more) hfront
        simp [hnotWhole, hnotFirst, hprepared.not_poolAgrees hcovers]
    · rintro r freeList ⟨hended, hpool⟩ hpos hlist
      rcases hended with ⟨-, hprepared⟩ | ⟨hneg, -⟩
      · -- The whole list was prepared.
        rw [poolAgrees_rebuilt_iff hcovers hprepared hlist hpool.covers.count]
        constructor
        · intro hunused
          exact .inl ⟨hunused, hprepared.nodup, hprepared.fits⟩
        · rintro (⟨hunused, -, -⟩ | ⟨hfirst, -⟩)
          · exact hunused
          · obtain ⟨first, rest, hids, -⟩ := id hfirst
            exact absurd hfirst (hprepared.not_firstRefused hcovers (by rw [hids]; simp)
              (List.prefix_refl ids))
      · omega
  obtain ⟨⟨err, s'⟩, hmigrate, hiff⟩ := hresult.exists_ok
  exact ⟨err, s', hmigrate, hiff⟩

/-- A new game for two clients that takes over the second participant. -/
theorem hostMigration_pool_iff_newGame :
    ∃ start s' : Server plainExternal (plainSetup 2), StartsGame start ∧
      ∃ err, nimbleServerHostMigration start (partyInfos (S := plainSetup 2) [⟨1, by decide⟩])
        (zeroLocals _) = .ok (err, s') ∧ PoolAgrees s' := by
  obtain ⟨start, -, hstart, -, -⟩ := exists_run Server.step (fun _ _ => True) (fun _ => True)
    (plainGame 2) [] (by decide +kernel)
  have hgame := startsGame_of_blankGame hstart
  obtain ⟨err, s', hmigrate, hiff⟩ := hostMigration_pool_iff hgame .refl [⟨1, by decide⟩]
    (zeroLocals _)
  refine ⟨start, s', hgame, err, hmigrate, hiff.mpr (.inl ⟨?_, by decide, by decide⟩)⟩
  exact hgame.participant_unused

/-- A client joined and is participant 0. Then the game takes over participant 1. The
migration succeeds, and the id of the first participant is free although it is used. -/
theorem hostMigration_frees_used_participant :
    ∃ start s : Server plainExternal (plainSetup 2), StartsGame start ∧
      Reaches Server.step (fun s op => s.Enabled op) start s ∧
      ∃ s', nimbleServerHostMigration s (partyInfos (S := plainSetup 2) [⟨1, by decide⟩])
        (zeroLocals _) = .ok (0, s') ∧ ¬PoolAgrees s' := by
  obtain ⟨start, s, hstart, hrun, hused, hmigrate⟩ :=
    exists_run Server.step (fun s op => s.Enabled op)
      (fun s : Server plainExternal (plainSetup 2) =>
        (s.participant ⟨0, by decide⟩).isUsed = true ∧
        (nimbleServerHostMigration s (partyInfos (S := plainSetup 2) [⟨1, by decide⟩])
          (zeroLocals _)).map (fun r => (r.1, r.2.game.participants.freeList.toList,
            (r.2.participant ⟨0, by decide⟩).isUsed)) = .ok (0, [0], true))
      (plainGame 2) [.receive 0, .join 0 onePlayer (zeroLocals _)] (by decide +kernel)
  obtain ⟨⟨err, s'⟩, hs', hresult⟩ := map_eq_ok.mp hmigrate
  obtain ⟨rfl, hfree, hused'⟩ : err = 0 ∧ s'.game.participants.freeList.toList = [0] ∧
      (s'.participant ⟨0, by decide⟩).isUsed = true := by simpa using hresult
  refine ⟨start, s, startsGame_of_blankGame hstart, hrun, s', hs', fun hagrees => ?_⟩
  obtain ⟨i, hi, hunused⟩ := (hagrees.mem_iff 0).mp (by rw [hfree]; exact List.mem_singleton_self 0)
  have hzero : ∀ i : ParticipantPtr (plainSetup 2), 0 = UInt8.ofNat i.val → i = ⟨0, by decide⟩ := by
    decide
  rw [hzero i hi, hused'] at hunused
  cases hunused

end NimbleServer
