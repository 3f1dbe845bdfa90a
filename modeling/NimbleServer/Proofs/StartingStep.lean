import NimbleServer.Proofs.HostMigration
import NimbleServer.Proofs.Storing

/-!
# `NimbleServer.Proofs.StartingStep`: the step that a new participant starts with

A participant enters the game by a join request, or host migration prepares it for a client
that comes later. Both re-initialise its buffer from the id of the next authoritative step.
A client sends its predicted steps from that id on, and they are stored only when the buffer
expects exactly this id (`takesFrom_iff`): a lower id is dropped as too old and a higher one
is a gap.

A join passes the id. Host migration passes the id minus one, so a prepared participant
expects the step that was composed last, or `0xffffffff` when there was none. Its client
cannot contribute from the next step on, and `starting_step_iff` says that the two ways agree
only if host migration prepares nobody: the first id it lists is refused, or none is listed.
-/

set_option autoImplicit false

namespace NimbleServer

open NimbleServer.Lib

variable {E : External} {S : Setup}

/-! ### Steps from an id on -/

/-- The buffer is empty and expects the id. -/
structure Expects (steps : E.Steps) (id : StepId) : Prop where
  readId : E.expectedReadId steps = id
  writeId : E.expectedWriteId steps = id

/-- What a client sends for the participant from the id on is stored. -/
structure TakesFrom (s : Server E S) (i : ParticipantPtr S) (id : StepId) : Prop where
  -- Of the steps that can be read none is dropped as too old.
  stored : ∀ count inStream added rest s',
    deserializeStepsOfParticipant i id count 0 0 inStream s = (.ok added, rest, s') →
      added = count
  -- If one cannot be read it is not because of its id: the buffer expects it.
  noGap : ∀ count inStream code rest s',
    deserializeStepsOfParticipant i id count 0 0 inStream s = (.error code, rest, s') →
      ∃ index < count,
        E.expectedWriteId (s'.participant i).steps = id + UInt32.ofNat index ∧
        ∃ octets, (E.nbsStepsInSerializeSinglePredictedStep octets (id + UInt32.ofNat index)
          (s'.participant i).steps).1 = code

section Laws

variable [LawfulSteps E]

/-- A buffer that was re-initialised from an id expects this id. -/
theorem expects_reInit (steps : E.Steps) (id : StepId) :
    Expects (E.nbsStepsReInit steps id) id where
  readId := expectedReadId_reInit steps id
  writeId := LawfulSteps.reInit_writeId steps id

/-- From the expected id on, each step that is read is stored. Induction on the steps that
remain; the buffer expects the id of the first of them. -/
theorem deserializeSteps_inOrder (i : ParticipantPtr S) (id : StepId) :
    ∀ (remaining index total : Nat) (inStream : InStream) (s : Server E S) result rest s',
      E.expectedWriteId (s.participant i).steps = id + UInt32.ofNat index →
      deserializeStepsOfParticipant i id remaining index total inStream s
        = (result, rest, s') →
      (∀ added, result = .ok added → added = total + remaining) ∧
      ∀ code, result = .error code → ∃ failed, failed < index + remaining ∧
        E.expectedWriteId (s'.participant i).steps = id + UInt32.ofNat failed ∧
        ∃ octets, (E.nbsStepsInSerializeSinglePredictedStep octets (id + UInt32.ofNat failed)
          (s'.participant i).steps).1 = code := by
  intro remaining
  induction remaining with
  | zero =>
    intro index total inStream s result rest s' hid hread
    cases hread
    refine ⟨?_, by rintro code ⟨⟩⟩
    rintro added ⟨⟩
    rfl
  | succ remaining ih =>
    intro index total inStream s result rest s' hid hread
    have houtcome := deserializeSingleStep_outcome s i (id + UInt32.ofNat index) inStream
    have hresult : (nimbleServerParticipantDeserializeSingleStep s i
        (id + UInt32.ofNat index) inStream).1
        = (E.nbsStepsInSerializeSinglePredictedStep inStream (id + UInt32.ofNat index)
          (s.participant i).steps).1 := rfl
    simp only [deserializeStepsOfParticipant] at hread
    generalize nimbleServerParticipantDeserializeSingleStep s i (id + UInt32.ofNat index)
      inStream = single at hread houtcome hresult
    obtain ⟨added, stream, s1⟩ := single
    dsimp only at hread houtcome hresult
    cases houtcome with
    | failed code hcode =>
      rw [if_pos hcode] at hread
      cases hread
      refine ⟨by rintro added ⟨⟩, ?_⟩
      rintro code' ⟨⟩
      exact ⟨index, by omega, hid, inStream, hresult.symm⟩
    | ignored hlt =>
      -- The buffer expects this very id, so it is not past it.
      rw [hid] at hlt
      exact absurd hlt (UInt32.lt_irrefl _)
    | stored steps hstored hmore =>
      rw [if_neg (by decide)] at hread
      have hnext : E.expectedWriteId ((storeStep s i (id + UInt32.ofNat index)
          steps).participant i).steps = id + UInt32.ofNat (index + 1) := by
        rw [participant_storeStep, if_pos rfl]
        show E.expectedWriteId steps = _
        have hsub := hmore.writeId_sub_one
        rw [hid, UInt32.sub_eq_iff_eq_add] at hsub
        rw [hsub, UInt32.ofNat_add, UInt32.add_assoc]
        rfl
      obtain ⟨hok, herror⟩ := ih (index + 1) _ stream _ result rest s' hnext hread
      refine ⟨fun added hadded => ?_, fun code hcode => ?_⟩
      · have hcount := hok added hadded
        show added = total + (remaining + 1)
        have : (1 : Int).toNat = 1 := rfl
        omega
      · obtain ⟨failed, hfailed, hrest⟩ := herror code hcode
        exact ⟨failed, by omega, hrest⟩

/-- A client can send its steps from an id on exactly when the buffer expects it. -/
theorem takesFrom_iff (s : Server E S) (i : ParticipantPtr S) (id : StepId) :
    TakesFrom s i id ↔ E.expectedWriteId (s.participant i).steps = id := by
  have hzero : id + UInt32.ofNat 0 = id := UInt32.add_zero id
  constructor
  · -- One step, from an empty stream, is enough to tell.
    intro h
    have houtcome := deserializeSingleStep_outcome s i (id + UInt32.ofNat 0) []
    rcases hone : deserializeStepsOfParticipant i id 1 0 0 [] s with ⟨result, rest, s'⟩
    have hread := hone
    simp only [deserializeStepsOfParticipant] at hread
    generalize nimbleServerParticipantDeserializeSingleStep s i (id + UInt32.ofNat 0) []
      = single at hread houtcome
    obtain ⟨added, stream, s1⟩ := single
    dsimp only at hread houtcome
    cases houtcome with
    | failed code hcode =>
      rw [if_pos hcode] at hread
      cases hread
      obtain ⟨index, hindex, hid, -⟩ := h.noGap _ _ _ _ _ hone
      rw [Nat.lt_one_iff.mp hindex, hzero] at hid
      exact hid
    | ignored hlt =>
      rw [if_neg (by decide)] at hread
      cases hread
      cases h.stored _ _ _ _ _ hone
    | stored steps hid hmore => rw [← hid, hzero]
  · intro hid
    have hrun := fun count inStream => deserializeSteps_inOrder i id count 0 0 inStream s
    constructor
    · intro count inStream added rest s' hread
      have hadded := (hrun count inStream _ _ _ (hid.trans hzero.symm) hread).1 added rfl
      omega
    · intro count inStream code rest s' hread
      obtain ⟨index, hindex, hfailed⟩ :=
        (hrun count inStream _ _ _ (hid.trans hzero.symm) hread).2 code rfl
      exact ⟨index, by omega, hfailed⟩

end Laws

/-! ### New participants -/

/-- The participant is used now and was not before. -/
def Admitted (pool pool' : Participants E S) (i : ParticipantPtr S) : Prop :=
  (pool.get i).isUsed = false ∧ (pool'.get i).isUsed = true

/-- The participant starts with the step: its buffer is empty and expects it, and what its
client sends from there on is stored. -/
structure StartsAt (s : Server E S) (i : ParticipantPtr S) (id : StepId) : Prop where
  expects : Expects (s.participant i).steps id
  takes : TakesFrom s i id

/-- The buffer decides. -/
theorem startsAt_of_expects [LawfulSteps E] {s : Server E S} {i : ParticipantPtr S} {id : StepId}
    (h : Expects (s.participant i).steps id) : StartsAt s i id :=
  ⟨h, (takesFrom_iff s i id).mpr h.writeId⟩

/-- Every new participant has an empty buffer that expects the id. -/
def NewExpect (id : StepId) (start pool : Participants E S) : Prop :=
  ∀ i, Admitted start pool i → Expects (pool.get i).steps id

/-- Nobody is new. -/
theorem newExpect_refl (id : StepId) (pool : Participants E S) : NewExpect id pool pool := by
  rintro i ⟨hunused, hused⟩
  cases hunused.symm.trans hused

/-- A participant that is taken with a new buffer. -/
theorem NewExpect.take [LawfulSteps E] {id : StepId} {start pool pool' : Participants E S}
    (h : NewExpect id start pool) {i : ParticipantPtr S} {x : Participant E S}
    (hsteps : x.steps = E.nbsStepsReInit (pool.get i).steps id)
    (hget : ∀ j, pool'.get j = if i = j then x else pool.get j) : NewExpect id start pool' := by
  rintro j ⟨hunused, hused⟩
  rw [hget] at hused ⊢
  split
  · rw [hsteps]
    exact expects_reInit _ id
  · rename_i hij
    rw [if_neg hij] at hused
    exact h j ⟨hunused, hused⟩

/-! ### Joining -/

/-- A participant that joins expects the next step to be composed. -/
theorem reqGameJoin_newExpect [LawfulSteps E] (s : Server E S) (t : ConnectionPtr)
    (inStream : InStream) (outStream : OutStream) (uninitialized : Uninitialized S) :
    Ensures (nimbleServerReqGameJoin s t inStream outStream uninitialized)
      (fun r => NewExpect (E.expectedWriteId s.game.authoritativeSteps) s.game.participants
        r.2.2.2.game.participants) (fun _ => True) := by
  unfold nimbleServerReqGameJoin
  split
  · exact newExpect_refl _ _
  · rename_i request consumed hdecoded
    have hjoin : Ensures (joinGame s t request uninitialized)
        (fun r => NewExpect (E.expectedWriteId s.game.authoritativeSteps) s.game.participants
          r.2.game.participants) (fun _ => True) := by
      refine (joinGame_ensures s t request uninitialized).mono ?_ (fun _ _ => trivial)
      intro r hr
      cases hr with
      | noPlace code hplace => exact newExpect_refl _ _
      | sessionFull code p hplace => exact newExpect_refl _ _
      | found p hcount hmatch => exact newExpect_refl _ _
      | unassigned p q htype hfind hnamed hcount hpointer => exact newExpect_refl _ _
      | rejoined p htype hfind hnamed hcount => exact newExpect_refl _ _
      -- Only a new party takes a participant.
      | created p i participants htype hfind hplace hjoin =>
        obtain ⟨-, x, -, -, -, hsteps, hget, -⟩ := hjoin.taken
        exact (newExpect_refl _ _).take hsteps hget
    refine hjoin.bind ?_
    rintro ⟨result, s'⟩ hs'
    cases result with
    | error code => exact hs'
    | ok p => exact hs'

/-! ### Host migration -/

/-- So does a participant that host migration prepares, with the id it is given. -/
theorem NewExpect.prepare [LawfulSteps E] {id : StepId} {start pool : Participants E S}
    (h : NewExpect id start pool) {participantId : UInt8} {p : PartyPtr S}
    {r : Except Int (ParticipantPtr S) × Participants E S}
    (hr : ParticipantsPrepareOutcome pool participantId p id r) : NewExpect id start r.2 := by
  cases hr with
  | full hfull => exact h
  | used i hid hroom hused => exact h
  | prepared i hid hroom hfree => exact h.take rfl fun j => Participants.get_set pool i j _

/-- The rule for the loop of host migration and its pool: what preparing one participant
keeps. The authoritative steps stay, so every participant gets the same id. -/
theorem prepareParties_pool (inv : Participants E S → Prop) (authoritativeSteps : E.Steps)
    (hprepare : ∀ pool participantId p r, inv pool →
      ParticipantsPrepareOutcome pool participantId p
        (E.expectedWriteId authoritativeSteps - 1) r → inv r.2)
    (uninitialized : Uninitialized S) :
    ∀ (infos : List LocalPartyInfo) (s : Server E S),
      s.game.authoritativeSteps = authoritativeSteps → inv s.game.participants →
      Ensures (prepareParties uninitialized infos s) (fun r => inv r.2.game.participants)
        (fun _ => True) := by
  intro infos
  induction infos with
  | nil =>
    intro s _ h
    exact h
  | cons info infos ih =>
    intro s hsteps h
    unfold prepareParties
    refine Ensures.bind_of (fun r => r.2.game.authoritativeSteps = authoritativeSteps ∧
      inv r.2.game.participants) ?_ ?_
    · simp only [nimbleServerLocalPartiesPrepare, findFreePartyPlaceButDoNotReserveItYet]
      cases firstFreeParty s with
      | none => exact ⟨hsteps, h⟩
      | some p =>
        refine ((prepareParticipants_ensures inv p _ (fun pool participantId r hpool hr =>
          hprepare pool participantId p r hpool (hsteps ▸ hr)) info.participantIds []
          s.game.participants h).mono (fun _ h => h) (fun _ _ => trivial)).bind ?_
        rintro ⟨result, pool⟩ hpool
        cases result with
        | error code => exact ⟨hsteps, hpool⟩
        | ok created =>
          dsimp only
          split
          · trivial
          · exact ⟨hsteps, hpool⟩
    · rintro ⟨err, s1⟩ ⟨hsteps1, h1⟩
      dsimp only
      split
      · exact h1
      · exact ih s1 hsteps1 h1

/-- The pool has no place for the participant: it is full, or the participant is used. -/
def RefusedId (pool : Participants E S) (participantId : UInt8) : Prop :=
  S.maxParticipantCount ≤ pool.participantCount ∨
    ∃ i : ParticipantPtr S, participantId.toNat = i.val ∧ (pool.get i).isUsed = true

/-- The first of the ids is refused, or there is none. -/
def FirstListedRefused (pool : Participants E S) (ids : List UInt8) : Prop :=
  ∀ participantId, ids.head? = some participantId → RefusedId pool participantId

/-- The ids after the first do not matter. -/
theorem firstListedRefused_append {pool : Participants E S} {ids : List UInt8} {id : UInt8}
    (hid : ids.head? = some id) (more : List UInt8) :
    FirstListedRefused pool (ids ++ more) ↔ RefusedId pool id := by
  unfold FirstListedRefused
  rw [List.head?_append, hid]
  simp

/-- How the preparation of the participants of one party ends. -/
inductive PrepareFirst (pool : Participants E S) (ids : List UInt8) :
    Except Int (List (ParticipantPtr S)) × Participants E S → Prop
  | nobody (hids : ids = []) : PrepareFirst pool ids (.ok [], pool)
  | refused (id : UInt8) (hid : ids.head? = some id) (hrefused : RefusedId pool id) (code : Int)
      (hcode : code < 0) : PrepareFirst pool ids (.error code, pool)
  | taken (id : UInt8) (hid : ids.head? = some id) (hfree : ¬RefusedId pool id)
      (i : ParticipantPtr S) (result : Except Int (List (ParticipantPtr S)))
      (pool' : Participants E S) (hnew : Admitted pool pool' i) :
      PrepareFirst pool ids (result, pool')

/-- The first id of a party decides whether anybody is taken: it is the first to be prepared, and
an error ends the loop. -/
theorem prepareParticipants_first (p : PartyPtr S) (stepId : StepId) (ids : List UInt8)
    (pool : Participants E S) :
    Ensures (prepareParticipants p stepId ids [] pool) (PrepareFirst pool ids)
      (fun _ => True) := by
  cases ids with
  | nil => exact .nobody rfl
  | cons id ids =>
    unfold prepareParticipants
    refine Ensures.bind_of (ParticipantsPrepareOutcome pool id p stepId)
      ((nimbleServerParticipantsPrepare_ensures pool id p stepId).mono (fun _ h => h)
        (fun _ _ => trivial)) ?_
    intro r hr
    cases hr with
    | full hfull => exact .refused id rfl (.inl hfull) _ (by decide)
    | used i hid hroom hused => exact .refused id rfl (.inr ⟨i, hid, hused⟩) _ (by decide)
    | prepared i hid hroom hfree =>
      have hnot : ¬RefusedId pool id := by
        rintro (hfull | ⟨j, hj, hused⟩)
        · omega
        · obtain rfl : i = j := Fin.ext (hid.symm.trans hj)
          cases hfree.symm.trans hused
      -- The others of the party do not change the first one's flag.
      refine (prepareParticipants_listed p stepId ids _ (preparedPool pool i id p stepId)).mono
        ?_ (fun _ h => h)
      rintro ⟨result, pool'⟩ ⟨hgrows, -⟩
      refine .taken id rfl hnot i result pool' ⟨hfree, hgrows i ?_⟩
      show ((pool.set i _).get i).isUsed = true
      rw [Participants.get_set_self]

/-- The first `count` parties are used, and no others. -/
def PartiesTaken (s : Server E S) (count : Nat) : Prop :=
  ∀ p : PartyPtr S, (s.party p).isUsed = decide (p.val < count)

/-- The next party takes the slot after them. -/
theorem PartiesTaken.firstFreeParty {s : Server E S} {count : Nat} (h : PartiesTaken s count)
    {p : PartyPtr S} (hplace : firstFreeParty s = some p) : p.val = count :=
  firstFreeParty_slot (fun q hq => (h q).trans (decide_eq_true hq))
    (fun q hq => (h q).trans (decide_eq_false (Nat.not_lt.mpr hq))) hplace

/-- Then there is one more. -/
theorem PartiesTaken.prepareParty {s : Server E S} {p : PartyPtr S} (h : PartiesTaken s p.val)
    (participants : Participants E S) (i : ParticipantPtr S) :
    PartiesTaken (NimbleServer.prepareParty s p participants i) (p.val + 1) := by
  intro q
  rw [party_prepareParty]
  split
  · rename_i hpq
    show true = decide (q.val < p.val + 1)
    rw [← hpq]
    exact (decide_eq_true (Nat.lt_succ_self _)).symm
  · rename_i hpq
    have hval : p.val ≠ q.val := fun hval => hpq (Fin.ext hval)
    rw [h q, decide_eq_decide]
    omega

/-- Somebody is taken unless the first id is refused. Only as many infos count as there are
free parties, because each info takes one also when it lists nobody. Induction on the
infos. -/
theorem prepareParties_first (uninitialized : Uninitialized S) :
    ∀ (infos : List LocalPartyInfo) (count : Nat) (s : Server E S), PartiesTaken s count →
      Ensures (prepareParties uninitialized infos s)
        (fun r => (∃ i, Admitted s.game.participants r.2.game.participants i) ↔
          ¬FirstListedRefused s.game.participants
            (listedIds (infos.take (S.maxConnectionCount - count)))) (fun _ => True) := by
  have hnobody : ∀ (pool : Participants E S) (ids : List UInt8), FirstListedRefused pool ids →
      ((∃ i, Admitted pool pool i) ↔ ¬FirstListedRefused pool ids) := by
    intro pool ids hrefused
    constructor
    · rintro ⟨i, hunused, hused⟩
      cases hunused.symm.trans hused
    · exact fun h => absurd hrefused h
  intro infos
  induction infos with
  | nil =>
    intro count s _
    rw [List.take_nil]
    exact hnobody _ _ (by rintro _ ⟨⟩)
  | cons info infos ih =>
    intro count s htaken
    unfold prepareParties
    simp only [nimbleServerLocalPartiesPrepare, findFreePartyPlaceButDoNotReserveItYet]
    cases hplace : firstFreeParty s with
    | none =>
      -- Every party is used, so no info counts.
      have hfull : S.maxConnectionCount - count = 0 := by
        refine Nat.sub_eq_zero_of_le (Nat.not_lt.mp fun hlt => ?_)
        have hused := firstFreeParty_none hplace ⟨count, hlt⟩
        rw [htaken ⟨count, hlt⟩] at hused
        exact absurd (of_decide_eq_true hused) (Nat.lt_irrefl _)
      rw [hfull]
      exact hnobody _ _ (by rintro _ ⟨⟩)
    | some p =>
      obtain rfl := htaken.firstFreeParty hplace
      have htake : listedIds ((info :: infos).take (S.maxConnectionCount - p.val))
          = info.participantIds
            ++ listedIds (infos.take (S.maxConnectionCount - (p.val + 1))) := by
        have hroom : S.maxConnectionCount - p.val = S.maxConnectionCount - (p.val + 1) + 1 := by
          have := p.isLt
          omega
        rw [hroom, List.take_succ_cons]
        rfl
      rw [htake]
      -- Once somebody is taken the rest of the loop does not matter.
      have hstays : ∀ (err : Int) (s1 : Server E S) i,
          Admitted s.game.participants s1.game.participants i →
          Ensures (if err < 0 then pure (err, s1) else prepareParties uninitialized infos s1)
            (fun r => Admitted s.game.participants r.2.game.participants i) (fun _ => True) := by
        rintro err s1 i ⟨hunused, hused⟩
        split
        · exact ⟨hunused, hused⟩
        · refine (prepareParties_pool (fun pool => (pool.get i).isUsed = true) _
            (fun _ _ _ _ h hr => hr.usedGrows i h) uninitialized infos s1 rfl hused).mono ?_
            (fun _ h => h)
          exact fun r hr => ⟨hunused, hr⟩
      rw [bind_assoc]
      refine (prepareParticipants_first p _ info.participantIds s.game.participants).bind ?_
      intro r hr
      cases hr with
      | nobody hids =>
        rw [hids, List.nil_append]
        dsimp only [List.head?_nil, Option.none_or]
        cases uninitialized.createdParticipant with
        | none => trivial
        | some i => exact ih (p.val + 1) _ (htaken.prepareParty s.game.participants i)
      | refused id hid hrefused code hcode =>
        show Ensures (if code < 0 then pure (code, _) else _) _ _
        rw [if_pos hcode]
        exact hnobody _ _ ((firstListedRefused_append hid _).mpr hrefused)
      | taken id hid hfree i result pool' hnew =>
        rw [firstListedRefused_append hid]
        have hend : ∀ r : Int × Server E S,
            Admitted s.game.participants r.2.game.participants i →
            ((∃ i, Admitted s.game.participants r.2.game.participants i) ↔
              ¬RefusedId s.game.participants id) :=
          fun r hr => ⟨fun _ => hfree, fun _ => ⟨i, hr⟩⟩
        cases result with
        | error code => exact (hstays code _ i hnew).mono hend (fun _ h => h)
        | ok created =>
          dsimp only
          split
          · trivial
          · exact (hstays 0 _ i hnew).mono hend (fun _ h => h)

/-- The participants after host migration are those at the end of its loop. Afterwards only
the free list is rebuilt. -/
theorem hostMigration_loop {s s' : Server E S} {infos : List LocalPartyInfo}
    {uninitialized : Uninitialized S} {err : Int}
    (h : nimbleServerHostMigration s infos uninitialized = .ok (err, s')) :
    ∃ r, prepareParties uninitialized infos (resetParties s) = .ok r ∧
      ∀ i, s'.participant i = r.2.participant i := by
  obtain ⟨⟨err', s1⟩, hloop, hrest⟩ := bind_eq_ok.mp h
  refine ⟨_, hloop, ?_⟩
  dsimp only at hrest
  split at hrest
  · cases hrest
    exact fun _ => rfl
  · obtain ⟨freeList, -, hrest⟩ := bind_eq_ok.mp hrest
    cases hrest
    exact fun _ => rfl

/-- For every state, and so for every id `w` of the next step to be composed: a participant
that joins starts with `w`. A participant that host migration prepares starts with `w - 1`,
so all of them start with `w` if and only if there is none, because the first id that is
listed is refused or no id is listed. -/
theorem starting_step_iff [LawfulSteps E] (s : Server E S) :
    (∀ t inStream outStream uninitialized result rest reply s',
      nimbleServerReqGameJoin s t inStream outStream uninitialized
        = .ok (result, rest, reply, s') →
      ∀ i, Admitted s.game.participants s'.game.participants i →
        StartsAt s' i (E.expectedWriteId s.game.authoritativeSteps)) ∧
    ∀ infos uninitialized err s',
      nimbleServerHostMigration s infos uninitialized = .ok (err, s') →
      (∀ i, Admitted s.game.participants s'.game.participants i →
        StartsAt s' i (E.expectedWriteId s.game.authoritativeSteps - 1)) ∧
      ((∀ i, Admitted s.game.participants s'.game.participants i →
          StartsAt s' i (E.expectedWriteId s.game.authoritativeSteps)) ↔
        FirstListedRefused s.game.participants
          (listedIds (infos.take S.maxConnectionCount))) := by
  constructor
  · intro t inStream outStream uninitialized result rest reply s' hjoin i hnew
    exact startsAt_of_expects
      ((reqGameJoin_newExpect s t inStream outStream uninitialized).of_ok hjoin i hnew)
  · intro infos uninitialized err s' hmigrate
    obtain ⟨r, hloop, hsame⟩ := hostMigration_loop hmigrate
    have hadmitted : ∀ i, Admitted s.game.participants s'.game.participants i ↔
        Admitted s.game.participants r.2.game.participants i := by
      intro i
      unfold Admitted
      rw [show s'.game.participants.get i = r.2.game.participants.get i from hsame i]
    have hexpect := (prepareParties_pool
      (NewExpect (E.expectedWriteId s.game.authoritativeSteps - 1) s.game.participants)
      s.game.authoritativeSteps (fun _ _ _ _ h hr => h.prepare hr) uninitialized infos
      (resetParties s) rfl (newExpect_refl _ _)).of_ok hloop
    have hfirst : (∃ i, Admitted s.game.participants r.2.game.participants i) ↔
        ¬FirstListedRefused s.game.participants (listedIds (infos.take S.maxConnectionCount)) :=
      (prepareParties_first uninitialized infos 0 (resetParties s) fun p =>
        (resetParties_unused s p).trans (decide_eq_false (Nat.not_lt_zero _)).symm).of_ok hloop
    have hbefore : ∀ i, Admitted s.game.participants s'.game.participants i →
        Expects (s'.participant i).steps
          (E.expectedWriteId s.game.authoritativeSteps - 1) := by
      intro i hi
      rw [hsame i]
      exact hexpect i ((hadmitted i).mp hi)
    refine ⟨fun i hi => startsAt_of_expects (hbefore i hi), ?_⟩
    -- The two ids differ, so nobody can start with both.
    have hnobody : (∀ i, Admitted s.game.participants s'.game.participants i →
        StartsAt s' i (E.expectedWriteId s.game.authoritativeSteps)) ↔
        ¬∃ i, Admitted s.game.participants s'.game.participants i := by
      constructor
      · rintro h ⟨i, hi⟩
        have hboth := (hbefore i hi).writeId.symm.trans (h i hi).expects.writeId
        rw [UInt32.sub_eq_iff_eq_add] at hboth
        simp at hboth
      · exact fun h i hi => absurd ⟨i, hi⟩ h
    rw [hnobody, exists_congr hadmitted, hfirst, Classical.not_not]

/-- A client joins a game that starts at step 200. -/
theorem starting_step_iff_joinLate :
    ∃ start s : Server plainExternal (plainSetup 2), StartsGame start ∧
      Reaches Server.step (fun s op => s.Enabled op) start s ∧
      ∃ rest reply s', nimbleServerReqGameJoin s 0 (joinOctets 0 0 1)
        (plainExternal.fldOutStreamInit 100) (zeroLocals _) = .ok (0, rest, reply, s') ∧
      Admitted s.game.participants s'.game.participants ⟨0, by decide⟩ ∧
      StartsAt s' ⟨0, by decide⟩ 200 := by
  obtain ⟨start, s, hstart, hrun, hnext, hunused, hjoin⟩ :=
    exists_run Server.step (fun s op => s.Enabled op)
      (fun s : Server plainExternal (plainSetup 2) =>
        plainExternal.expectedWriteId s.game.authoritativeSteps = 200 ∧
        (s.game.participants.get ⟨0, by decide⟩).isUsed = false ∧
        (nimbleServerReqGameJoin s 0 (joinOctets 0 0 1) (plainExternal.fldOutStreamInit 100)
          (zeroLocals _)).toOption.any (fun r => r.1 = 0 &&
            (r.2.2.2.game.participants.get ⟨0, by decide⟩).isUsed) = true)
      (plainGame 2) [.reInitWithGame 200, .receive 0] (by decide +kernel)
  obtain ⟨⟨result, rest, reply, s'⟩, hs', hcheck⟩ := exists_ok_of_any hjoin
  obtain ⟨rfl, hused⟩ : result = 0 ∧
      (s'.game.participants.get ⟨0, by decide⟩).isUsed = true := by simpa using hcheck
  refine ⟨start, s, startsGame_of_blankGame hstart, hrun, rest, reply, s', hs',
    ⟨hunused, hused⟩, ?_⟩
  rw [← hnext]
  exact (starting_step_iff s).1 _ _ _ _ _ _ _ _ hs' _ ⟨hunused, hused⟩

/-- A game whose next step is `w` takes over participant 1. The participant does not start
with `w`, and `result` is what becomes of a step `w` that its client sends. -/
def MigratesAt (w : StepId) (result : Int) : Prop :=
  ∃ start s : Server plainExternal (plainSetup 2), StartsGame start ∧
    Reaches Server.step (fun s op => s.Enabled op) start s ∧
    plainExternal.expectedWriteId s.game.authoritativeSteps = w ∧
    ∃ s', nimbleServerHostMigration s [{ participantIds := [1] }] (zeroLocals _) = .ok (0, s') ∧
      Admitted s.game.participants s'.game.participants ⟨1, by decide⟩ ∧
      ¬StartsAt s' ⟨1, by decide⟩ w ∧
      (nimbleServerParticipantDeserializeSingleStep s' ⟨1, by decide⟩ w [1, 9]).1 = result

/-- The check of one run. -/
theorem migratesAt_of_run (w : StepId) (result : Int) (ops : List (Op (plainSetup 2)))
    (h : ((plainGame 2).toOption.bind fun start =>
      runChecked Server.step (fun s op => decide (s.Enabled op)) start ops).any (fun s => decide
        (plainExternal.expectedWriteId s.game.authoritativeSteps = w ∧
        (s.game.participants.get ⟨1, by decide⟩).isUsed = false ∧
        (nimbleServerHostMigration s [{ participantIds := [1] }]
          (zeroLocals _)).toOption.any (fun r => r.1 = 0 &&
            (r.2.game.participants.get ⟨1, by decide⟩).isUsed &&
            plainExternal.expectedWriteId (r.2.participant ⟨1, by decide⟩).steps ≠ w &&
            (nimbleServerParticipantDeserializeSingleStep r.2 ⟨1, by decide⟩ w [1, 9]).1
              = result) = true)) = true) : MigratesAt w result := by
  obtain ⟨start, s, hstart, hrun, hnext, hunused, hmigrate⟩ :=
    exists_run Server.step (fun s op => s.Enabled op) _ (plainGame 2) ops h
  obtain ⟨⟨err, s'⟩, hs', hcheck⟩ := exists_ok_of_any hmigrate
  simp only [Bool.and_eq_true, decide_eq_true_eq] at hcheck
  obtain ⟨⟨⟨rfl, hused⟩, hne⟩, hresult⟩ := hcheck
  exact ⟨start, s, startsGame_of_blankGame hstart, hrun, hnext, s', hs', ⟨hunused, hused⟩,
    fun h => hne h.expects.writeId, hresult⟩

/-- At step 200 the client's first step is rejected as a gap, at step 0 it is dropped as too
old. -/
theorem migrated_step_not_stored : MigratesAt 200 (-4) ∧ MigratesAt 0 0 :=
  ⟨migratesAt_of_run 200 (-4) [.reInitWithGame 200] (by decide +kernel),
    migratesAt_of_run 0 0 [] (by decide +kernel)⟩

end NimbleServer
