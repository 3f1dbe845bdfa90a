import NimbleServer.Model.PlainServer

/-!
# `NimbleServer.Proofs.Contribution`: how far ahead the participants are

`maxPredictedStepContributionForParticipants` walks over the slots with a maximum and a
counter. `maxPredicted_eq` is the walk as a whole: the largest `participantCanAdvanceStepCount`
of the used participants, and the number of those that do not contribute.

A buffer holds consecutive ids. `storedFrom` counts those from the step on that the server
looks for, which is what the walk is meant to compute. The source takes the distance between
two ids and adds one, so its maximum is one too large as soon as anyone has a step
(`contribution_exact_iff`). The counter is right.

`exists_ahead_of_shouldAdvance` is what the decision to compose rests on.
-/

set_option autoImplicit false

namespace NimbleServer

open NimbleServer.Lib

variable {E : External} {S : Setup}

/-! ### The walk -/

/-- The slots in use. -/
def usedSlots (participants : Participants E S) : Finset (ParticipantPtr S) :=
  Finset.univ.filter fun i => (participants.get i).isUsed = true

/-- A slot in use has a used participant. -/
theorem mem_usedSlots {participants : Participants E S} {i : ParticipantPtr S} :
    i ∈ usedSlots participants ↔ (participants.get i).isUsed = true := by
  simp [usedSlots]

/-- The source's condition for a participant that contributes. -/
def Contributes (steps : E.Steps) (lookingFor : StepId) : Prop :=
  E.stepsCount steps > 0 ∧ E.expectedWriteId steps > lookingFor

/-- Two comparisons of numbers. -/
instance (steps : E.Steps) (lookingFor : StepId) : Decidable (Contributes steps lookingFor) :=
  inferInstanceAs (Decidable (_ ∧ _))

/-- The maximum and the counter after the whole walk. Induction on the slots that remain, with
both values so far generalized. -/
theorem maxPredicted_eq (participants : Participants E S) (lookingFor : StepId) :
    maxPredictedStepContributionForParticipants participants lookingFor
      = ((usedSlots participants).sup fun i =>
          participantCanAdvanceStepCount (participants.get i).steps lookingFor,
        ((usedSlots participants).filter fun i =>
          ¬Contributes (participants.get i).steps lookingFor).card) := by
  have hwalk : ∀ (slots : List (ParticipantPtr S)) (largest missing : Nat), slots.Nodup →
      slots.foldl (fun found i =>
        if (participants.get i).isUsed then
          (max found.1 (participantCanAdvanceStepCount (participants.get i).steps lookingFor),
            if Contributes (participants.get i).steps lookingFor then found.2 else found.2 + 1)
        else found) (largest, missing)
      = (max largest ((slots.toFinset.filter fun i => (participants.get i).isUsed = true).sup
          fun i => participantCanAdvanceStepCount (participants.get i).steps lookingFor),
        missing + ((slots.toFinset.filter fun i => (participants.get i).isUsed = true).filter
          fun i => ¬Contributes (participants.get i).steps lookingFor).card) := by
    intro slots
    induction slots with
    | nil => simp
    | cons i rest ih =>
      intro largest missing hnodup
      obtain ⟨hi, hrest⟩ := List.nodup_cons.mp hnodup
      have hnot : i ∉ rest.toFinset := by simpa using hi
      rw [List.foldl_cons, List.toFinset_cons, Finset.filter_insert]
      dsimp only
      -- The slot comes into the set of used slots, and it is not there yet.
      by_cases hused : (participants.get i).isUsed = true
      · rw [if_pos hused, if_pos hused, ih _ _ hrest, Finset.sup_insert, Finset.filter_insert]
        by_cases hcontributes : Contributes (participants.get i).steps lookingFor
        · rw [if_pos hcontributes, if_neg (not_not.mpr hcontributes), max_assoc]
        · rw [if_neg hcontributes, if_pos hcontributes, max_assoc,
            Finset.card_insert_of_notMem (by simp [hi])]
          congr 1
          omega
      · rw [if_neg hused, if_neg hused, ih _ _ hrest]
  have hall : (List.finRange S.maxParticipantCount).toFinset = Finset.univ := by
    ext i
    simp
  have h := hwalk (List.finRange S.maxParticipantCount) 0 0 (List.nodup_finRange _)
  rw [hall, Nat.zero_add, Nat.zero_max] at h
  exact h

/-- If a step is to be composed, some participant is far ahead. -/
theorem exists_ahead_of_shouldAdvance {participants : Participants E S}
    {authoritativeSteps : E.Steps}
    (h : shouldAdvanceAuthoritative participants authoritativeSteps = true) :
    ∃ i, (participants.get i).isUsed = true ∧
      Contributes (participants.get i).steps (E.expectedWriteId authoritativeSteps) ∧
      (E.expectedWriteId authoritativeSteps).toNat + 1
        < (E.expectedWriteId (participants.get i).steps).toNat := by
  have hlarge : 3 < (maxPredictedStepContributionForParticipants participants
      (E.expectedWriteId authoritativeSteps)).1 := by
    unfold shouldAdvanceAuthoritative shouldComposeNewAuthoritativeStep at h
    simp only [Bool.and_eq_true, Bool.or_eq_true, decide_eq_true_eq] at h
    omega
  rw [maxPredicted_eq, Finset.lt_sup_iff] at hlarge
  obtain ⟨i, hi, hcount⟩ := hlarge
  refine ⟨i, mem_usedSlots.mp hi, ?_⟩
  unfold participantCanAdvanceStepCount at hcount
  split at hcount
  · rename_i hcontributes
    have hlt := UInt32.lt_iff_toNat_lt.mp hcontributes.2
    rw [UInt32.toNat_add, UInt32.toNat_sub_of_le _ _ (UInt32.le_of_lt hcontributes.2)] at hcount
    refine ⟨hcontributes, ?_⟩
    -- Wrapping around makes the number smaller, so a large number is really far ahead.
    have hmod : ((E.expectedWriteId (participants.get i).steps).toNat
        - (E.expectedWriteId authoritativeSteps).toNat + (1 : UInt32).toNat) % 2 ^ 32
        ≤ (E.expectedWriteId (participants.get i).steps).toNat
          - (E.expectedWriteId authoritativeSteps).toNat + 1 := Nat.mod_le _ _
    omega
  · omega

/-! ### What the walk is meant to compute -/

/-- The ids a buffer holds. -/
def storedIds (steps : E.Steps) : List Nat :=
  List.range' (E.expectedReadId steps).toNat (E.storedPayloads steps).length

/-- The number of stored steps from an id on. -/
def storedFrom (steps : E.Steps) (lookingFor : StepId) : Nat :=
  (storedIds steps).countP fun id => lookingFor.toNat ≤ id

/-- The largest number of steps that can still be composed from the input of one participant,
and the number of participants without the step the server looks for. -/
def exactContribution (participants : Participants E S) (lookingFor : StepId) : Nat × Nat :=
  ((usedSlots participants).sup fun i => storedFrom (participants.get i).steps lookingFor,
    ((usedSlots participants).filter fun i =>
      lookingFor.toNat ∉ storedIds (participants.get i).steps).card)

section Buffer

variable [LawfulSteps E] {steps : E.Steps} {lookingFor : StepId}

/-- A buffer holds the ids from its read id up to its write id. -/
theorem mem_storedIds {id : Nat} :
    id ∈ storedIds steps ↔
      (E.expectedReadId steps).toNat ≤ id ∧ id < (E.expectedWriteId steps).toNat := by
  rw [storedIds, List.mem_range'_1, LawfulSteps.writeId_eq]

/-- The ids from `lookingFor` on reach up to the write id. -/
theorem storedFrom_eq (h : E.expectedReadId steps ≤ lookingFor) :
    storedFrom steps lookingFor
      = (E.expectedWriteId steps).toNat - lookingFor.toNat := by
  have hle := UInt32.le_iff_toNat_le.mp h
  have hcount : ∀ (first length : Nat), first ≤ lookingFor.toNat →
      (List.range' first length).countP (fun id => lookingFor.toNat ≤ id)
        = first + length - lookingFor.toNat := by
    intro first length hfirst
    induction length with
    | zero =>
      simp
      omega
    | succ length ih =>
      -- The last id counts exactly if it is not before the one that is looked for.
      rw [List.range'_concat, List.countP_append, ih, List.countP_singleton, Nat.one_mul]
      split
      · rename_i hge
        have := of_decide_eq_true hge
        omega
      · rename_i hlt
        have : ¬lookingFor.toNat ≤ first + length := fun h => hlt (decide_eq_true h)
        omega
  rw [storedFrom, storedIds, hcount _ _ hle, LawfulSteps.writeId_eq]

/-- A participant contributes exactly if it has the step. -/
theorem contributes_iff (h : E.expectedReadId steps ≤ lookingFor) :
    Contributes steps lookingFor ↔ lookingFor.toNat ∈ storedIds steps := by
  have hle := UInt32.le_iff_toNat_le.mp h
  have hwrite := LawfulSteps.writeId_eq steps
  rw [mem_storedIds, Contributes, LawfulSteps.stepsCount_eq, gt_iff_lt, gt_iff_lt,
    UInt32.lt_iff_toNat_lt]
  omega

/-- The source counts one step too many. The sum wraps around only for a buffer of all 32-bit
ids but one. -/
theorem participantCanAdvanceStepCount_eq (h : E.expectedReadId steps ≤ lookingFor) :
    participantCanAdvanceStepCount steps lookingFor
      = if storedFrom steps lookingFor = 0 ∨ storedFrom steps lookingFor = 2 ^ 32 - 1 then 0
        else storedFrom steps lookingFor + 1 := by
  have hstored := storedFrom_eq h
  have hlt := (E.expectedWriteId steps).toNat_lt
  have hcontributes := contributes_iff h
  rw [mem_storedIds] at hcontributes
  show (if Contributes steps lookingFor then _ else _) = _
  by_cases hahead : Contributes steps lookingFor
  · have hid := (hcontributes.mp hahead).2
    rw [if_pos hahead, UInt32.toNat_add,
      UInt32.toNat_sub_of_le _ _ (UInt32.le_of_lt hahead.2), ← hstored]
    have hone : (1 : UInt32).toNat = 1 := rfl
    rw [hone]
    -- One more than all 32-bit ids but one is 2^32, which is zero.
    split
    · omega
    · exact Nat.mod_eq_of_lt (by omega)
  · have hle := UInt32.le_iff_toNat_le.mp h
    rw [if_neg hahead, if_pos]
    have : ¬lookingFor.toNat < (E.expectedWriteId steps).toNat :=
      fun hid => hahead (hcontributes.mpr ⟨hle, hid⟩)
    omega

end Buffer

/-! ### When the walk is exact -/

/-- Two maxima, where the first counts one more for every number that is neither zero nor the
bound. They agree only if there is nothing to count, or at the bound. -/
theorem sup_succ_eq_iff {ι : Type} (slots : Finset ι) (stored : ι → Nat) (bound : Nat)
    (hbound : ∀ i ∈ slots, stored i ≤ bound) :
    (slots.sup fun i => if stored i = 0 ∨ stored i = bound then 0 else stored i + 1)
        = slots.sup stored ↔
      (∀ i ∈ slots, stored i = 0) ∨
        ((∃ i ∈ slots, stored i = bound) ∧ ∃ i ∈ slots, 0 < stored i ∧ stored i + 1 = bound) := by
  constructor
  · intro heq
    by_cases hall : ∀ i ∈ slots, stored i = 0
    · exact .inl hall
    · right
      push Not at hall
      obtain ⟨i, hi, hpos⟩ := hall
      have hi' := Finset.le_sup (f := stored) hi
      -- Both maxima are attained, at `k` and at `j`.
      obtain ⟨k, hk, hmax⟩ := Finset.exists_mem_eq_sup slots ⟨i, hi⟩ stored
      obtain ⟨j, hj, hmax'⟩ := Finset.exists_mem_eq_sup slots ⟨i, hi⟩
        fun i => if stored i = 0 ∨ stored i = bound then 0 else stored i + 1
      have hk' := Finset.le_sup
        (f := fun i => if stored i = 0 ∨ stored i = bound then 0 else stored i + 1) hk
      rw [heq] at hmax' hk'
      -- Otherwise the first maximum would be larger by one.
      have hbound' : stored k = bound := by
        by_contra hne
        rw [if_neg (by omega)] at hk'
        omega
      split at hmax'
      · omega
      · exact ⟨⟨k, hk, hbound'⟩, j, hj, by omega, by omega⟩
  · rintro (hall | ⟨⟨k, hk, hfull⟩, j, hj, hpos, hnext⟩)
    · refine Finset.sup_congr rfl fun i hi => ?_
      rw [if_pos (.inl (hall i hi)), hall i hi]
    · have hright : slots.sup stored = bound :=
        le_antisymm (Finset.sup_le hbound) (hfull ▸ Finset.le_sup hk)
      rw [hright]
      refine le_antisymm (Finset.sup_le fun i hi => ?_) ?_
      · have := hbound i hi
        split
        · omega
        · omega
      · refine le_trans ?_ (Finset.le_sup hj)
        rw [if_neg (by omega)]
        omega

/-- For buffers that do not start after the step the server looks for, the counter is always
right. The maximum is right if and only if nobody has a step, or the sum wraps around for
one participant and another one is one step behind it. -/
theorem contribution_exact_iff [LawfulSteps E] (participants : Participants E S)
    (lookingFor : StepId)
    (hread : ∀ i, (participants.get i).isUsed = true →
      E.expectedReadId (participants.get i).steps ≤ lookingFor) :
    maxPredictedStepContributionForParticipants participants lookingFor
        = exactContribution participants lookingFor ↔
      (∀ i, (participants.get i).isUsed = true →
        E.expectedWriteId (participants.get i).steps ≤ lookingFor) ∨
      (lookingFor = 0 ∧
        (∃ i, (participants.get i).isUsed = true ∧
          (E.expectedWriteId (participants.get i).steps).toNat = 2 ^ 32 - 1) ∧
        ∃ i, (participants.get i).isUsed = true ∧
          (E.expectedWriteId (participants.get i).steps).toNat = 2 ^ 32 - 2) := by
  have hused : ∀ i ∈ usedSlots participants,
      E.expectedReadId (participants.get i).steps ≤ lookingFor :=
    fun i hi => hread i (mem_usedSlots.mp hi)
  have hmissing : (usedSlots participants).filter (fun i =>
      ¬Contributes (participants.get i).steps lookingFor)
      = (usedSlots participants).filter fun i =>
        lookingFor.toNat ∉ storedIds (participants.get i).steps :=
    Finset.filter_congr fun i hi => not_congr (contributes_iff (hused i hi))
  have hlargest : ((usedSlots participants).sup fun i =>
      participantCanAdvanceStepCount (participants.get i).steps lookingFor)
      = (usedSlots participants).sup fun i =>
        if storedFrom (participants.get i).steps lookingFor = 0 ∨
            storedFrom (participants.get i).steps lookingFor = 2 ^ 32 - 1 then 0
        else storedFrom (participants.get i).steps lookingFor + 1 :=
    Finset.sup_congr rfl fun i hi => participantCanAdvanceStepCount_eq (hused i hi)
  have hstored : ∀ i, (participants.get i).isUsed = true →
      storedFrom (participants.get i).steps lookingFor
        = (E.expectedWriteId (participants.get i).steps).toNat - lookingFor.toNat :=
    fun i hi => storedFrom_eq (hread i hi)
  have hlt : ∀ i, (E.expectedWriteId (participants.get i).steps).toNat < 2 ^ 32 :=
    fun i => UInt32.toNat_lt _
  rw [maxPredicted_eq, exactContribution, Prod.mk.injEq, hmissing, hlargest, and_iff_left rfl,
    sup_succ_eq_iff _ _ (2 ^ 32 - 1) fun i hi => by
      have := hlt i
      rw [hstored i (mem_usedSlots.mp hi)]
      omega]
  simp only [mem_usedSlots]
  -- The two cases of `sup_succ_eq_iff` in terms of ids.
  refine or_congr (forall_congr' fun i => imp_congr_right fun hi => ?_) ?_
  · rw [hstored i hi, UInt32.le_iff_toNat_le]
    omega
  · constructor
    · rintro ⟨⟨k, hk, hfull⟩, j, hj, -, hnext⟩
      rw [hstored k hk] at hfull
      rw [hstored j hj] at hnext
      have := hlt k
      -- All 32-bit ids but one are ahead, so the server looks for the first of them.
      have hzero : lookingFor.toNat = 0 := by omega
      exact ⟨UInt32.toNat_inj.mp hzero, ⟨k, hk, by omega⟩, j, hj, by omega⟩
    · rintro ⟨rfl, ⟨k, hk, hfull⟩, j, hj, hnext⟩
      have hzero : (0 : UInt32).toNat = 0 := rfl
      refine ⟨⟨k, hk, ?_⟩, j, hj, ?_, ?_⟩
      · rw [hstored k hk]
        omega
      · rw [hstored j hj]
        omega
      · rw [hstored j hj]
        omega

/-- A client has joined and sent nothing, so the walk is right: nobody is ahead, and one
participant does not contribute. -/
theorem contribution_exact_iff_noSteps :
    ∃ start s : Server plainExternal (plainSetup 1), StartsGame start ∧
      Reaches Server.step (fun _ op => op.IsPlay) start s ∧
      maxPredictedStepContributionForParticipants s.game.participants 0 = (0, 1) ∧
      exactContribution s.game.participants 0 = (0, 1) := by
  obtain ⟨start, s, hstart, hrun, hread, hwrite, hvalue⟩ :=
    exists_run Server.step (fun _ op => op.IsPlay)
      (fun s => (∀ i, (s.game.participants.get i).isUsed = true →
          plainExternal.expectedReadId (s.game.participants.get i).steps ≤ 0) ∧
        (∀ i, (s.game.participants.get i).isUsed = true →
          plainExternal.expectedWriteId (s.game.participants.get i).steps ≤ 0) ∧
        maxPredictedStepContributionForParticipants s.game.participants 0 = (0, 1))
      (plainGame 1) [.receive 0, .join 0 onePlayer (zeroLocals _)] (by decide +kernel)
  have hexact := (contribution_exact_iff s.game.participants 0 hread).mpr (.inl hwrite)
  exact ⟨start, s, startsGame_of_blankGame hstart, hrun, hvalue, hexact.symm.trans hvalue⟩

/-- One client joins and sends the step the server looks for, and no other. The server counts
two. -/
theorem contribution_one_too_many :
    ∃ start s : Server plainExternal (plainSetup 1), StartsGame start ∧
      Reaches Server.step (fun _ op => op.IsPlay) start s ∧
      (∀ i, (s.game.participants.get i).isUsed = true →
        plainExternal.expectedReadId (s.game.participants.get i).steps ≤ 0) ∧
      maxPredictedStepContributionForParticipants s.game.participants 0 = (2, 0) ∧
      exactContribution s.game.participants 0 = (1, 0) := by
  obtain ⟨start, s, hstart, hrun, hread, hvalue, hexact⟩ :=
    exists_run Server.step (fun _ op => op.IsPlay)
      (fun s => (∀ i, (s.game.participants.get i).isUsed = true →
          plainExternal.expectedReadId (s.game.participants.get i).steps ≤ 0) ∧
        maxPredictedStepContributionForParticipants s.game.participants 0 = (2, 0) ∧
        exactContribution s.game.participants 0 = (1, 0))
      (plainGame 1)
      [.receive 0, .join 0 onePlayer (zeroLocals _),
        .incomingSteps 0 (gameStep 0 [[7]]) (zeroLocals _)] (by decide +kernel)
  exact ⟨start, s, startsGame_of_blankGame hstart, hrun, hread, hvalue, hexact⟩

end NimbleServer
