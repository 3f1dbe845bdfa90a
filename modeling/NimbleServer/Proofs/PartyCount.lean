import NimbleServer.Lib.FreeList
import NimbleServer.Model.PlainServer
import NimbleServer.Proofs.Lookup

/-!
# `NimbleServer.Proofs.PartyCount`: `partiesCount` and the parties in use

`addParty` and `nimbleServerLocalPartiesRemove` move `partiesCount` with the flag of a party.
Two other places clear the flag and leave the count: the reset of all parties, which starts
a game or a host migration, and the transport layer's report of a lost connection.

`CountKept` names the operations that do no harm: a reset when no party is in use, and a
lost connection whose index names a party that is not in use. On runs of these the count is
exact (`partiesCount_counts_parties`), so the lookup stays within the parties array. One reset
of a played game is enough to break it (`partiesCount_past_capacity`).
-/

set_option autoImplicit false

namespace NimbleServer

open NimbleServer.Lib

variable {E : External} {S : Setup}

/-! ### Counting parties in use -/

namespace LocalParties

/-- The count over the array is one over the slots. -/
theorem usedCount_eq (self : LocalParties S) :
    self.usedCount
      = (List.finRange S.maxConnectionCount).countP fun p => (self.get p).isUsed :=
  countP_eq_countP_finRange self.parties (·.isUsed)

/-- There are no more parties in use than slots. -/
theorem usedCount_le (self : LocalParties S) : self.usedCount ≤ S.maxConnectionCount := by
  rw [usedCount_eq]
  refine Nat.le_trans List.countP_le_length ?_
  rw [List.length_finRange]

/-- A party in use is counted. -/
theorem usedCount_pos {self : LocalParties S} {p : PartyPtr S}
    (h : (self.get p).isUsed = true) : 0 < self.usedCount := by
  rw [usedCount_eq]
  exact List.countP_pos_iff.mpr ⟨p, List.mem_finRange p, h⟩

/-- Parties with the same flags have the same count. -/
theorem usedCount_congr {self other : LocalParties S}
    (h : ∀ p, (other.get p).isUsed = (self.get p).isUsed) :
    other.usedCount = self.usedCount := by
  rw [usedCount_eq, usedCount_eq]
  exact List.countP_congr fun p _ => by rw [h p]

/-- If nobody is in use, the count is zero. -/
theorem usedCount_eq_zero {self : LocalParties S} (h : ∀ p, (self.get p).isUsed = false) :
    self.usedCount = 0 := by
  rw [usedCount_eq]
  exact List.countP_eq_zero.mpr fun p _ => by rw [h p]; exact Bool.false_ne_true

/-- The count after the flag of one party was assigned. -/
theorem usedCount_update {self other : LocalParties S} {p : PartyPtr S} {used : Bool}
    (h : ∀ q, (other.get q).isUsed = if p = q then used else (self.get q).isUsed) :
    other.usedCount = self.usedCount - (if (self.get p).isUsed then 1 else 0)
      + (if used then 1 else 0) := by
  -- Only the flags count, so it is as if the party were replaced in the array.
  have hset : other.usedCount = (self.set p { self.get p with isUsed := used }).usedCount := by
    refine usedCount_congr fun q => ?_
    rw [h q, get_set]
    split
    · rfl
    · rfl
  rw [hset]
  exact Vector.countP_set p.isLt

end LocalParties

/-! ### The invariant -/

/-- `partiesCount` is the number of parties in use. -/
def PartiesCounted (s : Server E S) : Prop :=
  s.localParties.partiesCount = s.localParties.usedCount

/-- The operation does not clear the flag of a party behind the count's back: all parties
are reset only when none is in use, and a lost connection has the index of a party that is
not in use. -/
@[reducible] def CountKept (s : Server E S) : Op S → Prop
  | .reInitWithGame _ | .hostMigration _ _ => ∀ p, (s.party p).isUsed = false
  | .connectionDisconnected t => ∀ p : PartyPtr S, p.val = t.val → (s.party p).isUsed = false
  | _ => True

/-- The condition can be evaluated for each operation. -/
instance (s : Server E S) (op : Op S) : Decidable (CountKept s op) :=
  Op.decidableOf (CountKept s) op

/-- A relation between the number of parties in use and `partiesCount` that survives counting a
party in and counting one out. -/
structure CountsParties (R : Nat → Nat → Prop) : Prop where
  added : ∀ used count, R used count → R (used + 1) (count + 1)
  removed : ∀ used count, R (used + 1) count → R used (count - 1)

/-- The parties in use and `partiesCount` are in the relation. -/
def PartiesRelated (R : Nat → Nat → Prop) (s : Server E S) : Prop :=
  R s.localParties.usedCount s.localParties.partiesCount

namespace PartiesRelated

variable {R : Nat → Nat → Prop} {s s' : Server E S}

/-- It is about the flags and the count. -/
theorem congr (h : PartiesRelated R s)
    (hcount : s'.localParties.partiesCount = s.localParties.partiesCount)
    (hused : ∀ p, (s'.party p).isUsed = (s.party p).isUsed) : PartiesRelated R s' := by
  unfold PartiesRelated
  rw [hcount, LocalParties.usedCount_congr hused]
  exact h

/-- Whatever does not touch the parties keeps it. -/
theorem of_localParties (h : PartiesRelated R s)
    (hparties : s'.localParties = s.localParties) : PartiesRelated R s' := by
  unfold PartiesRelated
  rw [hparties]
  exact h

/-- One party is replaced by another that is in use exactly when it was. -/
theorem update (h : PartiesRelated R s) (p : PartyPtr S) {x : LocalParty S}
    (hcount : s'.localParties.partiesCount = s.localParties.partiesCount)
    (hs' : ∀ q, s'.party q = if p = q then x else s.party q)
    (hx : x.isUsed = (s.party p).isUsed) : PartiesRelated R s' := by
  refine h.congr hcount fun q => ?_
  rw [hs']
  split
  · rename_i hpq
    rw [← hpq]
    exact hx
  · rfl

/-- A party is taken into use and counted. -/
theorem added (hR : CountsParties R) (h : PartiesRelated R s) {p : PartyPtr S}
    (hfree : (s.party p).isUsed = false)
    (hcount : s'.localParties.partiesCount = s.localParties.partiesCount + 1)
    (hused : ∀ q, (s'.party q).isUsed = if p = q then true else (s.party q).isUsed) :
    PartiesRelated R s' := by
  unfold PartiesRelated at h ⊢
  have hget : (s.localParties.get p).isUsed = false := hfree
  rw [hcount, LocalParties.usedCount_update hused, hget]
  exact hR.added _ _ h

/-- A party in use is removed and no longer counted. -/
theorem removed (hR : CountsParties R) (h : PartiesRelated R s) {p : PartyPtr S}
    (hold : (s.party p).isUsed = true)
    (hcount : s'.localParties.partiesCount = s.localParties.partiesCount - 1)
    (hused : ∀ q, (s'.party q).isUsed = if p = q then false else (s.party q).isUsed) :
    PartiesRelated R s' := by
  unfold PartiesRelated at h ⊢
  have hget : (s.localParties.get p).isUsed = true := hold
  have hpos : 0 < s.localParties.usedCount := LocalParties.usedCount_pos hold
  rw [hcount, LocalParties.usedCount_update hused, hget]
  -- The party itself is in use, so one is left after the subtraction.
  refine hR.removed _ _ ?_
  show R (s.localParties.usedCount - 1 + 1) _
  rw [Nat.sub_add_cancel hpos]
  exact h

/-- The round of a party counts it out if it gives up. -/
theorem tick (hR : CountsParties R) {p : PartyPtr S} (h : PartiesRelated R s)
    (hs' : TickOutcome s p s') : PartiesRelated R s' := by
  have hdissolve : (s.party p).isUsed = true →
      PartiesRelated R (dissolveParty (advanceTimer s p) p) := by
    intro hused
    refine h.removed hR hused (dissolveParty_partiesCount _ _) fun q => ?_
    rw [party_dissolved]
    split
    · rfl
    · rfl
  cases hs' with
  | unused hused => exact h
  | kept counter hused hstate hcounter =>
    exact h.update p rfl (fun q => Server.party_setParty s p q _) rfl
  | lost counter hused hstate hfailing =>
    refine h.update p ?_ (fun q => party_lost s p q counter) rfl
    unfold setToWaitingForReJoin
    rw [setReferencedStates_localParties]
    rfl
  | waited hused hstate => exact h.update p rfl (party_advanceTimer s p) rfl
  | stale hused hstate => exact h
  | dissolved hused hstate hcount hconnection => exact hdissolve hused
  | disconnected t hused hstate hcount hconnection hfull => exact hdissolve hused

/-- A join counts a new party in. -/
theorem join (hR : CountsParties R) {t : ConnectionPtr} {request : JoinGameRequest}
    {uninitialized : Uninitialized S} {result : Except Int (PartyPtr S)}
    (h : PartiesRelated R s) (hr : JoinOutcome s t request uninitialized (result, s')) :
    PartiesRelated R s' := by
  have hassign : ∀ p, PartiesRelated R (assignParty s t p) := fun p =>
    h.update p rfl (party_assignParty s t p) rfl
  cases hr with
  | noPlace code hplace => exact h
  | sessionFull code p hplace => exact h.update p rfl (party_nameParty s p) rfl
  | found p hcount hmatch => exact hassign p
  | unassigned p q htype hfind hnamed hcount hpointer => exact hassign p
  | rejoined p htype hfind hnamed hcount => exact h.update p rfl (party_rejoined s t p) rfl
  | created p i participants htype hfind hplace hjoin =>
    refine h.added hR (firstFreeParty_isUsed hplace) rfl fun q => ?_
    rw [party_created]
    split
    · rfl
    · rfl

/-- Host migration, with the relation given after all parties were reset. -/
theorem migrate (hR : CountsParties R)
    (h : PartiesRelated R ({ s with
      localParties := nimbleServerLocalPartiesReset s.localParties } : Server E S))
    (infos : List LocalPartyInfo) (uninitialized : Uninitialized S) :
    Ensures (nimbleServerHostMigration s infos uninitialized) (fun r => PartiesRelated R r.2)
      Fault.IsMigration := by
  refine nimbleServerHostMigration_ensures (PartiesRelated R) h (fun _ _ h => h) ?_ ?_ infos
    uninitialized
  · intro s p h _
    exact h.update p rfl (party_nameParty s p) rfl
  · intro s p participants i h hplace
    refine h.added hR (firstFreeParty_isUsed hplace) rfl fun q => ?_
    rw [party_prepareParty]
    split
    · rfl
    · rfl

/-- A reset when no party is in use. -/
theorem reset (h : PartiesRelated R s) (hnone : ∀ p, (s.party p).isUsed = false)
    (hparties : s'.localParties = nimbleServerLocalPartiesReset s.localParties) :
    PartiesRelated R s' := by
  refine h.congr (by rw [hparties]; rfl) fun p => ?_
  rw [hnone p, party_of_reset hparties]
  rfl

end PartiesRelated

/-! ### The exact count -/

/-- Equality is such a relation, -/
theorem countsParties_eq : CountsParties fun used count => count = used where
  added := by omega
  removed := by omega

/-- Neither the lookup nor the removal of a party stops. -/
def Fault.IsNotPartyCount (fault : Fault) : Prop :=
  fault ≠ .partiesCount ∧ fault ≠ .partyOutOfBounds

/-- and the count is exact as long as no flag is cleared behind its back. -/
theorem partiesCounted_keeps :
    BindingKeeps (CountKept (E := E) (S := S)) (PartiesRelated fun used count => count = used)
      Fault.IsNotPartyCount where
  sameParties := fun s s' h hs => h.congr hs.partiesCount hs.isUsed
  sameSlots := fun s s' h hs => h.of_localParties hs.localParties
  receive := fun s t h _ => h.of_localParties (receiveOnConnection_localParties s t)
  connect := fun s t request r h _ hr => h.of_localParties hr.localParties
  join := fun s t request uninitialized r h _ hr => h.join countsParties_eq hr
  tick := fun s h _ => tickParties_ensures h (fun s p s' h hs' => h.tick countsParties_eq hs') (by
    intro s p f h hf
    cases hf with
    -- The assertion looks at a count of zero, and here a party is in use.
    | partiesCount hused hcount =>
      have hpos : 0 < s.localParties.usedCount := LocalParties.usedCount_pos hused
      unfold PartiesRelated at h
      omega
    | overwrite t hused hconnection hfull => exact ⟨by decide, by decide⟩)
  reInit := fun s stepId s' h hnone hparties _ _ => h.reset hnone hparties
  migrate := fun s infos uninitialized h hnone =>
    (PartiesRelated.migrate countsParties_eq (h.reset hnone rfl) infos
      uninitialized).mono (fun _ h => h) (by
      rintro f (rfl | rfl | rfl)
      · exact ⟨by decide, by decide⟩
      · exact ⟨by decide, by decide⟩
      · exact ⟨by decide, by decide⟩)
  connected := fun s t h _ =>
    h.of_localParties (nimbleServerConnectionConnected_localParties s t)
  disconnected := by
    intro s t h hnone
    refine (connectionDisconnected_ensures _ h t ?_).mono (fun _ h => h) ?_
    · intro p hp hused
      cases (hnone p hp).symm.trans hused
    · rintro f rfl
      exact ⟨by decide, by decide⟩
  connectFault := by
    intro s f _ hf
    cases hf with
    | used c hempty hfront hused => exact ⟨by decide, by decide⟩
    | outOfBounds hempty hfront => exact ⟨by decide, by decide⟩
  joinFault := by
    intro s f h hf
    cases hf with
    -- The count is exact, so the lookup ends before the end of the array.
    | outOfBounds hcount =>
      have hle := LocalParties.usedCount_le s.localParties
      unfold PartiesRelated at h
      omega
    | partyId => exact ⟨by decide, by decide⟩
    | pointer => exact ⟨by decide, by decide⟩
    | participants fault hf => cases hf <;> exact ⟨by decide, by decide⟩
  composeFault := by
    rintro f (rfl | rfl | rfl | rfl | rfl | rfl) <;> exact ⟨by decide, by decide⟩
  downloadFault := ⟨by decide, by decide⟩
  capacityFault := ⟨by decide, by decide⟩

/-- A new server has no parties and counts none. -/
theorem Started.partiesCounted {s : Server E S} (h : Started s) : PartiesCounted s := by
  have hunused : ∀ p, (s.localParties.get p).isUsed = false := fun p =>
    congrArg LocalParty.isUsed (h.party p)
  obtain ⟨memory, hinit⟩ := h
  have hparties := ((nimbleServerInit_ensures memory).of_ok hinit).1
  unfold PartiesCounted
  rw [LocalParties.usedCount_eq_zero hunused, hparties]
  rfl

/-! ### The count covers the parties in use -/

/-- Being at most the count is such a relation too. -/
theorem countsParties_le : CountsParties fun used count => used ≤ count where
  added := by omega
  removed := by omega

/-- If nobody is in use, any count is large enough. -/
theorem partiesRelated_le_of_unused {s : Server E S} (h : ∀ p, (s.party p).isUsed = false) :
    PartiesRelated (fun used count => used ≤ count) s := by
  unfold PartiesRelated
  rw [LocalParties.usedCount_eq_zero h]
  exact Nat.zero_le _

/-- So it is after a reset, which leaves the count. -/
theorem partiesRelated_le_of_reset {s s' : Server E S}
    (hparties : s'.localParties = nimbleServerLocalPartiesReset s.localParties) :
    PartiesRelated (fun used count => used ≤ count) s' := by
  refine partiesRelated_le_of_unused fun p => ?_
  rw [party_of_reset hparties]
  rfl

/-- Clearing a flag behind the count's back does no harm here. -/
theorem partiesCovered_keeps :
    BindingKeeps (E := E) (S := S) (fun _ _ => True)
      (PartiesRelated fun used count => used ≤ count) (fun _ => True) where
  sameParties := fun s s' h hs => h.congr hs.partiesCount hs.isUsed
  sameSlots := fun s s' h hs => h.of_localParties hs.localParties
  receive := fun s t h _ => h.of_localParties (receiveOnConnection_localParties s t)
  connect := fun s t request r h _ hr => h.of_localParties hr.localParties
  join := fun s t request uninitialized r h _ hr => h.join countsParties_le hr
  tick := fun s h _ => tickParties_ensures h (fun s p s' h hs' => h.tick countsParties_le hs')
    fun _ _ _ _ _ => trivial
  reInit := fun s stepId s' _ _ hparties _ _ => partiesRelated_le_of_reset hparties
  migrate := fun s infos uninitialized _ _ =>
    (PartiesRelated.migrate countsParties_le (partiesRelated_le_of_reset rfl) infos
      uninitialized).mono (fun _ h => h) fun _ _ => trivial
  connected := fun s t h _ =>
    h.of_localParties (nimbleServerConnectionConnected_localParties s t)
  disconnected := by
    intro s t h _
    refine (connectionDisconnected_ensures _ h t ?_).mono (fun _ h => h) fun _ _ => trivial
    intro p hp hused
    have hflags : ∀ q, ((dropParty s t p).localParties.get q).isUsed
        = if p = q then false else (s.localParties.get q).isUsed := by
      intro q
      refine (congrArg LocalParty.isUsed (party_dropParty s t p q)).trans ?_
      split
      · rfl
      · rfl
    -- A party is taken out of use and stays counted, which is on the safe side.
    have hle : s.localParties.usedCount ≤ s.localParties.partiesCount := h
    show (dropParty s t p).localParties.usedCount ≤ s.localParties.partiesCount
    rw [LocalParties.usedCount_update hflags]
    exact (Nat.sub_le _ _).trans hle
  connectFault := fun _ _ _ _ => trivial
  joinFault := fun _ _ _ _ => trivial
  composeFault := fun _ _ => trivial
  downloadFault := trivial
  capacityFault := trivial

/-- In every run, with any operations, `partiesCount` is at least the number of parties in
use. -/
theorem usedCount_le_partiesCount {start s : Server E S} (hstart : Started start)
    (hrun : Reaches Server.step (fun _ _ => True) start s) :
    s.localParties.usedCount ≤ s.localParties.partiesCount := by
  refine partiesCovered_keeps.reachable ?_ hrun
  exact partiesRelated_le_of_unused fun p => congrArg LocalParty.isUsed (hstart.party p)

/-- A counted lookup stays within the parties array. -/
theorem PartiesCounted.findPartyForTransport {s : Server E S} (h : PartiesCounted s)
    (transportConnectionId : UInt8) :
    ∃ r, nimbleServerLocalPartiesFindPartyForTransport s transportConnectionId = .ok r := by
  have hlookup := findPartyForTransport_ensures s transportConnectionId
  have hle := LocalParties.usedCount_le s.localParties
  cases hfind : nimbleServerLocalPartiesFindPartyForTransport s transportConnectionId with
  | ok r => exact ⟨r, rfl⟩
  | error fault =>
    obtain ⟨-, hlong, -⟩ := hlookup.of_error hfind
    unfold PartiesCounted at h
    omega

/-- `partiesCount` counts the parties in use on every run in which parties are reset only
when none is in use and a lost connection has the index of a party that is not in use. The
lookup then never leaves the parties array, and no operation stops at the assertion of
`nimbleServerLocalPartiesRemove`. -/
theorem partiesCount_counts_parties {start s : Server E S} (hstart : Started start)
    (hrun : Reaches Server.step CountKept start s) :
    s.localParties.partiesCount = s.localParties.usedCount ∧
      s.localParties.partiesCount ≤ S.maxConnectionCount ∧
      (∀ transportConnectionId, ∃ r,
        nimbleServerLocalPartiesFindPartyForTransport s transportConnectionId = .ok r) ∧
      ∀ op fault, CountKept s op → s.step op = .error fault →
        fault ≠ .partiesCount ∧ fault ≠ .partyOutOfBounds := by
  have hcounted : PartiesCounted s := partiesCounted_keeps.reachable hstart.partiesCounted hrun
  refine ⟨hcounted, ?_, hcounted.findPartyForTransport, ?_⟩
  · rw [hcounted]
    exact LocalParties.usedCount_le _
  · intro op fault hop hfault
    exact (partiesCounted_keeps.step hcounted hop).of_error hfault

/-- A game of one player that is joined and ticked keeps the count. -/
theorem partiesCount_counts_parties_onePlayer :
    ∃ start s : Server plainExternal (plainSetup 1), Started start ∧
      Reaches Server.step CountKept start s ∧
      s.localParties.partiesCount = 1 ∧ s.localParties.usedCount = 1 := by
  obtain ⟨start, s, hstart, hrun, hcount⟩ :=
    exists_run Server.step CountKept (fun s => s.localParties.partiesCount = 1)
      (nimbleServerInit (zeroMemory (plainSetup 1)) : Result (Server plainExternal _))
      [.reInitWithGame 0, .receive 0, .join 0 onePlayer (zeroLocals _), .tick]
      (by decide +kernel)
  have hused := (partiesCount_counts_parties ⟨_, hstart⟩ hrun).1
  exact ⟨start, s, ⟨_, hstart⟩, hrun, hcount, hused ▸ hcount⟩

/-- A second game on a server with one place: the count of the first game's party stays, the
client that joins again makes it two, and the lookup for the next client leaves the array. -/
theorem partiesCount_past_capacity :
    ∃ start s : Server plainExternal (plainSetup 1), Started start ∧
      Reaches Server.step (fun s op => s.Enabled op) start s ∧
      s.localParties.usedCount = 1 ∧ s.localParties.partiesCount = 2 ∧
      nimbleServerLocalPartiesFindPartyForTransport s 1 = .error .partyOutOfBounds := by
  obtain ⟨start, s, hstart, hrun, hused, hcount, hfind⟩ :=
    exists_run Server.step (fun s op => s.Enabled op)
      (fun s => s.localParties.usedCount = 1 ∧ s.localParties.partiesCount = 2 ∧
        (nimbleServerLocalPartiesFindPartyForTransport s 1).toOption = none)
      (nimbleServerInit (zeroMemory (plainSetup 1)) : Result (Server plainExternal _))
      [.reInitWithGame 0, .receive 0, .join 0 onePlayer (zeroLocals _), .reInitWithGame 0,
        .join 0 onePlayer (zeroLocals _), .receive 1]
      (by decide +kernel)
  refine ⟨start, s, ⟨_, hstart⟩, hrun, hused, hcount, ?_⟩
  cases hlookup : nimbleServerLocalPartiesFindPartyForTransport s 1 with
  | ok r =>
    rw [hlookup] at hfind
    cases hfind
  | error fault => rw [((findPartyForTransport_ensures s 1).of_error hlookup).1]

end NimbleServer
