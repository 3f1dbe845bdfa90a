import NimbleServer.Model.PlainServer
import NimbleServer.Proofs.PartyBinding

/-!
# `NimbleServer.Proofs.Ownership`: whose steps a connection can store

A GameStep request stores steps for the participants of the party that is assigned to its
connection. The assignment is written by a join and never cleared. A party slot, on the
other hand, goes from one client to the next: by dissolving and joining, by a new game, and
by a rejoin on another connection. Two connections can then have the same party assigned,
and the earlier one stores steps for the participants of the later one
(`steps_stored_for_stranger`).

`HandsOutUnassigned` says that a join hands out no slot that another connection still has
assigned. On runs of such joins an assigned party is empty or belongs to the connection
(`AssignedToOwner`), so every stored step is the owner's (`steps_stored_for_owner`).
-/

set_option autoImplicit false

namespace NimbleServer

open NimbleServer.Lib

variable {E : External} {S : Setup}

/-! ### What a GameStep request writes -/

/-- The participant is one of a party of the connection. -/
def Owns (s : Server E S) (t : ConnectionPtr) (i : ParticipantPtr S) : Prop :=
  ∃ p, (s.party p).BelongsTo t ∧ i ∈ (s.party p).participantReferences

/-- There are finitely many parties. -/
instance (s : Server E S) (t : ConnectionPtr) (i : ParticipantPtr S) : Decidable (Owns s t i) :=
  inferInstanceAs (Decidable (∃ _, _))

/-- Between the two states steps were stored, and only for participants in `owned`. -/
structure StoredOnlyFor (owned : ParticipantPtr S → Prop) (s s' : Server E S) : Prop where
  participant : ∀ i, ¬owned i → s'.participant i = s.participant i
  log : ∃ events, s'.game.participants.log = events ++ s.game.participants.log ∧
    ∀ event ∈ events, ∃ i stepId steps, owned i ∧ event = .stored i stepId steps

namespace StoredOnlyFor

variable {owned : ParticipantPtr S → Prop} {s s' : Server E S}

/-- Nothing was stored yet. -/
theorem refl (owned : ParticipantPtr S → Prop) (s : Server E S) : StoredOnlyFor owned s s where
  participant := fun _ _ => rfl
  log := ⟨[], rfl, fun _ h => by cases h⟩

/-- Neither the parties nor the authoritative steps count. -/
theorem of_participants (h : StoredOnlyFor owned s s') {s'' : Server E S}
    (hs'' : s''.game.participants = s'.game.participants) : StoredOnlyFor owned s s'' := by
  constructor
  · intro i hi
    exact (congrArg (Participants.get · i) hs'').trans (h.participant i hi)
  · rw [hs'']
    exact h.log

/-- One more step of a participant in `owned`. -/
theorem deserializeSingleStep (h : StoredOnlyFor owned s s') {i : ParticipantPtr S}
    (hi : owned i) (stepId : StepId) (inStream : InStream) :
    StoredOnlyFor owned s
      (nimbleServerParticipantDeserializeSingleStep s' i stepId inStream).2.2 := by
  rcases hread : E.nbsStepsInSerializeSinglePredictedStep inStream stepId
    (s'.participant i).steps with ⟨added, consumed, steps⟩
  have hsteps : StoredOnlyFor owned s
      (s'.setParticipant i { s'.participant i with steps }) := by
    refine ⟨?_, h.log⟩
    intro j hj
    rw [Server.participant_setParticipant, if_neg (fun (hij : i = j) => hj (hij ▸ hi))]
    exact h.participant j hj
  simp only [nimbleServerParticipantDeserializeSingleStep, hread]
  split
  · -- The step was taken and is recorded.
    obtain ⟨events, hlog, hevents⟩ := hsteps.log
    refine ⟨hsteps.participant, .stored i stepId steps :: events, congrArg (_ :: ·) hlog, ?_⟩
    intro event hmem
    rcases List.mem_cons.mp hmem with rfl | hmem
    · exact ⟨i, stepId, steps, hi, rfl⟩
    · exact hevents event hmem
  · exact hsteps

end StoredOnlyFor

/-- Storing for a party whose participants are in `owned`. The party keeps its references, so
this holds at every step of the loops. -/
theorem storedOnlyFor_rule {owned : ParticipantPtr S → Prop} (s : Server E S) (p : PartyPtr S)
    (howned : ∀ i ∈ (s.party p).participantReferences, owned i) :
    StoreRule p fun s' => StoredOnlyFor owned s s' ∧
      (s'.party p).participantReferences = (s.party p).participantReferences where
  single := by
    rintro s' i stepId inStream ⟨hs', hrefs⟩ hi
    refine ⟨hs'.deserializeSingleStep (howned i (hrefs ▸ hi)) stepId inStream, ?_⟩
    rw [party_deserializeSingleStep]
    exact hrefs
  note := by
    rintro s' steps total ⟨hs', hrefs⟩
    refine ⟨hs'.of_participants rfl, ?_⟩
    rw [Server.party_setParty, if_pos rfl, noteAddedSteps_participantReferences]
    exact hrefs

/-! ### The invariant -/

/-- An assigned party is empty or belongs to the connection, and a party that is not in use
is empty. -/
structure AssignedToOwner (s : Server E S) : Prop where
  assigned : ∀ t p, (s.connection t).assignedParty = some p →
    (s.party p).participantReferences = [] ∨ (s.party p).BelongsTo t
  unused : ∀ p, (s.party p).isUsed = false → (s.party p).participantReferences = []

/-- No other connection has the party assigned. -/
def UnassignedElsewhere (s : Server E S) (t : ConnectionPtr) (p : PartyPtr S) : Prop :=
  ∀ c, c ≠ t → (s.connection c).assignedParty ≠ some p

/-- There are finitely many connections. -/
instance (s : Server E S) (t : ConnectionPtr) (p : PartyPtr S) :
    Decidable (UnassignedElsewhere s t p) :=
  inferInstanceAs (Decidable (∀ _, _))

/-- The party a request would be given: the slot that is free, or the party it names. -/
def Requested (s : Server E S) (request : JoinGameRequest) (p : PartyPtr S) : Prop :=
  match request.joinGameType with
  | .noSecret => firstFreeParty s = some p
  | .partySecret => p.val = request.partyId.toNat

/-- Either kind of request compares slots. -/
instance (s : Server E S) (request : JoinGameRequest) (p : PartyPtr S) :
    Decidable (Requested s request p) := by
  unfold Requested
  cases request.joinGameType <;> infer_instance

/-- A join comes on a connection that has a party, or the party it would be given is assigned
to no other connection; a party that is named has as many participants as the request has
players. Host migration and lost connections are not part of such runs. -/
@[reducible] def HandsOutUnassigned (s : Server E S) : Op S → Prop
  | .join t request _ =>
    (∃ p : PartyPtr S, p.val < s.localParties.partiesCount ∧ (s.party p).BelongsTo t) ∨
      ∀ p, Requested s request p → UnassignedElsewhere s t p ∧
        (request.joinGameType = .partySecret →
          (s.party p).participantReferences.length = request.playerCount)
  | .hostMigration _ _ | .connectionDisconnected _ => False
  | _ => True

/-- The condition can be evaluated for each operation. -/
instance (s : Server E S) (op : Op S) : Decidable (HandsOutUnassigned s op) :=
  Op.decidableOf (HandsOutUnassigned s) op

/-- A join writes the assignment of its own connection. -/
theorem assignedParty_assignParty (s : Server E S) (t : ConnectionPtr) (p : PartyPtr S)
    (c : ConnectionPtr) :
    ((assignParty s t p).connection c).assignedParty
      = if t = c then some p else (s.connection c).assignedParty := by
  unfold assignParty
  rw [Server.connection_setConnection]
  split
  · rfl
  · rfl

namespace AssignedToOwner

variable {s s' : Server E S}

/-- No assignment changes, and a party is emptied or stays what it is bound to. -/
theorem congr (h : AssignedToOwner s)
    (hconnection : ∀ c, (s'.connection c).assignedParty = (s.connection c).assignedParty)
    (hparty : ∀ p, (s'.party p).participantReferences = [] ∨
      ((s'.party p).participantReferences = (s.party p).participantReferences ∧
        (s'.party p).isUsed = (s.party p).isUsed ∧
        (s'.party p).transportConnection = (s.party p).transportConnection)) :
    AssignedToOwner s' := by
  constructor
  · intro t p hp
    rcases hparty p with hempty | ⟨hrefs, hused, hbound⟩
    · -- A party that was emptied belongs to nobody, and nothing can be stored for it.
      exact .inl hempty
    · rcases h.assigned t p ((hconnection t).symm.trans hp) with hempty | hbelongs
      · exact .inl (hrefs.trans hempty)
      · exact .inr ⟨hused.trans hbelongs.1, hbound.trans hbelongs.2⟩
  · intro p hp
    rcases hparty p with hempty | ⟨hrefs, hused, -⟩
    · exact hempty
    · exact hrefs.trans (h.unused p (hused.symm.trans hp))

/-- It is about parties and assignments only. -/
theorem of_assignedParty (h : AssignedToOwner s) (hparties : s'.localParties = s.localParties)
    (hconnection : ∀ c, (s'.connection c).assignedParty = (s.connection c).assignedParty) :
    AssignedToOwner s' := by
  refine h.congr hconnection fun p => ?_
  have hparty : s'.party p = s.party p := congrArg (LocalParties.get · p) hparties
  rw [hparty]
  exact .inr ⟨rfl, rfl, rfl⟩

/-- One connection is replaced by one that has the same party assigned. -/
theorem replaceConnection (h : AssignedToOwner s) (t : ConnectionPtr)
    {x : TransportConnection E S} (hparties : s'.localParties = s.localParties)
    (hs' : ∀ c, s'.connection c = if t = c then x else s.connection c)
    (hx : x.assignedParty = (s.connection t).assignedParty) : AssignedToOwner s' := by
  refine h.of_assignedParty hparties fun c => ?_
  rw [hs']
  split
  · rename_i htc
    rw [← htc]
    exact hx
  · rfl

/-- One party is emptied, or stays what it is bound to. -/
theorem update (h : AssignedToOwner s) (p : PartyPtr S) {x : LocalParty S}
    (hconnections : s'.transportConnections = s.transportConnections)
    (hs' : ∀ q, s'.party q = if p = q then x else s.party q)
    (hx : x.participantReferences = [] ∨
      (x.participantReferences = (s.party p).participantReferences ∧
        x.isUsed = (s.party p).isUsed ∧
        x.transportConnection = (s.party p).transportConnection)) : AssignedToOwner s' := by
  refine h.congr (fun c => ?_) fun q => ?_
  · unfold Server.connection
    rw [hconnections]
  · rw [hs']
    split
    · rename_i hpq
      rw [← hpq]
      exact hx
    · exact .inr ⟨rfl, rfl, rfl⟩

/-- A party is assigned to a connection. -/
theorem assign (h : AssignedToOwner s) {t : ConnectionPtr} {p : PartyPtr S} {x : LocalParty S}
    (hconnection : ∀ c, (s'.connection c).assignedParty
      = if t = c then some p else (s.connection c).assignedParty)
    (hs' : ∀ q, s'.party q = if p = q then x else s.party q)
    (hunused : x.isUsed = false → x.participantReferences = [])
    (hbound : x.transportConnection = some t)
    (hothers : ∀ c, c ≠ t → (s.connection c).assignedParty = some p →
      x.participantReferences = [] ∨ x.BelongsTo c) : AssignedToOwner s' := by
  -- The connection that gets the party is also the one that the party is bound to.
  have hself : x.participantReferences = [] ∨ x.BelongsTo t := by
    cases hused : x.isUsed with
    | false => exact .inl (hunused hused)
    | true => exact .inr ⟨hused, hbound⟩
  constructor
  · intro c q hq
    rw [hconnection] at hq
    rw [hs']
    split at hq
    · rename_i htc
      rw [if_pos (Option.some.inj hq), ← htc]
      exact hself
    · rename_i htc
      split
      · rename_i hpq
        exact hothers c (fun hct => htc hct.symm) (hpq ▸ hq)
      · exact h.assigned c q hq
  · intro q hq
    rw [hs'] at hq ⊢
    split
    · rename_i hpq
      rw [if_pos hpq] at hq
      exact hunused hq
    · rename_i hpq
      rw [if_neg hpq] at hq
      exact h.unused q hq

/-- A join that hands out an unassigned party keeps it. -/
theorem join {t : ConnectionPtr} {request : JoinGameRequest} {uninitialized : Uninitialized S}
    {result : Except Int (PartyPtr S)} (h : AssignedToOwner s) (hids : ConnectionIds s)
    (hallowed : HandsOutUnassigned s (.join t request uninitialized))
    (hr : JoinOutcome s t request uninitialized (result, s')) : AssignedToOwner s' := by
  -- When the lookup finds nothing, the second half of the condition holds.
  have hrequested : nimbleServerLocalPartiesFindPartyForTransport s
      (s.connection t).transportConnectionId = .ok none → ∀ p, Requested s request p →
      UnassignedElsewhere s t p ∧ (request.joinGameType = .partySecret →
        (s.party p).participantReferences.length = request.playerCount) := by
    intro hfind
    rcases hallowed with ⟨p, hp, hbelongs⟩ | hrequested
    · exact absurd hbelongs (not_belongsTo_of_find_none hids hfind hp)
    · exact hrequested
  cases hr with
  | noPlace code hplace => exact h
  | sessionFull code p hplace =>
    exact h.update p rfl (party_nameParty s p) (.inr ⟨rfl, rfl, rfl⟩)
  -- The party was the connection's already. Others who have it assigned are as before.
  | found p hcount hmatch =>
    refine h.assign (assignedParty_assignParty s t p) (party_assignParty s t p) (h.unused p)
      (belongsTo_of_match hids hmatch).2 ?_
    intro c _ hc
    exact h.assigned c p hc
  | unassigned p q htype hfind hnamed hcount hpointer =>
    have hq : Requested s request q := by
      unfold Requested
      rw [htype]
      exact hnamed
    -- A named party has the right number of players here, so the pointer is assigned.
    exact absurd ((hrequested hfind q hq).2 htype) hcount
  | rejoined p htype hfind hnamed hcount =>
    have hp : Requested s request p := by
      unfold Requested
      rw [htype]
      exact hnamed
    refine h.assign (assignedParty_assignParty _ t p) (party_rejoined s t p) (h.unused p) rfl ?_
    intro c hc hassigned
    exact absurd hassigned ((hrequested hfind p hp).1 c hc)
  | created p i participants htype hfind hplace hjoin =>
    have hp : Requested s request p := by
      unfold Requested
      rw [htype]
      exact hplace
    refine h.assign (assignedParty_assignParty _ t p)
      (fun q => party_created s t p q participants i) (fun hused => by cases hused) rfl ?_
    intro c hc hassigned
    exact absurd hassigned ((hrequested hfind p hp).1 c hc)

/-- A tick takes a party away from its connection only by emptying it. -/
theorem tick {p : PartyPtr S} (h : AssignedToOwner s) (hs' : TickOutcome s p s') :
    AssignedToOwner s' := by
  have hdissolve : AssignedToOwner (dissolveParty (advanceTimer s p) p) :=
    h.update p (dissolveParty_transportConnections _ _) (party_dissolved s p) (.inl rfl)
  cases hs' with
  | unused hused => exact h
  | kept counter hused hstate hcounter =>
    exact h.update p rfl (fun q => Server.party_setParty s p q _) (.inr ⟨rfl, rfl, rfl⟩)
  | lost counter hused hstate hfailing =>
    -- Only the states of the participants change.
    refine h.update p ?_ (fun q => party_lost s p q counter) (.inr ⟨rfl, rfl, rfl⟩)
    unfold setToWaitingForReJoin
    rw [setReferencedStates_transportConnections]
    rfl
  | waited hused hstate =>
    exact h.update p rfl (party_advanceTimer s p) (.inr ⟨rfl, rfl, rfl⟩)
  | stale hused hstate => exact h
  | dissolved hused hstate hcount hconnection => exact hdissolve
  | disconnected t hused hstate hcount hconnection hfull =>
    exact hdissolve.replaceConnection t rfl
      (fun c => Server.connection_setConnection _ t c _) rfl

end AssignedToOwner

/-- All operations of such runs keep it. -/
theorem assignedToOwner_keeps :
    BindingKeeps (fun (s : Server E S) op => HandsOutUnassigned s op ∧ ConnectionIds s)
      AssignedToOwner (fun _ => True) where
  sameParties := fun s s' h hs => h.congr (fun c => by rw [hs.connection c]) fun p =>
    .inr ⟨hs.participantReferences p, hs.isUsed p, hs.transportConnection p⟩
  sameSlots := fun s s' h hs => h.of_assignedParty hs.localParties
    fun c => (hs.connection c).assignedParty
  receive := by
    intro s t h _
    unfold receiveOnConnection
    split
    · exact h
    · exact h.replaceConnection t rfl (fun c => Server.connection_setConnection s t c _) rfl
  connect := by
    intro s t request r h _ hr
    cases hr with
    | refused code => exact h
    | existing c => exact h
    | taken c hversion hfind hempty hfront hfree =>
      exact h.replaceConnection c rfl (fun d => Server.connection_setConnection _ c d _) rfl
  join := fun s t request uninitialized r h hallowed hr => h.join hallowed.2 hallowed.1 hr
  tick := fun s h _ => tickParties_ensures h (fun s p s' h hs' => h.tick hs')
    (fun _ _ _ _ _ => trivial)
  reInit := fun s stepId s' h _ hparties hconnections _ => by
    refine h.congr (fun c => ?_) fun p => .inl ?_
    · unfold Server.connection
      rw [hconnections]
    · rw [party_of_reset hparties]
      rfl
  migrate := fun s infos uninitialized _ hallowed => hallowed.1.elim
  connected := by
    intro s t h _
    unfold nimbleServerConnectionConnected
    split
    · exact h
    · exact h.replaceConnection t rfl (fun c => Server.connection_setConnection s t c _) rfl
  disconnected := fun s t _ hallowed => hallowed.1.elim
  connectFault := fun _ _ _ _ => trivial
  joinFault := fun _ _ _ _ => trivial
  composeFault := fun _ _ => trivial
  downloadFault := trivial
  capacityFault := trivial

/-- A new server has no assignments and no participants. -/
theorem Started.assignedToOwner {s : Server E S} (h : Started s) : AssignedToOwner s := by
  have hparty := h.party
  obtain ⟨memory, hinit⟩ := h
  obtain ⟨-, hconnections, -⟩ := (nimbleServerInit_ensures memory).of_ok hinit
  constructor
  · intro t p hp
    cases (hconnections t).2.1.symm.trans hp
  · intro p _
    rw [hparty p]
    rfl

/-- It holds on every such run. -/
theorem assignedToOwner_reachable {start s : Server E S} (hstart : Started start)
    (hrun : Reaches Server.step HandsOutUnassigned start s) : AssignedToOwner s :=
  assignedToOwner_keeps.reachable hstart.assignedToOwner
    (hrun.restrict ConnectionIds fun _ hrun => connectionIds_reachable hstart hrun)

/-! ### Steps are stored for their owner -/

/-- What a GameStep request stores when the assigned party is the connection's own. -/
theorem AssignedToOwner.handleIncomingSteps {s : Server E S} (h : AssignedToOwner s)
    (t : ConnectionPtr) (inStream : InStream) (uninitialized : Uninitialized S) :
    StoredOnlyFor (Owns s t) s
      (nimbleServerHandleIncomingSteps s t inStream uninitialized).2.2 := by
  cases hassigned : (s.connection t).assignedParty with
  | none =>
    unfold nimbleServerHandleIncomingSteps
    rw [hassigned]
    exact StoredOnlyFor.refl _ s
  | some p =>
    have howned : ∀ i ∈ (s.party p).participantReferences, Owns s t i := by
      intro i hi
      rcases h.assigned t p hassigned with hempty | hbelongs
      · rw [hempty] at hi
        cases hi
      · exact ⟨p, hbelongs, hi⟩
    refine And.left (StoreRule.handleIncomingSteps
      (fun s' => StoredOnlyFor (Owns s t) s s' ∧
        (s'.party p).participantReferences = (s.party p).participantReferences)
      ⟨StoredOnlyFor.refl _ s, rfl⟩ ?_ inStream uninitialized)
    -- The request stores for the assigned party and no other.
    intro q hq
    obtain rfl : p = q := Option.some.inj (hassigned.symm.trans hq)
    exact storedOnlyFor_rule s p howned

/-- On every run in which each join hands out a party that no other connection has assigned,
a GameStep request on a connection stores steps only for participants of a party that is in
use and belongs to that connection: no other participant changes, and nothing else is
recorded as stored. The same holds when old authoritative steps are discarded first, which
is how the command starts. -/
theorem steps_stored_for_owner {start s : Server E S} (hstart : Started start)
    (hrun : Reaches Server.step HandsOutUnassigned start s) (t : ConnectionPtr)
    (inStream : InStream) (uninitialized : Uninitialized S) :
    StoredOnlyFor (Owns s t) s
        (nimbleServerHandleIncomingSteps s t inStream uninitialized).2.2 ∧
      StoredOnlyFor (Owns s t) s (readIncomingSteps s t inStream uninitialized).2.2 := by
  have h := assignedToOwner_reachable hstart hrun
  refine ⟨h.handleIncomingSteps t inStream uninitialized, ?_⟩
  obtain ⟨steps, -, hread⟩ := readIncomingSteps_cases s t inStream uninitialized
  rcases hread with hread | hread
  · rw [hread]
    exact (StoredOnlyFor.refl _ s).of_participants rfl
  · have hdiscarded : AssignedToOwner
        { s with game := { s.game with authoritativeSteps := steps } } :=
      h.of_assignedParty rfl fun _ => rfl
    have hstored := hdiscarded.handleIncomingSteps t inStream uninitialized
    rw [hread]
    exact ⟨hstored.participant, hstored.log⟩

/-- A client joins, and its one step is stored for the one participant it has. -/
theorem steps_stored_for_owner_onePlayer :
    ∃ start s : Server plainExternal (plainSetup 2), Started start ∧
      Reaches Server.step HandsOutUnassigned start s ∧ Owns s 0 ⟨0, by decide⟩ ∧
      StoredOnlyFor (Owns s 0) s
        (nimbleServerHandleIncomingSteps s 0 (gameStep 0 [[9]]) (zeroLocals _)).2.2 := by
  obtain ⟨start, s, hstart, hrun, howns⟩ :=
    exists_run Server.step HandsOutUnassigned (fun s => Owns s 0 ⟨0, by decide⟩)
      (nimbleServerInit (zeroMemory (plainSetup 2)) : Result (Server plainExternal _))
      [.reInitWithGame 0, .receive 0, .join 0 onePlayer (zeroLocals _)]
      (by decide +kernel)
  exact ⟨start, s, ⟨_, hstart⟩, hrun, howns,
    (steps_stored_for_owner ⟨_, hstart⟩ hrun 0 (gameStep 0 [[9]]) (zeroLocals _)).1⟩

/-- A client joins, a new game starts, and another client joins and is given the first slot
again. The first client has no party now, and its step enters the buffer of the second. -/
theorem steps_stored_for_stranger :
    ∃ start s : Server plainExternal (plainSetup 2), Started start ∧
      Reaches Server.step (fun s op => s.Enabled op) start s ∧
      s.Serving 0 ∧ Owns s 1 ⟨0, by decide⟩ ∧ ¬Owns s 0 ⟨0, by decide⟩ ∧
      plainExternal.storedPayloads (s.participant ⟨0, by decide⟩).steps = [] ∧
      plainExternal.storedPayloads ((nimbleServerHandleIncomingSteps s 0 (gameStep 0 [[9]])
        (zeroLocals _)).2.2.participant ⟨0, by decide⟩).steps = [[9]] := by
  obtain ⟨start, s, hstart, hrun, hs⟩ :=
    exists_run Server.step (fun s op => s.Enabled op)
      (fun s => s.Serving 0 ∧ Owns s 1 ⟨0, by decide⟩ ∧ ¬Owns s 0 ⟨0, by decide⟩ ∧
        plainExternal.storedPayloads (s.participant ⟨0, by decide⟩).steps = [] ∧
        plainExternal.storedPayloads ((nimbleServerHandleIncomingSteps s 0 (gameStep 0 [[9]])
          (zeroLocals _)).2.2.participant ⟨0, by decide⟩).steps = [[9]])
      (nimbleServerInit (zeroMemory (plainSetup 2)) : Result (Server plainExternal _))
      [.reInitWithGame 0, .receive 0, .join 0 onePlayer (zeroLocals _), .reInitWithGame 0,
        .receive 1, .join 1 onePlayer (zeroLocals _)]
      (by decide +kernel)
  exact ⟨start, s, ⟨_, hstart⟩, hrun, hs⟩

end NimbleServer
