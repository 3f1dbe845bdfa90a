import NimbleServer.Proofs.PartyPlay
import NimbleServer.Proofs.References

/-!
# `NimbleServer.Proofs.GracePeriod`: how long a party waits for a rejoin

A party starts to wait when a tick finds it failing, or when host migration sets it up. Its
timer is then zero (`StartsWaiting.timer`). From there on the timer counts the ticks, and
nothing that a datagram does changes that, except a join that is answered with the party
(`waitedFor_run`). When the timer reaches the limit, the tick dissolves the party.

That tick puts the connections of all parties it dissolves on the free list of connections. A
client that never sent a connect request uses a connection that was not taken off that list.
So the list can be full, and then the server stops in the middle of the tick
(`dissolving_two_stops`).
-/

set_option autoImplicit false

namespace NimbleServer

open NimbleServer.Lib

variable {E : External} {S : Setup}

/-! ### A party starts to wait -/

/-- The party is in use and waits for a rejoin. -/
def LocalParty.Waits (x : LocalParty S) : Prop :=
  x.isUsed = true ∧ x.state = .waitingForReJoin

/-- Two fields are compared. -/
instance (x : LocalParty S) : Decidable x.Waits := inferInstanceAs (Decidable (_ ∧ _))

/-- A party that is changed under a condition waits only if it did before. -/
theorem LocalParty.Waits.of_ite {c : Prop} [Decidable c] {x y : LocalParty S}
    (h : (if c then x else y).Waits) (hx : c → x.Waits → y.Waits) : y.Waits := by
  split at h
  · exact hx ‹c› h
  · exact h

/-- A join makes no party wait. -/
theorem JoinOutcome.waits {s : Server E S} {t : ConnectionPtr} {request : JoinGameRequest}
    {uninitialized : Uninitialized S} {r : Except Int (PartyPtr S) × Server E S}
    (h : JoinOutcome s t request uninitialized r) {p : PartyPtr S}
    (hwaits : (r.2.party p).Waits) : (s.party p).Waits := by
  cases h with
  | noPlace => exact hwaits
  | sessionFull code q hplace =>
    rw [party_nameParty] at hwaits
    exact hwaits.of_ite fun hqp hq => hqp ▸ hq
  | found q hcount hmatch =>
    rw [party_assignParty] at hwaits
    exact hwaits.of_ite fun hqp hq => hqp ▸ hq
  | unassigned q named htype hfind hnamed hcount hpointer =>
    rw [party_assignParty] at hwaits
    exact hwaits.of_ite fun hqp hq => hqp ▸ hq
  -- The party of the answer is in state normal.
  | rejoined q htype hfind hnamed hcount =>
    rw [party_rejoined] at hwaits
    exact hwaits.of_ite fun _ hq => by cases hq.2
  | created q i participants htype hfind hplace hjoin =>
    rw [party_created] at hwaits
    exact hwaits.of_ite fun _ hq => by cases hq.2

/-- Counting steps makes no party wait. -/
theorem LocalParty.SameButSteps.waits {x y : LocalParty S} (h : x.SameButSteps y)
    (hwaits : y.Waits) : x.Waits := by
  unfold SameButSteps at h
  rw [h] at hwaits
  exact hwaits

/-- Of all operations only ticks and host migration make a party wait. -/
theorem step_waits {s : Server E S} {op : Op S} (p : PartyPtr S) (htick : op ≠ .tick)
    (hmigration : ∀ infos uninitialized, op ≠ .hostMigration infos uninitialized) :
    Ensures (s.step op) (fun s' => (s'.party p).Waits → (s.party p).Waits) (fun _ => True) := by
  cases op with
  | join t request uninitialized =>
    exact Ensures.map ((joinGame_ensures s t request uninitialized).mono
      (fun r hr => hr.waits) fun _ _ => trivial)
  | incomingSteps t inStream uninitialized =>
    exact ((sameButSteps_composeKeeps s).readIncomingSteps (fun _ => .refl _) t inStream
      uninitialized p).waits
  | composeRound =>
    exact Ensures.map (((sameButSteps_composeKeeps s).composeRule.composeRound
      fun _ => .refl _).mono (fun _ h => (h p).waits) fun _ _ => trivial)
  | tick => exact absurd rfl htick
  | hostMigration infos uninitialized => exact absurd rfl (hmigration infos uninitialized)
  | reInitWithGame stepId =>
    refine (nimbleServerReInitWithGame_binding s stepId).mono (fun s' hs' hwaits => ?_)
      fun _ _ => trivial
    -- A new game has no parties.
    rw [party_of_reset hs'.1] at hwaits
    cases hwaits.1
  | connectionDisconnected t =>
    refine Ensures.map ((connectionDisconnected_ensures
      (fun s' => (s'.party p).Waits → (s.party p).Waits) id t ?_).mono (fun _ h => h)
      fun _ _ => trivial)
    -- The party that is dropped is not in use any more.
    intro q _ _ hwaits
    rw [party_dropParty] at hwaits
    exact hwaits.of_ite fun _ hq => by cases hq.1
  | _ =>
    refine (step_isConnection_party s ?_ p).mono (fun s' hs' hwaits => hs' ▸ hwaits)
      fun _ h => h
    trivial

/-- The operation makes the party wait. Host migration resets all parties first, so a party
that it sets up starts to wait even if it was waiting. -/
structure StartsWaiting (s : Server E S) (op : Op S) (p : PartyPtr S) (s' : Server E S) :
    Prop where
  step : s.step op = .ok s'
  before : ¬(s.party p).Waits ∨ ∃ infos uninitialized, op = .hostMigration infos uninitialized
  after : (s'.party p).Waits

/-- Host migration sets up all parties with a timer at zero. -/
theorem hostMigration_timer (s : Server E S) (infos : List LocalPartyInfo)
    (uninitialized : Uninitialized S) (p : PartyPtr S) :
    Ensures (nimbleServerHostMigration s infos uninitialized)
      (fun r => (r.2.party p).waitingForReconnectTimer = 0) Fault.IsMigration := by
  refine nimbleServerHostMigration_ensures
    (fun s' => (s'.party p).waitingForReconnectTimer = 0) ?_ (fun _ _ h => h) ?_ ?_ infos
    uninitialized
  · rw [party_of_reset rfl]
    rfl
  · intro s' q h _
    rw [party_nameParty]
    split
    · rename_i hqp
      exact hqp ▸ h
    · exact h
  · intro s' q participants i h _
    rw [party_prepareParty]
    split
    · rfl
    · exact h

/-- A tick that makes a party wait sets its timer to zero. -/
theorem timer_tickedParty {x : LocalParty S} (hbefore : ¬x.Waits)
    (hafter : (tickedParty x).Waits) : (tickedParty x).waitingForReconnectTimer = 0 := by
  unfold tickedParty at hafter ⊢
  split at hafter
  · rename_i hused
    rw [if_pos hused]
    cases hstate : x.state with
    -- Only a party in state Normal can start to wait.
    | waitingForReJoin => exact absurd ⟨hused, hstate⟩ hbefore
    | dissolved =>
      rw [hstate] at hafter
      cases hstate.symm.trans hafter.2
    | normal =>
      rw [hstate] at hafter
      dsimp only at hafter ⊢
      unfold tickedNormal at hafter ⊢
      dsimp only at hafter ⊢
      split at hafter
      · cases hstate.symm.trans hafter.2
      · rename_i hlost
        rw [if_neg hlost]
  · exact absurd hafter hbefore

/-- Whichever operation makes a party wait, its timer is at zero. -/
theorem StartsWaiting.timer {s s' : Server E S} {op : Op S} {p : PartyPtr S}
    (h : StartsWaiting s op p s') : (s'.party p).waitingForReconnectTimer = 0 := by
  by_cases htick : op = .tick
  · subst htick
    have hparty := (tickParties_party s).of_ok h.step p
    have hafter := h.after
    rw [hparty] at hafter ⊢
    rcases h.before with hbefore | ⟨infos, uninitialized, hop⟩
    · exact timer_tickedParty hbefore hafter
    · cases hop
  · by_cases hmigration : ∃ infos uninitialized, op = .hostMigration infos uninitialized
    · obtain ⟨infos, uninitialized, rfl⟩ := hmigration
      obtain ⟨r, hr, rfl⟩ := map_eq_ok.mp h.step
      exact (hostMigration_timer s infos uninitialized p).of_ok hr
    · have hwaits := (step_waits p htick fun infos uninitialized hop =>
        hmigration ⟨infos, uninitialized, hop⟩).of_ok h.step h.after
      -- Otherwise it would have waited before.
      exact (h.before.elim (fun hnot => hnot hwaits) hmigration).elim

/-! ### The party waits -/

/-- `y` is the party `x` after it waited for a number of ticks, but for what was counted about
its steps. -/
def WaitedFor (x : LocalParty S) (ticks : Nat) (y : LocalParty S) : Prop :=
  ({ x with waitingForReconnectTimer := ticks } : LocalParty S).SameButSteps y

namespace WaitedFor

variable {x y : LocalParty S} {ticks : Nat}

/-- No tick yet. -/
theorem start (htimer : x.waitingForReconnectTimer = 0) : WaitedFor x 0 x := by
  have hx : ({ x with waitingForReconnectTimer := 0 } : LocalParty S) = x := by
    rw [← htimer]
  unfold WaitedFor
  rw [hx]
  exact .refl x

/-- The party still waits, -/
theorem waits (h : WaitedFor x ticks y) (hwaits : x.Waits) : y.Waits := by
  unfold WaitedFor LocalParty.SameButSteps at h
  rw [h]
  exact hwaits

/-- and the next tick finds the limit reached or not. -/
theorem expires_eq (h : WaitedFor x ticks y) (hwaits : x.Waits) :
    y.expires = !decide (ticks + 1 < x.waitingForReconnectMaxTimer) := by
  unfold WaitedFor LocalParty.SameButSteps at h
  rw [h]
  unfold LocalParty.expires tickWaitingForReconnect
  simp [hwaits.1, hwaits.2]

/-- A tick before the limit. -/
theorem tick (h : WaitedFor x ticks y) (hwaits : x.Waits)
    (hticks : ticks + 1 < x.waitingForReconnectMaxTimer) :
    WaitedFor x (ticks + 1) (tickedParty y) := by
  have hexpires : y.expires = false := by
    rw [h.expires_eq hwaits, decide_eq_true hticks]
    rfl
  rw [tickedParty_waiting (h.waits hwaits).1 (h.waits hwaits).2 hexpires]
  unfold WaitedFor LocalParty.SameButSteps at h ⊢
  rw [h]
  rfl

end WaitedFor

/-- Datagrams and ticks, without a join that is answered with the party. -/
def Undisturbed (p : PartyPtr S) (s : Server E S) (op : Op S) : Prop :=
  op = .tick ∨ op.IsDatagram ∧ ¬JoinsParty s p op

/-- Until the limit is reached, the timer of the party counts the ticks. -/
theorem waitedFor_run {s : Server E S} {p : PartyPtr S} (hwaits : (s.party p).Waits)
    (htimer : (s.party p).waitingForReconnectTimer = 0) {state : Server E S × List Unit}
    (hrun : Reaches (recorded Server.step tickEvents) (fun state op => Undisturbed p state.1 op)
      (s, []) state)
    (hticks : state.2.length < max 1 (s.party p).waitingForReconnectMaxTimer) :
    WaitedFor (s.party p) state.2.length (state.1.party p) := by
  induction hrun with
  | refl => exact .start htimer
  | @tail state _ op hbefore hallowed hstep ih =>
    obtain ⟨s2, hs2, rfl⟩ := map_eq_ok.mp hstep
    rw [List.length_append] at hticks
    -- The limit was not reached earlier either, so the claim holds before this operation.
    have h := ih (by omega)
    rcases hallowed with rfl | ⟨hop, hjoin⟩
    · have hparty := (tickParties_party state.1).of_ok hs2 p
      rw [hparty, List.length_append, Nat.add_comm]
      refine h.tick hwaits ?_
      have hone : (tickEvents state.1 Op.tick).length = 1 := rfl
      omega
    · have hnone : tickEvents state.1 op = [] := by
        cases op with
        | tick => exact hop.elim
        | _ => rfl
      rw [hnone]
      exact LocalParty.SameButSteps.trans h
        ((step_sameButSteps hop (h.waits hwaits).1 hjoin).of_ok hs2)

/-! ### The party gives up -/

/-- No other party in use references a participant of the party. -/
def ReferencedAlone (s : Server E S) (p : PartyPtr S) : Prop :=
  ∀ q, q ≠ p → (s.party q).isUsed = true →
    ∀ i ∈ (s.party q).participantReferences, i ∉ (s.party p).participantReferences

/-- There are finitely many parties. -/
instance (s : Server E S) (p : PartyPtr S) : Decidable (ReferencedAlone s p) :=
  inferInstanceAs (Decidable (∀ _, _))

/-- So it is in every game in which no host migrates. -/
theorem referencedAlone_reachable {start s : Server E S} (hstart : StartsGame start)
    (hrun : Reaches Server.step (fun _ op => op.IsPlay) start s) {p : PartyPtr S}
    (hused : (s.party p).isUsed = true) : ReferencedAlone s p := by
  have h : References False s :=
    references_reachable False hstart (fun _ _ h => h) (fun _ _ _ h => h.elim) hrun
  intro q hqp hq i hi hip
  exact hqp (h.disjoint hq hused hi hip)

/-- The free list of connections has room for those of all parties that give up at the next
tick. -/
def RoomToDissolve (s : Server E S) : Prop :=
  s.freeTransportConnectionList.count + freedCount s (List.finRange S.maxConnectionCount)
    ≤ NIMBLE_SERVER_CIRCULAR_BUFFER_SIZE

/-- Two numbers are compared. -/
instance (s : Server E S) : Decidable (RoomToDissolve s) := inferInstanceAs (Decidable (_ ≤ _))

/-- The round of a party leaves the other parties in use and their participants alone. -/
def OthersUntouched (s : Server E S) (p : PartyPtr S) (s' : Server E S) : Prop :=
  ∀ q, q ≠ p → s'.party q = s.party q ∧ ((s.party q).isUsed = true →
    ∀ i ∈ (s.party q).participantReferences, s'.participant i = s.participant i)

/-- A tick from `s` to `s'` dissolves the party. The tick goes through the parties in order:
`s1` is the state before the round of this one and `s2` the state after it. -/
structure DissolvedInTick (s : Server E S) (p : PartyPtr S) (s' : Server E S) : Prop where
  round : ∃ before after s1 s2, List.finRange S.maxConnectionCount = before ++ p :: after ∧
    before.foldlM tickParty s = .ok s1 ∧ tickParty s1 p = .ok s2 ∧
    after.foldlM tickParty s2 = .ok s' ∧ (s1.party p).Waits ∧ OthersUntouched s1 p s2
  party : s'.party p = dissolvedParty (s.party p)
  participants : ∀ i ∈ (s.party p).participantReferences, (s'.participant i).state = .leaving
  connection : ∀ t, (s.party p).transportConnection = some t →
    s'.connection t = transportConnectionDisconnect (s.connection t)
  others : ∀ q, q ≠ p → s'.party q = tickedParty (s.party q)

/-- A round gives a party no participants. -/
theorem mem_participantReferences_tickedParty {x : LocalParty S} {i : ParticipantPtr S}
    (hused : (tickedParty x).isUsed = true)
    (hi : i ∈ (tickedParty x).participantReferences) :
    x.isUsed = true ∧ i ∈ x.participantReferences := by
  unfold tickedParty at hused hi
  split at hused
  · rename_i hx
    rw [if_pos hx] at hi
    refine ⟨hx, ?_⟩
    split at hi
    · unfold tickedNormal at hi
      dsimp only at hi
      split at hi <;> exact hi
    · split at hi
      · cases hi
      · exact hi
    · exact hi
  · rename_i hx
    exact absurd hused hx

/-- The rounds around that of the party, which find and leave it as it is. -/
theorem dissolvedInTick_of_rounds {s s1 s2 s' : Server E S} {p : PartyPtr S}
    {before after : List (PartyPtr S)}
    (hsplit : List.finRange S.maxConnectionCount = before ++ p :: after)
    (hexpires : (s.party p).expires = true) (halone : ReferencedAlone s p)
    (hs1 : before.foldlM tickParty s = .ok s1) (hs2 : tickParty s1 p = .ok s2)
    (hs' : after.foldlM tickParty s2 = .ok s')
    (hparties : ∀ q, s'.party q = tickedParty (s.party q)) : DissolvedInTick s p s' := by
  -- Each party has one round, so the rounds before and after are those of other parties.
  have hnodup := List.nodup_finRange S.maxConnectionCount
  have hp : p ∉ before := notMem_done hnodup hsplit
  rw [hsplit, List.nodup_append] at hnodup
  have hbefore : TickedUpTo s before s1 := (rounds_tickedUpTo s hnodup.1).of_ok hs1
  have hafter : TickedUpTo s2 after s' :=
    (rounds_tickedUpTo s2 (List.nodup_cons.mp hnodup.2.1).2).of_ok hs'
  have hparty : s1.party p = s.party p := by rw [hbefore.party, if_neg hp]
  have hexpires1 : (s1.party p).expires = true := hparty.symm ▸ hexpires
  have hdissolves := ((tickParty_ticked s1 p).of_ok hs2).expired hexpires1
  have hwaits : (s1.party p).Waits := by
    simp only [LocalParty.expires, Bool.and_eq_true, beq_iff_eq] at hexpires1
    exact hexpires1.1
  refine ⟨⟨before, after, s1, s2, hsplit, hs1, hs2, hs', hwaits, ?_⟩, ?_, ?_, ?_, ?_⟩
  · intro q hq
    refine ⟨by rw [hdissolves.party, if_neg hq.symm], fun hused i hi => ?_⟩
    have hreferenced : (s.party q).isUsed = true ∧ i ∈ (s.party q).participantReferences := by
      rw [hbefore.party] at hused hi
      split at hused
      · rename_i hmem
        rw [if_pos hmem] at hi
        exact mem_participantReferences_tickedParty hused hi
      · rename_i hmem
        rw [if_neg hmem] at hi
        exact ⟨hused, hi⟩
    rw [hdissolves.participant, hparty, if_neg (halone q hq hreferenced.1 i hreferenced.2)]
  · rw [hparties, tickedParty_expires hexpires]
  · intro i hi
    -- No later round changes the participant, since only this party references it.
    have hlater : ∀ q ∈ after, (s2.party q).isUsed = true →
        i ∉ (s2.party q).participantReferences := by
      intro q hq
      have hqp : q ≠ p := by
        rintro rfl
        exact (List.nodup_cons.mp hnodup.2.1).1 hq
      have hqbefore : q ∉ before := fun hmem =>
        hnodup.2.2 q hmem q (List.mem_cons_of_mem p hq) rfl
      rw [hdissolves.party, if_neg hqp.symm, hbefore.party, if_neg hqbefore]
      exact fun hused hmem => halone q hqp hused i hmem hi
    rw [hafter.participant i hlater, hdissolves.participant, hparty, if_pos hi]
  · -- Another party can have the same connection and give up in the same tick.
    intro t ht
    have hagain : transportConnectionDisconnect (s1.connection t)
        = transportConnectionDisconnect (s.connection t) := by
      rcases hbefore.connection t with hc | hc
      · rw [hc]
      · rw [hc]
        rfl
    have hround : s2.connection t = transportConnectionDisconnect (s.connection t) := by
      rw [hdissolves.connection, hparty, if_pos ht, hagain]
    rcases hafter.connection t with hc | hc
    · rw [hc, hround]
    · rw [hc, hround]
      rfl
  · exact fun q _ => hparties q

/-- The tick is split at the round of the party. -/
theorem tickParties_dissolves {s s' : Server E S} {p : PartyPtr S}
    (hexpires : (s.party p).expires = true) (halone : ReferencedAlone s p)
    (htick : tickParties s = .ok s') : DissolvedInTick s p s' := by
  have hparties := (tickParties_party s).of_ok htick
  obtain ⟨before, after, hsplit⟩ := List.append_of_mem (List.mem_finRange p)
  unfold tickParties at htick
  rw [hsplit, List.foldlM_append] at htick
  obtain ⟨s1, hs1, hrest⟩ := bind_eq_ok.mp htick
  rw [List.foldlM_cons] at hrest
  obtain ⟨s2, hs2, hs'⟩ := bind_eq_ok.mp hrest
  exact dissolvedInTick_of_rounds hsplit hexpires halone hs1 hs2 hs' hparties

/-! ### The grace period -/

/-- A join that is answered with the party either lets the client rejoin, and then the party
does not wait any more, or it only sets the limit again. -/
def JoinedOrLimited (x : LocalParty S) (t : ConnectionPtr) (y : LocalParty S) : Prop :=
  (y = rejoinedParty x t ∧ ¬y.Waits) ∨
    y = { x with waitingForReconnectMaxTimer := S.maxWaitingForReconnectTicks }

/-- These are the joins that are answered with a party in use. -/
theorem JoinOutcome.joinedOrLimited {s : Server E S} {t : ConnectionPtr}
    {request : JoinGameRequest} {uninitialized : Uninitialized S} {p : PartyPtr S}
    {s' : Server E S} (h : JoinOutcome s t request uninitialized (.ok p, s'))
    (hused : (s.party p).isUsed = true) : JoinedOrLimited (s.party p) t (s'.party p) := by
  cases h with
  | found _ hcount hmatch =>
    rw [party_assignParty, if_pos rfl]
    exact .inr rfl
  | unassigned _ named htype hfind hnamed hcount hpointer =>
    rw [party_assignParty, if_pos rfl]
    exact .inr rfl
  | rejoined _ htype hfind hnamed hcount =>
    rw [party_rejoined, if_pos rfl]
    refine .inl ⟨rfl, ?_⟩
    rintro ⟨-, ⟨⟩⟩
  | created _ i participants htype hfind hplace hjoin =>
    -- A new party takes a slot that was free, and this one is in use.
    cases (firstFreeParty_isUsed hplace).symm.trans hused

/-- A party that starts to wait with the limit `m` is in use and waits, with the number of
ticks on its timer, until tick `max 1 m`. If no other party in use references its participants,
then that tick dissolves it exactly if the free list of connections has room. -/
theorem grace_period_iff {start s₀ s s' : Server E S} {op : Op S} {p : PartyPtr S}
    {ticks : List Unit} (hstart : Started start)
    (hrun : Reaches Server.step (fun _ _ => True) start s₀) (hstarts : StartsWaiting s₀ op p s)
    (hwaited : Reaches (recorded Server.step tickEvents)
      (fun state op => Undisturbed p state.1 op) (s, []) (s', ticks)) :
    (ticks.length < max 1 (s.party p).waitingForReconnectMaxTimer →
      (s'.party p).Waits ∧ (s'.party p).waitingForReconnectTimer = ticks.length) ∧
    (ticks.length + 1 = max 1 (s.party p).waitingForReconnectMaxTimer →
      ReferencedAlone s' p →
      ((∃ s'', s'.step .tick = .ok s'' ∧ DissolvedInTick s' p s'') ↔ RoomToDissolve s')) ∧
    ∀ t request uninitialized s'', (s'.party p).Waits →
      joinGame s' t request uninitialized = .ok (.ok p, s'') →
      JoinedOrLimited (s'.party p) t (s''.party p) := by
  have hwait : ticks.length < max 1 (s.party p).waitingForReconnectMaxTimer →
      WaitedFor (s.party p) ticks.length (s'.party p) :=
    waitedFor_run hstarts.after hstarts.timer hwaited
  refine ⟨fun hticks => ⟨(hwait hticks).waits hstarts.after, ?_⟩, fun hticks halone => ?_, ?_⟩
  · exact congrArg LocalParty.waitingForReconnectTimer (hwait hticks)
  · have hexpires : (s'.party p).expires = true := by
      rw [(hwait (by omega)).expires_eq hstarts.after, decide_eq_false (by omega)]
      rfl
    have hreaches : Reaches Server.step (fun _ _ => True) start s' :=
      (hrun.tail trivial hstarts.step).trans hwaited.of_recorded
    -- A tick returns exactly if there is room, for all parties that give up together.
    have hreturns := tickParties_returns_iff (usedCount_le_partiesCount hstart hreaches)
    constructor
    · rintro ⟨s'', hs'', -⟩
      exact hreturns.mp ⟨s'', hs''⟩
    · intro hroom
      obtain ⟨s'', hs''⟩ := hreturns.mpr hroom
      exact ⟨s'', hs'', tickParties_dissolves hexpires halone hs''⟩
  · intro t request uninitialized s'' hwaits hjoin
    exact ((joinGame_ensures s' t request uninitialized).of_ok hjoin).joinedOrLimited hwaits.1

/-- The first of two clients is lost. Its party starts to wait at the 181st tick, with a limit
of one tick, and the next tick dissolves it. -/
theorem grace_period_firstClientLost :
    ∃ start s₀ s : Server plainExternal (plainSetup 2), Started start ∧
      Reaches Server.step (fun _ _ => True) start s₀ ∧
      StartsWaiting s₀ .tick ⟨0, by decide⟩ s ∧
      ∃ s', s.step .tick = .ok s' ∧ DissolvedInTick s ⟨0, by decide⟩ s' := by
  obtain ⟨start, s₀, hstart, hrun, hbefore, hnext⟩ :=
    exists_run Server.step (fun _ _ => True)
      (fun s₀ : Server plainExternal (plainSetup 2) => ¬(s₀.party ⟨0, by decide⟩).Waits ∧
        (s₀.step .tick).toOption.any (fun s : Server plainExternal (plainSetup 2) =>
          decide ((s.party ⟨0, by decide⟩).Waits ∧
          (s.party ⟨0, by decide⟩).waitingForReconnectMaxTimer = 1 ∧
          ReferencedAlone s ⟨0, by decide⟩ ∧ RoomToDissolve s)) = true)
      (nimbleServerInit (zeroMemory (plainSetup 2)) : Result (Server plainExternal _))
      (.reInitWithGame 0 :: firstClientLost 180) (by decide +kernel)
  obtain ⟨s, hs, hchecks⟩ := exists_ok_of_any hnext
  obtain ⟨hwaits, hlimit, halone, hroom⟩ := of_decide_eq_true hchecks
  have hstarts : StartsWaiting s₀ .tick ⟨0, by decide⟩ s := ⟨hs, .inl hbefore, hwaits⟩
  have hgrace := (grace_period_iff ⟨_, hstart⟩ hrun hstarts .refl).2.1
  exact ⟨start, s₀, s, ⟨_, hstart⟩, hrun, hstarts,
    (hgrace (by rw [hlimit]; rfl) halone).mpr hroom⟩

/-- Two of three clients are lost at the same time. Their parties start to wait at the 181st
tick, with a limit of one tick, and the server stops in the next tick: the free list of
connections is full. -/
theorem dissolving_two_stops :
    ∃ start s₀ s : Server plainExternal (plainSetup 3), Started start ∧
      Reaches Server.step (fun s op => s.Enabled op) start s₀ ∧
      StartsWaiting s₀ .tick ⟨1, by decide⟩ s ∧
      (s.party ⟨1, by decide⟩).waitingForReconnectMaxTimer = 1 ∧
      ReferencedAlone s ⟨1, by decide⟩ ∧
      s.step .tick = .error (.circularBufferOverwrite .transportConnections) := by
  obtain ⟨start, s₀, hstart, hrun, hbefore, hnext⟩ :=
    exists_run Server.step (fun s op => s.Enabled op)
      (fun s₀ : Server plainExternal (plainSetup 3) => ¬(s₀.party ⟨1, by decide⟩).Waits ∧
        (s₀.step .tick).toOption.any (fun s : Server plainExternal (plainSetup 3) =>
          decide ((s.party ⟨1, by decide⟩).Waits ∧
          (s.party ⟨1, by decide⟩).waitingForReconnectMaxTimer = 1 ∧
          ReferencedAlone s ⟨1, by decide⟩ ∧ (s.step .tick).map (fun _ => ())
            = .error (.circularBufferOverwrite .transportConnections))) = true)
      (nimbleServerInit (zeroMemory (plainSetup 3)) : Result (Server plainExternal _))
      (.reInitWithGame 0 :: twoClientsLost 180) (by decide +kernel)
  obtain ⟨s, hs, hchecks⟩ := exists_ok_of_any hnext
  obtain ⟨hwaits, hlimit, halone, hstops⟩ := of_decide_eq_true hchecks
  exact ⟨start, s₀, s, ⟨_, hstart⟩, hrun, ⟨hs, .inl hbefore, hwaits⟩, hlimit, halone,
    map_eq_error.mp hstops⟩

end NimbleServer
