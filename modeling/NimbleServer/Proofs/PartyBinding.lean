import NimbleServer.Model.PlainServer
import NimbleServer.Proofs.Lookup

/-!
# `NimbleServer.Proofs.PartyBinding`: one party for each connection

A join first looks for the party of the connection it came on, and creates or hands out a
party only when it finds none. So a connection never gets a second party, provided the
lookup sees the party the connection has.

The lookup scans the first `partiesCount` slots. A party keeps its slot when parties before
it are dissolved, so its slot can be past the end of the scan. `PartiesVisible` says that
this is not so for the connection of a join. Where it holds for each join of a run, no two
parties have the same connection, and a further join is answered with the party there is
(`join_idempotent_iff_visible`).
-/

set_option autoImplicit false

namespace NimbleServer

open NimbleServer.Lib

variable {E : External} {S : Setup}

/-! ### What a lookup says about the parties of a connection -/

/-- The lookup scans the slots of the connection's parties. -/
def PartiesVisible (s : Server E S) (t : ConnectionPtr) : Prop :=
  ∀ p, (s.party p).BelongsTo t → p.val < s.localParties.partiesCount

/-- There are finitely many parties. -/
instance (s : Server E S) (t : ConnectionPtr) : Decidable (PartiesVisible s t) :=
  inferInstanceAs (Decidable (∀ _, _))

/-- What the lookup finds belongs to the connection. -/
theorem belongsTo_of_match {s : Server E S} (hids : ConnectionIds s) {t : ConnectionPtr}
    {p : PartyPtr S}
    (hmatch : isPartyForTransport s (s.connection t).transportConnectionId (s.party p) = true) :
    (s.party p).BelongsTo t :=
  (isPartyForTransport_iff hids t _).mp hmatch

/-- If the lookup finds nothing, the connection has no party that it can see. -/
theorem not_belongsTo_of_find_none {s : Server E S} (hids : ConnectionIds s)
    {t : ConnectionPtr} (hfind : nimbleServerLocalPartiesFindPartyForTransport s
      (s.connection t).transportConnectionId = .ok none) {p : PartyPtr S}
    (hp : p.val < s.localParties.partiesCount) : ¬(s.party p).BelongsTo t := by
  intro hbelongs
  have hnone := ((findPartyForTransport_ensures s _).of_ok hfind).2 p hp
  rw [(isPartyForTransport_iff hids t _).mpr hbelongs] at hnone
  cases hnone

/-- A connection with a party that the lookup sees is answered with one of its parties, and
nothing is created or handed out. -/
theorem joinGame_of_visible {s : Server E S} (hids : ConnectionIds s) {t : ConnectionPtr}
    {p : PartyPtr S} (hbelongs : (s.party p).BelongsTo t)
    (hp : p.val < s.localParties.partiesCount) (request : JoinGameRequest)
    (uninitialized : Uninitialized S) :
    ∃ q, (s.party q).BelongsTo t ∧
      joinGame s t request uninitialized = .ok (.ok q, assignParty s t q) := by
  have hlookup := findPartyForTransport_ensures s (s.connection t).transportConnectionId
  have hmatch := (isPartyForTransport_iff hids t (s.party p)).mpr hbelongs
  cases hfind : nimbleServerLocalPartiesFindPartyForTransport s
      (s.connection t).transportConnectionId with
  | error fault =>
    -- The lookup leaves the array only if no party of it matches.
    have hnone := (hlookup.of_error hfind).2.2 p
    rw [hmatch] at hnone
    cases hnone
  | ok r =>
    cases r with
    | none => exact absurd hbelongs (not_belongsTo_of_find_none hids hfind hp)
    | some q =>
      refine ⟨q, belongsTo_of_match hids (hlookup.of_ok hfind).2, ?_⟩
      unfold joinGame nimbleServerReadAndJoinParticipants joinLocalParty
      rw [hfind]
      rfl

/-! ### The invariant -/

/-- No connection has two parties, and the parties of connections have the reconnect limit
of the setup. -/
structure OnePartyEach (s : Server E S) : Prop where
  unique : ∀ p q t, (s.party p).BelongsTo t → (s.party q).BelongsTo t → p = q
  limit : ∀ p t, (s.party p).BelongsTo t →
    (s.party p).waitingForReconnectMaxTimer = S.maxWaitingForReconnectTicks

/-- Each join comes on a connection whose parties the lookup sees. -/
@[reducible] def JoinsVisible (s : Server E S) : Op S → Prop
  | .join t _ _ => PartiesVisible s t
  | _ => True

/-- The condition can be evaluated for each operation. -/
instance (s : Server E S) (op : Op S) : Decidable (JoinsVisible s op) :=
  Op.decidableOf (JoinsVisible s) op

namespace OnePartyEach

variable {s s' : Server E S}

/-- No party gets a connection, and a reconnect limit changes only to that of the setup. -/
theorem congr (h : OnePartyEach s)
    (hparty : ∀ p t, (s'.party p).BelongsTo t → (s.party p).BelongsTo t ∧
      ((s'.party p).waitingForReconnectMaxTimer = (s.party p).waitingForReconnectMaxTimer ∨
        (s'.party p).waitingForReconnectMaxTimer = S.maxWaitingForReconnectTicks)) :
    OnePartyEach s' where
  unique := fun p q t hp hq => h.unique p q t (hparty p t hp).1 (hparty q t hq).1
  limit := by
    intro p t hp
    obtain ⟨hold, hlimit | hlimit⟩ := hparty p t hp
    · exact hlimit.trans (h.limit p t hold)
    · exact hlimit

/-- It is about the parties only. -/
theorem of_localParties (h : OnePartyEach s) (hparties : s'.localParties = s.localParties) :
    OnePartyEach s' := by
  refine h.congr fun p t hp => ?_
  have hparty : s'.party p = s.party p := congrArg (LocalParties.get · p) hparties
  rw [hparty] at hp ⊢
  exact ⟨hp, .inl rfl⟩

/-- One party is replaced by one that belongs to at most those connections it belonged to
before. -/
theorem update (h : OnePartyEach s) (p : PartyPtr S) {x : LocalParty S}
    (hs' : ∀ q, s'.party q = if p = q then x else s.party q)
    (hbelongs : ∀ t, x.BelongsTo t → (s.party p).BelongsTo t)
    (hlimit : x.waitingForReconnectMaxTimer = (s.party p).waitingForReconnectMaxTimer ∨
      x.waitingForReconnectMaxTimer = S.maxWaitingForReconnectTicks) : OnePartyEach s' := by
  refine h.congr fun q t hq => ?_
  rw [hs'] at hq ⊢
  split at hq
  · rename_i hpq
    rw [if_pos hpq, ← hpq]
    exact ⟨hbelongs t hq, hlimit⟩
  · rename_i hpq
    rw [if_neg hpq]
    exact ⟨hq, .inl rfl⟩

/-- One party is bound to a connection that had none. -/
theorem bind (h : OnePartyEach s) (p : PartyPtr S) {x : LocalParty S} {t : ConnectionPtr}
    (hs' : ∀ q, s'.party q = if p = q then x else s.party q)
    (hconnection : x.transportConnection = some t)
    (hlimit : x.waitingForReconnectMaxTimer = S.maxWaitingForReconnectTicks)
    (hnone : ∀ q, ¬(s.party q).BelongsTo t) : OnePartyEach s' := by
  have hx : ∀ c, x.BelongsTo c → c = t := fun c hc =>
    Option.some.inj (hc.2.symm.trans hconnection)
  constructor
  · intro q r c hq hr
    rw [hs'] at hq hr
    -- Of two parties with one connection either both are the new one or neither is.
    split at hq
    · rename_i hpq
      split at hr
      · rename_i hpr
        rw [← hpq, ← hpr]
      · exact absurd (hx c hq ▸ hr) (hnone r)
    · split at hr
      · exact absurd (hx c hr ▸ hq) (hnone q)
      · exact h.unique q r c hq hr
  · intro q c hq
    rw [hs'] at hq ⊢
    split at hq
    · rename_i hpq
      rw [if_pos hpq]
      exact hlimit
    · rename_i hpq
      rw [if_neg hpq]
      exact h.limit q c hq

/-- A join binds a party only to a connection without one. -/
theorem join {t : ConnectionPtr} {request : JoinGameRequest} {uninitialized : Uninitialized S}
    {result : Except Int (PartyPtr S)} (h : OnePartyEach s) (hids : ConnectionIds s)
    (hvisible : PartiesVisible s t)
    (hr : JoinOutcome s t request uninitialized (result, s')) : OnePartyEach s' := by
  have hassign : ∀ p, OnePartyEach (assignParty s t p) := fun p =>
    h.update p (party_assignParty s t p) (fun _ hc => hc) (.inr rfl)
  -- The lookup sees all parties of the connection, so if it finds none there is none.
  have hnone : nimbleServerLocalPartiesFindPartyForTransport s
      (s.connection t).transportConnectionId = .ok none → ∀ q, ¬(s.party q).BelongsTo t :=
    fun hfind q hq => not_belongsTo_of_find_none hids hfind (hvisible q hq) hq
  cases hr with
  | noPlace code hplace => exact h
  | sessionFull code p hplace =>
    exact h.update p (party_nameParty s p) (fun _ hc => hc) (.inl rfl)
  | found p hcount hmatch => exact hassign p
  | unassigned p q htype hfind hnamed hcount hpointer => exact hassign p
  | rejoined p htype hfind hnamed hcount =>
    exact h.bind p (party_rejoined s t p) rfl rfl (hnone hfind)
  | created p i participants htype hfind hplace hjoin =>
    exact h.bind p (fun q => party_created s t p q participants i) rfl rfl (hnone hfind)

/-- A tick binds no party. -/
theorem tick {p : PartyPtr S} (h : OnePartyEach s) (hs' : TickOutcome s p s') :
    OnePartyEach s' := by
  have hdissolve : OnePartyEach (dissolveParty (advanceTimer s p) p) :=
    h.update p (party_dissolved s p) (fun _ hc => by cases hc.1) (.inl rfl)
  cases hs' with
  | unused hused => exact h
  | kept counter hused hstate hcounter =>
    exact h.update p (fun q => Server.party_setParty s p q _) (fun _ hc => hc) (.inl rfl)
  | lost counter hused hstate hfailing =>
    exact h.update p (fun q => party_lost s p q counter) (fun _ hc => hc) (.inl rfl)
  | waited hused hstate =>
    exact h.update p (party_advanceTimer s p) (fun _ hc => hc) (.inl rfl)
  | stale hused hstate => exact h
  | dissolved hused hstate hcount hconnection => exact hdissolve
  | disconnected t hused hstate hcount hconnection hfull =>
    exact hdissolve.of_localParties rfl

/-- After a reset no party is in use. -/
theorem reset (hparties : s'.localParties = nimbleServerLocalPartiesReset s.localParties) :
    OnePartyEach s' := by
  have hnone : ∀ p t, ¬(s'.party p).BelongsTo t := by
    rintro p t ⟨hused, -⟩
    rw [party_of_reset hparties] at hused
    cases hused
  exact ⟨fun p _ t hp _ => absurd hp (hnone p t), fun p t hp => absurd hp (hnone p t)⟩

/-- A lost connection takes a party out of use. -/
theorem disconnected (h : OnePartyEach s) (t : ConnectionPtr) :
    Ensures (nimbleServerConnectionDisconnected s t) (fun r => OnePartyEach r.2)
      (fun _ => True) := by
  refine (connectionDisconnected_ensures OnePartyEach h t ?_).mono (fun _ h => h)
    (fun _ _ => trivial)
  intro p _ _
  exact h.update p (party_dropParty s t p) (fun _ hc => by cases hc.1) (.inl rfl)

end OnePartyEach

/-- All operations keep it, joins if the lookup sees the connection's parties. -/
theorem onePartyEach_keeps :
    BindingKeeps (fun (s : Server E S) op => JoinsVisible s op ∧ ConnectionIds s)
      OnePartyEach (fun _ => True) where
  sameParties := fun s s' h hs => h.congr fun p t hp => by
    have hbelongs : (s.party p).BelongsTo t :=
      ⟨(hs.isUsed p).symm.trans hp.1, (hs.transportConnection p).symm.trans hp.2⟩
    exact ⟨hbelongs, .inl (hs.waitingForReconnectMaxTimer p)⟩
  sameSlots := fun s s' h hs => h.of_localParties hs.localParties
  receive := fun s t h _ => h.of_localParties (receiveOnConnection_localParties s t)
  connect := fun s t request r h _ hr => h.of_localParties hr.localParties
  join := fun s t request uninitialized r h hallowed hr => h.join hallowed.2 hallowed.1 hr
  tick := fun s h _ => tickParties_ensures h (fun s p s' h hs' => h.tick hs')
    (fun _ _ _ _ _ => trivial)
  reInit := fun s stepId s' h _ hparties _ _ => OnePartyEach.reset hparties
  migrate := fun s infos uninitialized h _ =>
    (nimbleServerHostMigration_ensures OnePartyEach (OnePartyEach.reset (s := s) rfl)
      (fun _ _ h => h.of_localParties rfl)
      (fun s p h _ => h.update p (party_nameParty s p) (fun _ hc => hc) (.inl rfl))
      (fun s p participants i h _ => h.update p
        -- A prepared party has no connection.
        (fun q => party_prepareParty s p q participants i) (fun _ hc => by cases hc.2)
        (.inl rfl))
      infos uninitialized).mono (fun _ h => h) (fun _ _ => trivial)
  connected := fun s t h _ =>
    h.of_localParties (nimbleServerConnectionConnected_localParties s t)
  disconnected := fun s t h _ => h.disconnected t
  connectFault := fun _ _ _ _ => trivial
  joinFault := fun _ _ _ _ => trivial
  composeFault := fun _ _ => trivial
  downloadFault := trivial
  capacityFault := trivial

/-- A new server has no parties. -/
theorem Started.onePartyEach {s : Server E S} (h : Started s) : OnePartyEach s := by
  have hnone : ∀ p t, ¬(s.party p).BelongsTo t := by
    rintro p t ⟨hused, -⟩
    rw [h.party p] at hused
    cases hused
  exact ⟨fun p _ t hp _ => absurd hp (hnone p t), fun p t hp => absurd hp (hnone p t)⟩

/-- It holds on every such run. -/
theorem onePartyEach_reachable {start s : Server E S} (hstart : Started start)
    (hrun : Reaches Server.step JoinsVisible start s) : OnePartyEach s :=
  onePartyEach_keeps.reachable hstart.onePartyEach
    (hrun.restrict ConnectionIds fun _ hrun => connectionIds_reachable hstart hrun)

/-! ### Joining again -/

/-- A further join of a connection whose party has the reconnect limit changes no party. -/
theorem OnePartyEach.assignParty_localParties {s : Server E S} (h : OnePartyEach s)
    {t : ConnectionPtr} {p : PartyPtr S} (hbelongs : (s.party p).BelongsTo t) :
    (assignParty s t p).localParties = s.localParties := by
  have hparty : { s.party p with waitingForReconnectMaxTimer := S.maxWaitingForReconnectTicks }
      = s.party p := by
    rw [← h.limit p t hbelongs]
  show s.localParties.set p _ = s.localParties
  rw [hparty]
  unfold LocalParties.set Server.party LocalParties.get
  simp

/-- The request is answered with the party, and no participant, no party and neither count
changes. -/
def AnsweredWith (s : Server E S) (t : ConnectionPtr) (request : JoinGameRequest)
    (uninitialized : Uninitialized S) (p : PartyPtr S) : Prop :=
  ∃ s', joinGame s t request uninitialized = .ok (.ok p, s') ∧ s'.game = s.game ∧
    s'.localParties = s.localParties

/-- On every run in which each join comes on a connection whose parties are among the first
`partiesCount`, no two parties have the same connection. A further join on a connection that
has a party is then answered with that party, and nothing changes, exactly when its slot is
one of the first `partiesCount`. -/
theorem join_idempotent_iff_visible {start s : Server E S} (hstart : Started start)
    (hrun : Reaches Server.step JoinsVisible start s) :
    (∀ p q t, (s.party p).BelongsTo t → (s.party q).BelongsTo t → p = q) ∧
      ∀ t p request uninitialized, (s.party p).BelongsTo t →
        request.joinGameType = .noSecret →
        (AnsweredWith s t request uninitialized p ↔ p.val < s.localParties.partiesCount) := by
  have hone := onePartyEach_reachable hstart hrun
  have hids := connectionIds_reachable hstart hrun
  refine ⟨hone.unique, ?_⟩
  intro t p request uninitialized hbelongs htype
  constructor
  · rintro ⟨s', hjoin, -, -⟩
    have hr := (joinGame_ensures s t request uninitialized).of_ok hjoin
    cases hr with
    | found _ hcount hmatch => exact hcount
    | unassigned _ q htype' hfind hnamed hcount hpointer => cases htype.symm.trans htype'
    | rejoined _ htype' hfind hnamed hcount => cases htype.symm.trans htype'
    | created _ i participants htype' hfind hplace hjoin =>
      -- A new party takes a slot that was free, and this one is in use.
      cases (firstFreeParty_isUsed hplace).symm.trans hbelongs.1
  · intro hp
    obtain ⟨q, hq, hjoin⟩ := joinGame_of_visible hids hbelongs hp request uninitialized
    obtain rfl := hone.unique p q t hbelongs hq
    exact ⟨_, hjoin, rfl, hone.assignParty_localParties hbelongs⟩

/-- A client that joins twice gets the same party. -/
theorem join_idempotent_iff_visible_onePlayer :
    ∃ start s : Server plainExternal (plainSetup 2), Started start ∧
      Reaches Server.step JoinsVisible start s ∧
      AnsweredWith s 0 onePlayer (zeroLocals _) ⟨0, by decide⟩ := by
  obtain ⟨start, s, hstart, hrun, hbelongs, hcount⟩ :=
    exists_run Server.step JoinsVisible
      (fun s => (s.party ⟨0, by decide⟩).BelongsTo 0 ∧ s.localParties.partiesCount = 1)
      (nimbleServerInit (zeroMemory (plainSetup 2)) : Result (Server plainExternal _))
      [.reInitWithGame 0, .receive 0, .join 0 onePlayer (zeroLocals _)]
      (by decide +kernel)
  have hjoin := (join_idempotent_iff_visible ⟨_, hstart⟩ hrun).2 0 ⟨0, by decide⟩ onePlayer
    (zeroLocals _) hbelongs rfl
  exact ⟨start, s, ⟨_, hstart⟩, hrun, hjoin.mpr (by rw [hcount]; decide)⟩

/-- Two clients join, the party of the first is dissolved, one more step is composed, and the
second client joins again. It is given a second party, in the slot of the first. -/
theorem join_again_secondParty :
    ∃ start s : Server plainExternal (plainSetup 2), Started start ∧
      Reaches Server.step (fun s op => s.Enabled op) start s ∧
      (s.party ⟨0, by decide⟩).BelongsTo 1 ∧ (s.party ⟨1, by decide⟩).BelongsTo 1 := by
  obtain ⟨start, s, hstart, hrun, hbelongs⟩ :=
    exists_run Server.step (fun s op => s.Enabled op)
      (fun s => (s.party ⟨0, by decide⟩).BelongsTo 1 ∧ (s.party ⟨1, by decide⟩).BelongsTo 1)
      (nimbleServerInit (zeroMemory (plainSetup 2)) : Result (Server plainExternal _))
      (.reInitWithGame 0 :: firstClientLost 182 ++
        [.incomingSteps 1 (gameStep 22 (List.replicate 5 [8])) (zeroLocals _), .composeRound,
          .join 1 onePlayer (zeroLocals _)])
      (by decide +kernel)
  exact ⟨start, s, ⟨_, hstart⟩, hrun, hbelongs⟩

end NimbleServer
