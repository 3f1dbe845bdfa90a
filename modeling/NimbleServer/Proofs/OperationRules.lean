import NimbleServer.Proofs.Outcomes

/-!
# `NimbleServer.Proofs.OperationRules`: proof rules for one operation of a run

An invariant of a run is kept by each operation. This module puts the rules for storing and
composing and the outcomes of joins, ticks and connect requests together, so that an
invariant is proved from what those say and not by looking at `Server.step` again.

* `PlayRule` is for properties of the game and its parties, over the operations of a running
  game. Operations on connections do not concern them. `PlayKeeps` is the special case of a
  property that survives every single change that storing and composing make.
* `BindingKeeps` is for properties of the connections and of what parties are bound to, over
  all operations. Storing and composing do not concern them.
* `ConnectionRule` is for properties of each connection by itself.
-/

set_option autoImplicit false

namespace NimbleServer

open NimbleServer.Lib

variable {E : External} {S : Setup}

/-! ### All operations of a running game -/

/-- The operations that touch only the transport connections and their free list. -/
def Op.IsConnection : Op S → Prop
  | .receive _ | .ordered _ _ | .connect _ _ | .downloadGameState _ _ _ _ _ _
  | .blobStream _ _ _ _ | .commitHeader _ | .connectionConnected _ => True
  | _ => False

/-- The stops of the operations that touch only connections. -/
def Fault.IsConnection (fault : Fault) : Prop :=
  fault = .transportConnectionUsed ∨ fault = .connectionOutOfBounds ∨
    fault = .downloadRequestId

/-- A connect request stops only in ways that concern connections. -/
theorem ConnectFault.isConnection {s : Server E S} {fault : Fault}
    (h : ConnectFault s fault) : fault.IsConnection := by
  cases h with
  | used c hempty hfront hused => exact .inl rfl
  | outOfBounds hempty hfront => exact .inr (.inl rfl)

/-- An operation on connections leaves the game and the parties alone. -/
theorem step_isConnection_ensures (s : Server E S) {op : Op S} (hop : op.IsConnection) :
    Ensures (s.step op) (fun s' => s'.game = s.game ∧ s'.localParties = s.localParties)
      Fault.IsConnection := by
  cases op with
  | receive t =>
    show Ensures (pure (receiveOnConnection s t)) _ _
    unfold receiveOnConnection
    split
    · exact ⟨rfl, rfl⟩
    · exact ⟨rfl, rfl⟩
  | ordered t data => exact ⟨rfl, rfl⟩
  | connect t request =>
    refine Ensures.map ((acceptConnectRequest_ensures s _ request).mono ?_
      (fun _ h => h.isConnection))
    intro r hr
    cases hr with
    | refused code => exact ⟨rfl, rfl⟩
    | existing c => exact ⟨rfl, rfl⟩
    | taken c hversion hfind hempty hfront hfree => exact ⟨rfl, rfl⟩
  | downloadGameState t inStream clientTime uninitialized state now =>
    refine Ensures.map ((SameSlots.reqDownloadGameState s t inStream clientTime uninitialized
      state now).mono ?_ (fun _ h => .inr (.inr h)))
    intro r hr
    exact ⟨hr.game, hr.localParties⟩
  | blobStream t inStream clientTime now =>
    have h := SameSlots.reqBlobStream s t inStream clientTime now
    exact ⟨h.game, h.localParties⟩
  | commitHeader t => exact ⟨rfl, rfl⟩
  | connectionConnected t =>
    show Ensures (pure (nimbleServerConnectionConnected s t).2) _ _
    unfold nimbleServerConnectionConnected
    split
    · exact ⟨rfl, rfl⟩
    · exact ⟨rfl, rfl⟩
  | _ => exact hop.elim

/-- A condition on the joins of a run. It asks nothing of other operations. -/
@[reducible] def Op.ForJoin (P : ConnectionPtr → JoinGameRequest → Prop) : Op S → Prop
  | .join t request _ => P t request
  | _ => True

/-- A condition on joins is decidable if it is so for each join. -/
instance (P : ConnectionPtr → JoinGameRequest → Prop) [∀ t request, Decidable (P t request)]
    (op : Op S) : Decidable (op.ForJoin P) :=
  Op.decidableOf (Op.ForJoin P) op

/-- Whether the operation sets up a new game. -/
def Op.isReInit : Op S → Bool
  | .reInitWithGame _ => true
  | _ => false

/-- A property of the game and the parties that requests and ticks keep. `allowed` restricts
the joins that are considered. -/
structure RequestRule (allowed : Server E S → Op S → Prop) (inv : Server E S → Prop)
    (fault : Fault → Prop) : Prop where
  same : ∀ s s', inv s → s'.game = s.game → s'.localParties = s.localParties → inv s'
  join : ∀ s t request uninitialized r, inv s → allowed s (.join t request uninitialized) →
    JoinOutcome s t request uninitialized r → inv r.2
  joinFault : ∀ s f, inv s → JoinFault s f → fault f
  tick : ∀ s p s', inv s → TickOutcome s p s' → inv s'
  tickFault : ∀ s p f, inv s → TickFault s p f → fault f
  connectionFault : ∀ f, Fault.IsConnection f → fault f

/-- A property that every operation of a running game keeps. Storing the steps of a request
and composing a step are looked at as a whole. -/
structure PlayRule (allowed : Server E S → Op S → Prop) (inv : Server E S → Prop)
    (fault : Fault → Prop) : Prop extends RequestRule allowed inv fault where
  store : ∀ s t inStream uninitialized, inv s →
    allowed s (.incomingSteps t inStream uninitialized) →
    inv (readIncomingSteps s t inStream uninitialized).2.2
  compose : ∀ s, inv s → allowed s .composeRound →
    Ensures (composeRound s) (fun r => inv r.2) fault

/-- One operation of a running game. -/
theorem PlayRule.step {allowed : Server E S → Op S → Prop} {inv : Server E S → Prop}
    {fault : Fault → Prop} (h : PlayRule allowed inv fault) {s : Server E S} {op : Op S}
    (hs : inv s) (hallowed : allowed s op) (hop : op.IsPlay) :
    Ensures (s.step op) inv fault := by
  -- Half of the operations concern connections only, and one argument settles them.
  have hconnection : op.IsConnection → Ensures (s.step op) inv fault := fun hc =>
    (step_isConnection_ensures s hc).mono (fun s' hs' => h.same s s' hs hs'.1 hs'.2)
      h.connectionFault
  cases op with
  | join t request uninitialized =>
    exact Ensures.map ((joinGame_ensures s t request uninitialized).mono
      (fun r hr => h.join s t request uninitialized r hs hallowed hr)
      (fun f hf => h.joinFault s f hs hf))
  | incomingSteps t inStream uninitialized =>
    exact h.store s t inStream uninitialized hs hallowed
  | composeRound => exact Ensures.map (h.compose s hs hallowed)
  | tick => exact tickParties_ensures hs h.tick h.tickFault
  | reInitWithGame _ | hostMigration _ _ | connectionDisconnected _ | connectionConnected _ =>
    -- These are not operations of a running game.
    rcases hop with hop | hop
    · exact hop.elim
    · cases hop
  | _ => exact hconnection trivial

/-- A property that the operations of a running game keep holds in every state of the run. -/
theorem PlayRule.reachable {allowed : Server E S → Op S → Prop} {inv : Server E S → Prop}
    {fault : Fault → Prop} (h : PlayRule allowed inv fault)
    (hplay : ∀ s op, allowed s op → op.IsPlay) {start s : Server E S} (hstart : inv start)
    (hrun : Reaches Server.step allowed start s) : inv s :=
  hrun.invariant inv hstart fun s op hs hop => h.step hs hop (hplay s op hop)

/-- A property that every single change of a running game keeps. -/
structure PlayKeeps (allowed : Server E S → Op S → Prop) (inv : Server E S → Prop)
    (fault : Fault → Prop) : Prop
    extends ComposeKeeps inv fault, RequestRule allowed inv fault

/-- A property that the single changes of storing and composing keep, and that requests and
ticks keep. -/
theorem RequestRule.playRule {allowed : Server E S → Op S → Prop} {inv : Server E S → Prop}
    {fault : Fault → Prop} (h : RequestRule allowed inv fault) (hstore : StoreKeeps inv)
    (hcompose : ComposeRule inv fault) : PlayRule allowed inv fault where
  toRequestRule := h
  store := fun _ t inStream uninitialized hs _ =>
    hstore.readIncomingSteps hs t inStream uninitialized
  compose := fun _ hs _ => hcompose.composeRound hs

/-- A property that every single change keeps is kept by the operations. -/
theorem PlayKeeps.playRule {allowed : Server E S → Op S → Prop} {inv : Server E S → Prop}
    {fault : Fault → Prop} (h : PlayKeeps allowed inv fault) : PlayRule allowed inv fault :=
  h.toRequestRule.playRule h.toStoreKeeps h.composeRule

/-! ### What parties and connections are bound to -/

/-- A property of the connections, and of what parties are bound to, that every operation
keeps. Composing and storing steps do not touch these, so the property only has to be one
of `SameParties`. -/
structure BindingKeeps (allowed : Server E S → Op S → Prop) (inv : Server E S → Prop)
    (fault : Fault → Prop) : Prop where
  sameParties : ∀ s s', inv s → SameParties s s' → inv s'
  sameSlots : ∀ s s', inv s → SameSlots s s' → inv s'
  receive : ∀ s t, inv s → allowed s (.receive t) → inv (receiveOnConnection s t)
  connect : ∀ s t request r, inv s → allowed s (.connect t request) →
    ConnectOutcome s (UInt8.ofNat t.val) request r → inv r.2
  join : ∀ s t request uninitialized r, inv s → allowed s (.join t request uninitialized) →
    JoinOutcome s t request uninitialized r → inv r.2
  tick : ∀ s, inv s → allowed s .tick → Ensures (tickParties s) inv fault
  reInit : ∀ s stepId s', inv s → allowed s (.reInitWithGame stepId) →
    s'.localParties = nimbleServerLocalPartiesReset s.localParties →
    s'.transportConnections = s.transportConnections →
    s'.freeTransportConnectionList = s.freeTransportConnectionList → inv s'
  migrate : ∀ s infos uninitialized, inv s → allowed s (.hostMigration infos uninitialized) →
    Ensures (nimbleServerHostMigration s infos uninitialized) (fun r => inv r.2) fault
  connected : ∀ s t, inv s → allowed s (.connectionConnected t) →
    inv (nimbleServerConnectionConnected s t).2
  disconnected : ∀ s t, inv s → allowed s (.connectionDisconnected t) →
    Ensures (nimbleServerConnectionDisconnected s t) (fun r => inv r.2) fault
  connectFault : ∀ s f, inv s → ConnectFault s f → fault f
  joinFault : ∀ s f, inv s → JoinFault s f → fault f
  composeFault : ∀ f, Fault.IsCompose f → fault f
  downloadFault : fault .downloadRequestId
  capacityFault : fault .participantCapacity

/-- Setting up a game resets the parties and keeps the connections. -/
theorem nimbleServerReInitWithGame_binding (s : Server E S) (stepId : StepId) :
    Ensures (nimbleServerReInitWithGame s stepId)
      (fun s' => s'.localParties = nimbleServerLocalPartiesReset s.localParties ∧
        s'.transportConnections = s.transportConnections ∧
        s'.freeTransportConnectionList = s.freeTransportConnectionList)
      (fun fault => fault = .participantCapacity ∨
        fault = .circularBufferOverwrite .participants) := by
  unfold nimbleServerReInitWithGame nimbleServerGameInit nimbleServerParticipantsInit
  -- Only the new game can stop the call, and nothing of it is bound to a connection.
  refine Ensures.bind_of (fun _ => True) ?_ fun game _ => ⟨rfl, rfl, rfl⟩
  refine Ensures.bind_of (fun _ => True) ?_ fun participants _ => trivial
  by_cases hzero : S.maxParticipantCount = 0
  · rw [if_pos hzero]
    exact .inl rfl
  · rw [if_neg hzero]
    dsimp only
    split
    · exact .inl rfl
    · -- The free list gets an id for each slot, which overflows a list that has no room.
      refine Ensures.bind_of (fun _ => True) ?_ fun freeList _ => trivial
      refine ensures_foldlM _ trivial ?_
      intro i _ freeList _
      unfold nimbleServerCircularBufferWrite
      split
      · exact .inr rfl
      · trivial

/-- The operations on the game and its parties that do not touch a connection. -/
def Op.LeavesConnections : Op S → Prop
  | .incomingSteps _ _ _ | .composeRound | .reInitWithGame _ | .hostMigration _ _ => True
  | _ => False

/-- Such an operation leaves every connection as it was. -/
theorem step_connection_eq (s : Server E S) {op : Op S} (hop : op.LeavesConnections)
    (c : ConnectionPtr) :
    Ensures (s.step op) (fun s' => s'.connection c = s.connection c) (fun _ => True) := by
  cases op with
  | incomingSteps t inStream uninitialized =>
    exact (SameParties.of_readIncomingSteps s t inStream uninitialized).connection c
  | composeRound =>
    exact Ensures.map ((SameParties.of_composeRound s).mono (fun _ hr => hr.connection c)
      fun _ _ => trivial)
  | reInitWithGame stepId =>
    refine (nimbleServerReInitWithGame_binding s stepId).mono (fun s' hs' => ?_)
      fun _ _ => trivial
    unfold Server.connection
    rw [hs'.2.1]
  | hostMigration infos uninitialized =>
    exact Ensures.map ((nimbleServerHostMigration_ensures
      -- Each change of host migration is one of the parties or of the participants.
      (fun s' => s'.connection c = s.connection c) rfl (fun _ _ h => h) (fun _ _ h _ => h)
      (fun _ _ _ _ h _ => h) infos uninitialized).mono (fun _ h => h) fun _ _ => trivial)
  | _ => exact hop.elim

/-- A party after a reset. -/
theorem party_of_reset {s s' : Server E S}
    (h : s'.localParties = nimbleServerLocalPartiesReset s.localParties) (p : PartyPtr S) :
    s'.party p = nimbleServerLocalPartyReset (s.party p) := by
  unfold Server.party
  rw [h]
  simp [LocalParties.get, nimbleServerLocalPartiesReset]

/-- Taking a connection into use does not touch the parties. -/
theorem receiveOnConnection_localParties (s : Server E S) (t : ConnectionPtr) :
    (receiveOnConnection s t).localParties = s.localParties := by
  unfold receiveOnConnection
  split
  · rfl
  · rfl

/-- So does a connect request, -/
theorem ConnectOutcome.localParties {s : Server E S} {transportConnectionIndex : UInt8}
    {options : ConnectRequest} {r : Except Int ConnectionPtr × Server E S}
    (h : ConnectOutcome s transportConnectionIndex options r) :
    r.2.localParties = s.localParties := by
  cases h with
  | refused code => rfl
  | existing c => rfl
  | taken c hversion hfind hempty hfront hfree => rfl

/-- and so does the notification of a new connection. -/
theorem nimbleServerConnectionConnected_localParties (s : Server E S) (t : ConnectionPtr) :
    (nimbleServerConnectionConnected s t).2.localParties = s.localParties := by
  unfold nimbleServerConnectionConnected
  split
  · rfl
  · rfl

/-- One operation. -/
theorem BindingKeeps.step {allowed : Server E S → Op S → Prop} {inv : Server E S → Prop}
    {fault : Fault → Prop} (h : BindingKeeps allowed inv fault) {s : Server E S} {op : Op S}
    (hs : inv s) (hallowed : allowed s op) : Ensures (s.step op) inv fault := by
  cases op with
  | receive t => exact h.receive s t hs hallowed
  | ordered t data =>
    exact h.sameSlots s _ hs (SameSlots.setConnection s t ⟨rfl, rfl, rfl, rfl, rfl, rfl⟩)
  | connect t request =>
    exact Ensures.map ((acceptConnectRequest_ensures s _ request).mono
      (fun r hr => h.connect s t request r hs hallowed hr)
      (fun f hf => h.connectFault s f hs hf))
  | join t request uninitialized =>
    exact Ensures.map ((joinGame_ensures s t request uninitialized).mono
      (fun r hr => h.join s t request uninitialized r hs hallowed hr)
      (fun f hf => h.joinFault s f hs hf))
  | incomingSteps t inStream uninitialized =>
    exact h.sameParties s _ hs (SameParties.of_readIncomingSteps s t inStream uninitialized)
  | composeRound =>
    exact Ensures.map ((SameParties.of_composeRound s).mono
      (fun r hr => h.sameParties s _ hs hr) h.composeFault)
  | downloadGameState t inStream clientTime uninitialized state now =>
    refine Ensures.map ((SameSlots.reqDownloadGameState s t inStream clientTime uninitialized
      state now).mono (fun r hr => h.sameSlots s _ hs hr) ?_)
    rintro f rfl
    exact h.downloadFault
  | blobStream t inStream clientTime now =>
    exact h.sameSlots s _ hs (SameSlots.reqBlobStream s t inStream clientTime now)
  | commitHeader t => exact h.sameSlots s _ hs (SameSlots.commitHeader s t)
  | tick => exact h.tick s hs hallowed
  | reInitWithGame stepId =>
    refine (nimbleServerReInitWithGame_binding s stepId).mono
      (fun s' hs' => h.reInit s stepId s' hs hallowed hs'.1 hs'.2.1 hs'.2.2) ?_
    -- The free list of a new game overflows in the same way as that of composing.
    rintro f (rfl | rfl)
    · exact h.capacityFault
    · exact h.composeFault _ (.inr (.inr (.inr (.inr (.inr rfl)))))
  | hostMigration infos uninitialized =>
    exact Ensures.map (h.migrate s infos uninitialized hs hallowed)
  | connectionConnected t => exact h.connected s t hs hallowed
  | connectionDisconnected t => exact Ensures.map (h.disconnected s t hs hallowed)

/-- A property that operations keep holds in every state a run reaches. -/
theorem BindingKeeps.reachable {allowed : Server E S → Op S → Prop} {inv : Server E S → Prop}
    {fault : Fault → Prop} (h : BindingKeeps allowed inv fault) {start s : Server E S}
    (hstart : inv start) (hrun : Reaches Server.step allowed start s) : inv s :=
  hrun.invariant inv hstart fun _ _ hs hallowed => h.step hs hallowed

/-! ### What is true of each connection by itself -/

/-- The connection `x` was taken into use as `x'`, for a client on the given transport
index. -/
structure TakenIntoUse (x x' : TransportConnection E S) (transportIndex id : UInt8) : Prop where
  isUsed : x'.isUsed = true
  isInitialized : x'.isInitialized = true
  transportIndex : x'.transportIndex = transportIndex
  id : x'.id = id
  transportConnectionId : x'.transportConnectionId = x.transportConnectionId
  assignedParty : x'.assignedParty = x.assignedParty

/-- A property of single connections that every operation keeps. -/
structure ConnectionRule (allowed : Server E S → Op S → Prop)
    (P : ConnectionPtr → TransportConnection E S → Prop) : Prop where
  -- Traffic, the assignment of a party and the end of a connection keep the property.
  sameSlot : ∀ c x x', P c x → SameSlot x x' → P c x'
  assigned : ∀ c x p, P c x → P c { x with assignedParty := some p }
  released : ∀ c x, P c x → P c (transportConnectionDisconnect x)
  -- A connection is taken into use by its first datagram, or by a connect request, which takes
  -- the one that the free list names.
  receive : ∀ s t x', allowed s (.receive t) → P t (s.connection t) →
    TakenIntoUse (s.connection t) x' (UInt8.ofNat t.val) (UInt8.ofNat t.val) → P t x'
  connect : ∀ s t request c x', allowed s (.connect t request) →
    S.applicationVersion = request.applicationVersion →
    findExistingConnectionRequest s (UInt8.ofNat t.val) request.clientRequestId = none →
    s.freeTransportConnectionList.isEmpty = false → P c (s.connection c) →
    TakenIntoUse (s.connection c) x' (UInt8.ofNat t.val) (UInt8.ofNat c.val) → P c x'
  connected : ∀ s t, allowed s (.connectionConnected t) → (s.connection t).isUsed = false →
    P t (s.connection t) →
    P t { s.connection t with isUsed := true, isInitialized := false }

namespace ConnectionRule

variable {allowed : Server E S → Op S → Prop}
  {P : ConnectionPtr → TransportConnection E S → Prop}

/-- One connection is replaced by one that has the property. -/
theorem replace {s s' : Server E S} (h : ∀ c, P c (s.connection c)) (t : ConnectionPtr)
    {x : TransportConnection E S}
    (hs' : ∀ c, s'.connection c = if t = c then x else s.connection c) (hx : P t x) :
    ∀ c, P c (s'.connection c) := by
  intro c
  rw [hs']
  split
  · rename_i htc
    exact htc ▸ hx
  · exact h c

/-- The tick of a party keeps the property: a connection it touches is released. -/
theorem tick (hrule : ConnectionRule allowed P) {s s' : Server E S} {p : PartyPtr S}
    (h : ∀ c, P c (s.connection c)) (hs' : TickOutcome s p s') :
    ∀ c, P c (s'.connection c) := by
  intro c
  -- Either the tick did not touch the connection, or it disconnected it.
  rcases hs'.connection c with hc | hc
  · rw [hc]
    exact h c
  · rw [hc]
    exact hrule.released c _ (h c)

/-- A property of each connection by itself is one that every operation keeps. -/
theorem bindingKeeps (hrule : ConnectionRule allowed P) :
    BindingKeeps allowed (fun s => ∀ c, P c (s.connection c)) (fun _ => True) where
  sameParties := by
    intro s s' h hs c
    rw [hs.connection c]
    exact h c
  sameSlots := fun s s' h hs c => hrule.sameSlot c _ _ (h c) (hs.connection c)
  receive := by
    intro s t h hallowed
    unfold receiveOnConnection
    split
    · exact h
    · exact replace h t (fun c => Server.connection_setConnection s t c _)
        (hrule.receive s t _ hallowed (h t) ⟨rfl, rfl, rfl, rfl, rfl, rfl⟩)
  connect := by
    intro s t request r h hallowed hr
    cases hr with
    | refused code => exact h
    | existing c => exact h
    -- Only the connection that is taken changes. Its id is the front of the free list.
    | taken c hversion hfind hempty hfront hfree =>
      exact replace h c (fun d => Server.connection_setConnection _ c d _)
        (hrule.connect s t request c _ hallowed hversion hfind hempty (h c)
          ⟨rfl, rfl, rfl, hfront, rfl, rfl⟩)
  join := by
    rintro s t request uninitialized ⟨result, s'⟩ h _ hr c
    -- A join changes at most the assigned party of a connection.
    rcases hr.connection c with hc | ⟨p, -, -, hc⟩
    · rw [hc]
      exact h c
    · rw [hc]
      exact hrule.assigned c _ p (h c)
  tick := fun s h _ => tickParties_ensures h (fun s p s' h hs' => hrule.tick h hs')
    (fun _ _ _ _ _ => trivial)
  reInit := by
    intro s stepId s' h _ _ hconnections _ c
    have hc : s'.connection c = s.connection c := by
      unfold Server.connection
      rw [hconnections]
    rw [hc]
    exact h c
  migrate := fun s infos uninitialized h _ =>
    (nimbleServerHostMigration_ensures (fun s => ∀ c, P c (s.connection c)) h
      (fun _ _ h => h) (fun _ _ h _ => h) (fun _ _ _ _ h _ => h) infos uninitialized).mono
      (fun _ h => h) (fun _ _ => trivial)
  connected := by
    intro s t h hallowed
    unfold nimbleServerConnectionConnected
    split
    · exact h
    · rename_i hused
      exact replace h t (fun c => Server.connection_setConnection s t c _)
        (hrule.connected s t hallowed (Bool.eq_false_iff.mpr hused) (h t))
  disconnected := by
    intro s t h _
    refine (connectionDisconnected_ensures (fun s => ∀ c, P c (s.connection c)) h t
      fun p _ _ => ?_).mono (fun _ h => h) (fun _ _ => trivial)
    exact replace h t (connection_dropParty s t p)
      (hrule.sameSlot t _ _ (h t) ⟨rfl, rfl, rfl, rfl, rfl, rfl⟩)
  connectFault := fun _ _ _ _ => trivial
  joinFault := fun _ _ _ _ => trivial
  composeFault := fun _ _ => trivial
  downloadFault := trivial
  capacityFault := trivial

end ConnectionRule

end NimbleServer
