import NimbleServer.Proofs.CommandLoop
import NimbleServer.Proofs.ConnectionTable
import NimbleServer.Proofs.PartyTicks

/-!
# `NimbleServer.Proofs.ConnectRequests`: connect requests that are sent again

A connect request is looked up by the transport index it came on and its request id. The
lookup takes the first used slot with these two, its key. A slot gets its key when it is taken
into use: by a connect request, or by a datagram on its own index, with request id zero.

`DistinctKeys` says that no two used slots have the same key. Request id zero is special: it is
the id of a slot that carries its own index, and a connect request with this id always finds
that slot. So a request that is sent again finds the slot it was answered with
(`connect_requests_idempotent`).
-/

set_option autoImplicit false

namespace NimbleServer

open NimbleServer.Lib

variable {E : External} {S : Setup}

/-! ### Keys -/

/-- The transport index and the request id that a used connection was taken into use for. -/
def TransportConnection.key (x : TransportConnection E S) : Option (UInt8 × Nat) :=
  if x.isUsed then some (x.transportIndex, x.connectedFromConnectRequestId) else none

/-- Exactly the unused connections have no key. -/
theorem TransportConnection.key_eq_none {x : TransportConnection E S} :
    x.key = none ↔ x.isUsed = false := by
  unfold key
  split
  · rename_i h
    simp [h]
  · rename_i h
    simp [h]

/-- A connection with a key is used. -/
theorem TransportConnection.isUsed_of_key {x : TransportConnection E S} {key : UInt8 × Nat}
    (h : x.key = some key) : x.isUsed = true := by
  unfold TransportConnection.key at h
  split at h
  · assumption
  · cases h

/-- A connection that serves datagrams has its own index in its key. -/
theorem key_of_serving {s : Server E S} {t : ConnectionPtr} (h : s.Serving t) :
    ∃ requestId, (s.connection t).key = some (UInt8.ofNat t.val, requestId) := by
  refine ⟨(s.connection t).connectedFromConnectRequestId, ?_⟩
  unfold TransportConnection.key
  rw [if_pos h.1, h.2]

/-- The lookup finds a slot with the key. -/
theorem key_of_find {s : Server E S} {transportIndex : UInt8} {requestId : Nat}
    {c : ConnectionPtr}
    (h : findExistingConnectionRequest s transportIndex requestId = some c) :
    (s.connection c).key = some (transportIndex, requestId) := by
  have hc := List.find?_some h
  simp only [Bool.and_eq_true, beq_iff_eq] at hc
  obtain ⟨⟨hused, rfl⟩, rfl⟩ := hc
  exact if_pos hused

/-- The lookup finds nothing only if there is no slot with the key. -/
theorem key_of_find_none {s : Server E S} {transportIndex : UInt8} {requestId : Nat}
    (h : findExistingConnectionRequest s transportIndex requestId = none) (c : ConnectionPtr) :
    (s.connection c).key ≠ some (transportIndex, requestId) := by
  intro hkey
  have hc := List.find?_eq_none.mp h c (List.mem_finRange c)
  unfold TransportConnection.key at hkey
  split at hkey
  · rename_i hused
    cases hkey
    simp [hused] at hc
  · cases hkey

/-- What a step does to the keys. -/
inductive KeyOutcome (s : Server E S) : Op S → Server E S → Prop
  | kept (op : Op S) (s' : Server E S)
      (hkey : ∀ c, (s'.connection c).key = (s.connection c).key ∨ (s'.connection c).key = none) :
      KeyOutcome s op s'
  -- A datagram on an unused index takes the slot with that index.
  | received (t : ConnectionPtr) (s' : Server E S) (hfree : (s.connection t).key = none)
      (hkey : ∀ c, (s'.connection c).key
        = if t = c then some (UInt8.ofNat t.val, 0) else (s.connection c).key) :
      KeyOutcome s (.receive t) s'
  -- A connect request takes the slot that the free list names.
  | taken (t : ConnectionPtr) (request : ConnectRequest) (k : ConnectionPtr) (s' : Server E S)
      (hfree : (s.connection k).key = none)
      (hfind : findExistingConnectionRequest s (UInt8.ofNat t.val) request.clientRequestId = none)
      (hkey : ∀ c, (s'.connection c).key
        = if k = c then some (UInt8.ofNat t.val, request.clientRequestId)
          else (s.connection c).key) : KeyOutcome s (.connect t request) s'

/-- One connection is assigned to. -/
theorem key_setConnection (s : Server E S) (t c : ConnectionPtr) (x : TransportConnection E S) :
    ((s.setConnection t x).connection c).key = if t = c then x.key else (s.connection c).key := by
  rw [Server.connection_setConnection]
  split
  · rfl
  · rfl

/-- Keys are kept by an assignment that keeps the key. -/
theorem keys_setConnection {s s' : Server E S}
    (h : ∀ c, (s'.connection c).key = (s.connection c).key) (t : ConnectionPtr)
    {x : TransportConnection E S} (hx : x.key = (s'.connection t).key) (c : ConnectionPtr) :
    ((s'.setConnection t x).connection c).key = (s.connection c).key := by
  rw [key_setConnection]
  split
  · rename_i htc
    subst htc
    rw [hx, h t]
  · exact h c

/-- Traffic does not touch the keys. -/
theorem keys_transferKeeps (s : Server E S) (t : ConnectionPtr) :
    TransferKeeps t (fun s' : Server E S => ∀ c, (s'.connection c).key = (s.connection c).key)
    where
  commitHeader := fun _ h => keys_setConnection h t rfl
  logic := fun _ _ h => keys_setConnection h t rfl

/-- These are all the ways an operation changes the keys. The notification of the transport
layer is left out: it marks a slot as used with whatever key was left in it. -/
theorem step_keyOutcome (s : Server E S) {op : Op S} (hop : ∀ t, op ≠ .connectionConnected t) :
    Ensures (s.step op) (KeyOutcome s op) (fun _ => True) := by
  have hsame : ∀ s', (∀ c, (s'.connection c).key = (s.connection c).key) →
      KeyOutcome s op s' := fun s' h => .kept op s' fun c => .inl (h c)
  have hrefl : ∀ c, (s.connection c).key = (s.connection c).key := fun _ => rfl
  cases op with
  | receive t =>
    show Ensures (pure (receiveOnConnection s t)) _ _
    unfold receiveOnConnection
    split
    · exact hsame s hrefl
    · rename_i hused
      refine .received t _ (TransportConnection.key_eq_none.mpr (Bool.eq_false_iff.mpr hused))
        fun c => ?_
      exact key_setConnection s t c _
  | ordered t data => exact hsame _ (keys_setConnection hrefl t rfl)
  | connect t request =>
    refine Ensures.map ((acceptConnectRequest_ensures s _ request).mono ?_ fun _ _ => trivial)
    intro r hr
    cases hr with
    | refused code => exact hsame s hrefl
    | existing c => exact hsame s hrefl
    | taken k hversion hfind hempty hfront hfree =>
      exact .taken t request k _ (TransportConnection.key_eq_none.mpr hfree) hfind
        fun c => key_setConnection _ k c _
  | join t request uninitialized =>
    refine Ensures.map ((joinGame_ensures s t request uninitialized).mono ?_ fun _ _ => trivial)
    rintro ⟨result, s'⟩ hr
    refine hsame s' fun c => ?_
    rcases hr.connection c with hc | ⟨p, -, -, hc⟩
    · rw [hc]
    · rw [hc]
      rfl
  | downloadGameState t inStream clientTime uninitialized state now =>
    refine Ensures.map (((keys_transferKeeps s t).sendingKeeps.reqDownloadGameState inStream
      clientTime uninitialized state now ?_).mono (fun r hr => hsame _ hr) fun _ _ => trivial)
    intro _
    refine keys_setConnection hrefl t ?_
    unfold startDownload
    split
    · rfl
    · rfl
  | blobStream t inStream clientTime now =>
    exact hsame _ ((keys_transferKeeps s t).sendingKeeps.reqBlobStream inStream clientTime now
      hrefl)
  | commitHeader t => exact hsame _ (keys_setConnection hrefl t rfl)
  | tick =>
    refine (tickParties_tickedUpTo s).mono (fun s' hs' => .kept _ s' fun c => ?_)
      fun _ _ => trivial
    -- A tick can disconnect connections, which then have no key.
    rcases hs'.connection c with hc | hc
    · rw [hc]
      exact .inl rfl
    · rw [hc]
      exact .inr rfl
  | incomingSteps _ _ _ | composeRound | reInitWithGame _ | hostMigration _ _ =>
    refine Ensures.of_eq_ok fun s' hs' => hsame s' fun c => ?_
    have hc : s'.connection c = s.connection c := by
      refine (step_connection_eq s ?_ c).of_ok hs'
      trivial
    rw [hc]
  | connectionConnected t => exact absurd rfl (hop t)
  | connectionDisconnected t =>
    refine Ensures.map ((connectionDisconnected_ensures
      (fun s' => ∀ c, (s'.connection c).key = (s.connection c).key) hrefl t
      fun p _ _ => ?_).mono (fun r hr => hsame _ hr) fun _ _ => trivial)
    exact keys_setConnection hrefl t rfl

/-! ### No key twice -/

/-- No two used connections have the same key, and request id zero is the id of the
connections that carry their own index. -/
structure DistinctKeys (s : Server E S) : Prop where
  unique : ∀ c d key, (s.connection c).key = some key → (s.connection d).key = some key → c = d
  own : ∀ c requestId, (s.connection c).key = some (UInt8.ofNat c.val, requestId) → requestId = 0
  zero : ∀ c transportIndex, (s.connection c).key = some (transportIndex, 0) →
    transportIndex = UInt8.ofNat c.val

namespace DistinctKeys

variable {s s' : Server E S}

/-- Keys that are taken away leave the others distinct. -/
theorem kept (h : DistinctKeys s)
    (hkey : ∀ c, (s'.connection c).key = (s.connection c).key ∨ (s'.connection c).key = none) :
    DistinctKeys s' := by
  have hsome : ∀ c key, (s'.connection c).key = some key → (s.connection c).key = some key := by
    intro c key hc
    rcases hkey c with hsame | hnone
    · exact hsame.symm.trans hc
    · cases hnone.symm.trans hc
  exact ⟨fun c d key hc hd => h.unique c d key (hsome c key hc) (hsome d key hd),
    fun c requestId hc => h.own c requestId (hsome c _ hc),
    fun c transportIndex hc => h.zero c transportIndex (hsome c _ hc)⟩

/-- A slot is given a key that no slot has. -/
theorem given (h : DistinctKeys s) (k : ConnectionPtr) {transportIndex : UInt8} {requestId : Nat}
    (hnew : ∀ c, (s.connection c).key ≠ some (transportIndex, requestId))
    (hown : transportIndex = UInt8.ofNat k.val ↔ requestId = 0)
    (hkey : ∀ c, (s'.connection c).key
      = if k = c then some (transportIndex, requestId) else (s.connection c).key) :
    DistinctKeys s' := by
  refine ⟨fun c d key hc hd => ?_, fun c q hc => ?_, fun c t hc => ?_⟩
  · rw [hkey] at hc hd
    split at hc
    · rename_i hkc
      split at hd
      · rename_i hkd
        exact hkc.symm.trans hkd
      · -- The other slot has the key from before, but the key is new.
        cases hc
        exact absurd hd (hnew d)
    · split at hd
      · cases hd
        exact absurd hc (hnew c)
      · exact h.unique c d key hc hd
  · rw [hkey] at hc
    split at hc
    · rename_i hkc
      subst hkc
      cases hc
      exact hown.mp rfl
    · exact h.own c q hc
  · rw [hkey] at hc
    split at hc
    · rename_i hkc
      subst hkc
      cases hc
      exact hown.mpr rfl
    · exact h.zero c t hc

/-- The lookup finds the slot with the key. -/
theorem find_eq (h : DistinctKeys s) {transportIndex : UInt8} {requestId : Nat}
    {k : ConnectionPtr} (hk : (s.connection k).key = some (transportIndex, requestId)) :
    findExistingConnectionRequest s transportIndex requestId = some k := by
  cases hfind : findExistingConnectionRequest s transportIndex requestId with
  | none => exact absurd hk (key_of_find_none hfind k)
  | some c => rw [h.unique c k _ (key_of_find hfind) hk]

/-- One operation keeps the keys distinct. -/
theorem step (h : DistinctKeys s) {op : Op S} (henabled : s.Enabled op)
    (houtcome : KeyOutcome s op s') : DistinctKeys s' := by
  cases houtcome with
  | kept _ _ hkey => exact h.kept hkey
  | received t _ hfree hkey =>
    refine h.given t (fun c hc => ?_) (iff_of_true rfl rfl) hkey
    -- A slot with this key carries its own index, so it is the slot itself, which was free.
    have htc := connectionOctet_injective (h.zero c _ hc)
    subst htc
    cases hfree.symm.trans hc
  | taken t request k _ hfree hfind hkey =>
    -- The request came on a slot that carries its own index, so its request id is zero.
    obtain ⟨requestId, ht⟩ := key_of_serving henabled
    obtain rfl := h.own t requestId ht
    refine h.given k (key_of_find_none hfind) (iff_of_false ?_ ?_) hkey
    · intro htk
      obtain rfl := connectionOctet_injective htk
      cases hfree.symm.trans ht
    · intro hzero
      rw [hzero] at hfind
      exact key_of_find_none hfind t ht

end DistinctKeys

/-- The operations of a server whose transport layer reports no connections by itself. -/
def Connects (s : Server E S) (op : Op S) : Prop :=
  s.Enabled op ∧ ∀ t, op ≠ .connectionConnected t

/-- Runs of datagrams are runs of these operations. -/
theorem DatagramRun.connects {start s : Server E S} (h : DatagramRun start s) :
    Reaches Server.step Connects start s := by
  refine h.mono fun s op hop => ⟨hop.2, ?_⟩
  rintro t rfl
  exact hop.1

/-- The keys are distinct in every state of a run. -/
theorem distinctKeys_reachable {start s : Server E S} (hstart : Started start)
    (hrun : Reaches Server.step Connects start s) : DistinctKeys s := by
  -- No connection is used at the start.
  have hnone : ∀ c, (start.connection c).key = none := by
    obtain ⟨memory, hinit⟩ := hstart
    intro c
    exact TransportConnection.key_eq_none.mpr
      (((nimbleServerInit_ensures memory).of_ok hinit).2.1 c).2.2
  refine hrun.invariant DistinctKeys ?_ fun s op h hop =>
    (step_keyOutcome s hop.2).mono (fun s' hs' => h.step hop.1 hs') fun _ h => h
  exact ⟨fun c _ _ hc => (Option.some_ne_none _ (hc.symm.trans (hnone c))).elim,
    fun c _ hc => (Option.some_ne_none _ (hc.symm.trans (hnone c))).elim,
    fun c _ hc => (Option.some_ne_none _ (hc.symm.trans (hnone c))).elim⟩

/-! ### Answers -/

/-- A request is answered with a connection that has its key. -/
theorem acceptConnectRequest_key (s : Server E S) (transportIndex : UInt8)
    (request : ConnectRequest) :
    Ensures (acceptConnectRequest s transportIndex request)
      (fun r => ∀ k, r.1 = .ok k →
        (r.2.connection k).key = some (transportIndex, request.clientRequestId))
      (fun _ => True) := by
  unfold acceptConnectRequest
  split
  · rintro k ⟨⟩
  · dsimp only [pure_bind]
    split
    · rename_i c hfind
      rintro k ⟨⟩
      exact key_of_find hfind
    · unfold nimbleServerCircularBufferIsEmpty nimbleServerCircularBufferRead
      split
      · rintro k ⟨⟩
      · show Ensures (dite _ _ _) _ _
        split
        · split
          · trivial
          · rintro k ⟨⟩
            exact (key_setConnection _ _ _ _).trans (if_pos rfl)
        · trivial

/-- A request whose key some connection has is answered with it, and nothing changes. -/
theorem DistinctKeys.acceptConnectRequest_eq {s : Server E S} (h : DistinctKeys s)
    {transportIndex : UInt8} {request : ConnectRequest} {k : ConnectionPtr}
    (hk : (s.connection k).key = some (transportIndex, request.clientRequestId))
    (hversion : request.applicationVersion = S.applicationVersion) :
    acceptConnectRequest s transportIndex request = .ok (.ok k, s) := by
  unfold acceptConnectRequest
  rw [if_neg (not_not.mpr hversion.symm), h.find_eq hk]
  rfl

/-- A step that leaves a connection in use leaves it its key. -/
theorem KeyOutcome.key_eq {s s' : Server E S} {op : Op S} (h : KeyOutcome s op s')
    {k : ConnectionPtr} {key : UInt8 × Nat} (hk : (s.connection k).key = some key)
    (hused : (s'.connection k).isUsed = true) : (s'.connection k).key = some key := by
  have hfree : ∀ c, (s.connection c).key = none → c ≠ k := by
    rintro c hc rfl
    cases hc.symm.trans hk
  cases h with
  | kept _ _ hkey =>
    -- A connection without a key would not be in use.
    rcases hkey k with hsame | hnone
    · exact hsame.trans hk
    · cases (TransportConnection.key_eq_none.mp hnone).symm.trans hused
  | received t _ hnone hkey => rw [hkey, if_neg (hfree t hnone), hk]
  | taken t request c _ hnone hfind hkey => rw [hkey, if_neg (hfree c hnone), hk]

/-- While it stays in use, a connection has the same key. -/
theorem key_stays {s s' : Server E S} {k : ConnectionPtr} {key : UInt8 × Nat}
    (hk : (s.connection k).key = some key)
    (hrun : Reaches Server.step (fun s op => Connects s op ∧ (s.connection k).isUsed = true) s s')
    (hused : (s'.connection k).isUsed = true) : (s'.connection k).key = some key := by
  induction hrun with
  | refl => exact hk
  -- The connection is in use before every step of the run, and after the last by assumption.
  | tail _ hallowed hstep ih =>
    exact ((step_keyOutcome _ hallowed.1.2).of_ok hstep).key_eq (ih hallowed.2) hused

/-! ### Datagrams -/

/-- The datagram is handled on connection `c`, which is in use, and holds one connect request
and nothing else. -/
structure ConnectDatagram (s : Server E S) (c : ConnectionPtr) (request : ConnectRequest)
    (data : List UInt8) (environment : Environment S) : Prop where
  isUsed : (s.connection c).isUsed = true
  command : E.NimbleSerializeCmdConnectRequest ≠ E.NimbleSerializeCmdClientOutBlobStream
  accepted : ∃ consumed inStream count, Accepts s (UInt8.ofNat c.val) c data consumed ∧
    ReadsCommand E environment 0 (datagramCommands E data consumed environment).2
      E.NimbleSerializeCmdConnectRequest inStream ∧
    E.nimbleSerializeServerInConnectRequest inStream = .ok (request, count) ∧
    inStream.drop count = []

/-- Nothing changed but the sequence bookkeeping of connection `c`. -/
structure OnlySequenceChanged (c : ConnectionPtr) (s s' : Server E S) : Prop where
  connection : ∃ orderedDatagramInLogic orderedDatagramOutLogic, s'.connection c
    = { s.connection c with orderedDatagramInLogic, orderedDatagramOutLogic }
  others : ∀ d, d ≠ c → s'.connection d = s.connection d
  freeTransportConnectionList :
    s'.freeTransportConnectionList = s.freeTransportConnectionList
  localParties : s'.localParties = s.localParties
  game : s'.game = s.game

/-- The ordering check only moves the expected sequence number. -/
theorem OnlySequenceChanged.received (s : Server E S) (c : ConnectionPtr) (data : List UInt8) :
    OnlySequenceChanged c s (receiveOrdered s c data) where
  connection := ⟨_, _, (Server.connection_setConnection s c c _).trans (if_pos rfl)⟩
  others := fun d hd => (Server.connection_setConnection s c d _).trans (if_neg hd.symm)
  freeTransportConnectionList := rfl
  localParties := rfl
  game := rfl

/-- Committing a header only moves the next sequence number. -/
theorem OnlySequenceChanged.committed {c : ConnectionPtr} {s s' : Server E S}
    (h : OnlySequenceChanged c s s') : OnlySequenceChanged c s
      (s'.setConnection c (transportConnectionCommitHeader (s'.connection c))) where
  connection := by
    obtain ⟨inLogic, outLogic, hc⟩ := h.connection
    refine ⟨inLogic, E.orderedDatagramOutLogicCommit outLogic, ?_⟩
    rw [Server.connection_setConnection, if_pos rfl, hc]
    rfl
  others := fun d hd => by
    rw [Server.connection_setConnection, if_neg hd.symm]
    exact h.others d hd
  freeTransportConnectionList := h.freeTransportConnectionList
  localParties := h.localParties
  game := h.game

/-- The reply is the response to a request that names the connection. -/
def NamesConnection (E : External) (k : ConnectionPtr) (requestId : Nat) (reply : List UInt8) :
    Prop :=
  ∃ stream useDebugStreams, reply = (E.nimbleSerializeServerOutConnectResponse stream
    { useDebugStreams
      connectionId := UInt8.ofNat k.val
      responseToRequestId := requestId }).2.octets

/-- Keys and ids of connections are not bookkeeping. -/
theorem OnlySequenceChanged.fields {c : ConnectionPtr} {s s' : Server E S}
    (h : OnlySequenceChanged c s s') (d : ConnectionPtr) :
    (s'.connection d).key = (s.connection d).key ∧ (s'.connection d).id = (s.connection d).id := by
  by_cases hd : d = c
  · subst hd
    obtain ⟨inLogic, outLogic, hd⟩ := h.connection
    rw [hd]
    exact ⟨rfl, rfl⟩
  · rw [h.others d hd]
    exact ⟨rfl, rfl⟩

/-- The handler of a connect request whose key some connection has. -/
theorem DistinctKeys.reqConnect_eq {s : Server E S} (h : DistinctKeys s) {transportIndex : UInt8}
    {request : ConnectRequest} {k : ConnectionPtr}
    (hk : (s.connection k).key = some (transportIndex, request.clientRequestId))
    (hversion : request.applicationVersion = S.applicationVersion) {inStream : InStream}
    {count : Nat} (hread : E.nimbleSerializeServerInConnectRequest inStream = .ok (request, count))
    (outStream : OutStream) :
    nimbleServerReqConnect s transportIndex inStream outStream
      = .ok ((E.nimbleSerializeServerOutConnectResponse outStream
          { useDebugStreams := (s.connection k).useDebugStreams
            connectionId := (s.connection k).id
            responseToRequestId := request.clientRequestId }).1,
        inStream.drop count,
        (E.nimbleSerializeServerOutConnectResponse outStream
          { useDebugStreams := (s.connection k).useDebugStreams
            connectionId := (s.connection k).id
            responseToRequestId := request.clientRequestId }).2, s) := by
  unfold nimbleServerReqConnect
  rw [hread]
  dsimp only
  rw [h.acceptConnectRequest_eq hk hversion]
  rfl

/-- The whole datagram of a connect request whose key some connection has. -/
theorem DistinctKeys.feed_again {s : Server E S} (h : DistinctKeys s) {c k : ConnectionPtr}
    {request : ConnectRequest} (hid : (s.connection k).id = UInt8.ofNat k.val)
    (hk : (s.connection k).key = some (UInt8.ofNat c.val, request.clientRequestId))
    (hversion : request.applicationVersion = S.applicationVersion) {data : List UInt8}
    {environment : Environment S} (hdatagram : ConnectDatagram s c request data environment) :
    Ensures (nimbleServerFeed s (UInt8.ofNat c.val) data environment)
      (fun r => OnlySequenceChanged c s r.2.2 ∧
        ∀ reply ∈ r.2.1, NamesConnection E k request.clientRequestId reply)
      (fun _ => False) := by
  obtain ⟨consumed, inStream, count, haccepts, hcommand, hread, hrest⟩ := hdatagram.accepted
  -- The connection is in use, so the datagram does not take it into use anew.
  rw [haccepts.feed_eq environment, receiveOnConnection_of_isUsed hdatagram.isUsed]
  have hreceived := OnlySequenceChanged.received s c data
  -- From here on only what the ordering check keeps is needed.
  generalize receiveOrdered s c data = s1 at hreceived ⊢
  have h1 : DistinctKeys s1 := h.kept fun d => .inl (hreceived.fields d).1
  have hk1 := (hreceived.fields k).1.trans hk
  have hid1 := (hreceived.fields k).2.trans hid
  obtain ⟨fuel, hfuel⟩ : ∃ fuel, (datagramCommands E data consumed environment).2.length
      = fuel + 1 :=
    Nat.exists_eq_succ_of_ne_zero fun hzero =>
      hcommand.nonempty (List.eq_nil_of_length_eq_zero hzero)
  rw [hfuel]
  by_cases hheader : (transportConnectionWriteHeader (s1.connection c) (replyOutStream E)
      (datagramCommands E data consumed environment).1).1 < 0
  · rw [feedCommands_noHeader hcommand hdatagram.command hheader]
    exact ⟨hreceived, by simp⟩
  · obtain ⟨outStream, hwrites⟩ : ∃ outStream, WritesHeader s1 c
        (datagramCommands E data consumed environment).1 outStream :=
      ⟨_, Int.not_lt.mp hheader, rfl⟩
    rw [feedCommands_command hcommand hdatagram.command hwrites]
    unfold handleCommand
    rw [if_pos rfl, h1.reqConnect_eq hk1 hversion hread, hrest, hid1]
    have hnames : NamesConnection E k request.clientRequestId
        (E.nimbleSerializeServerOutConnectResponse outStream
          { useDebugStreams := (s1.connection k).useDebugStreams
            connectionId := UInt8.ofNat k.val
            responseToRequestId := request.clientRequestId }).2.octets := ⟨_, _, rfl⟩
    generalize E.nimbleSerializeServerOutConnectResponse outStream
      { useDebugStreams := (s1.connection k).useDebugStreams
        connectionId := UInt8.ofNat k.val
        responseToRequestId := request.clientRequestId } = response at hnames ⊢
    show Ensures (afterCommand c _ environment _ 0 [] (some (response.1, [], response.2, []), s1))
      _ _
    -- The response could not be written, it is too short, or it is too long: then nothing is
    -- sent. Otherwise it is the last command of the datagram.
    simp only [afterCommand]
    split
    · exact ⟨hreceived, by simp⟩
    · split
      · exact ⟨hreceived, by simp⟩
      · split
        · exact ⟨hreceived.committed, by simp⟩
        · rw [feedCommands_nil]
          refine ⟨hreceived.committed, fun reply hreply => ?_⟩
          rw [List.nil_append, List.nil_append, List.mem_singleton] at hreply
          exact hreply ▸ hnames

/-! ### Sending a request again -/

/-- A connect request leaves the connections in use alone. -/
theorem connection_of_connect {s s' : Server E S} {transportIndex : UInt8}
    {request : ConnectRequest} {answer : Except Int ConnectionPtr}
    (h : acceptConnectRequest s transportIndex request = .ok (answer, s')) {k : ConnectionPtr}
    (hused : (s.connection k).isUsed = true) : s'.connection k = s.connection k := by
  have houtcome := (acceptConnectRequest_ensures s transportIndex request).of_ok h
  cases houtcome with
  | refused code => rfl
  | existing c => rfl
  | taken c hversion hfind hempty hfront hfree =>
    have hck : c ≠ k := by
      rintro rfl
      cases hfree.symm.trans hused
    exact (Server.connection_setConnection _ c k _).trans (if_neg hck)

/-- A connection in use has the id of its slot. -/
theorem usedIds_of_connects {start s : Server E S} (hstart : Started start)
    (hrun : Reaches Server.step Connects start s) : UsedIds s :=
  usedIds_rule.bindingKeeps.reachable hstart.usedIds (hrun.mono fun _ _ h => h.2)

/-- A connect request is an operation of the run. -/
theorem reaches_connect {start s s' : Server E S} (hrun : Reaches Server.step Connects start s)
    {c : ConnectionPtr} (hserving : s.Serving c) {request : ConnectRequest}
    {answer : Except Int ConnectionPtr}
    (h : acceptConnectRequest s (UInt8.ofNat c.val) request = .ok (answer, s')) :
    Reaches Server.step Connects start s' := by
  have hallowed : Connects s (.connect c request) := ⟨hserving, by rintro t ⟨⟩⟩
  exact hrun.tail hallowed (map_eq_ok.mpr ⟨_, h, rfl⟩)

/-- The first datagram of a client came on index 0, and it can send connect requests. One that
comes after the first is answered with one reply. -/
theorem exists_firstConnect :
    ∃ start s₁ s₂ : Server plainExternal (plainSetup 1), Started start ∧ DatagramRun start s₁ ∧
      s₁.Serving 0 ∧ acceptConnectRequest s₁ 0 (plainConnect 5) = .ok (.ok 1, s₂) ∧
      (s₂.connection 1).isUsed = true ∧
      ∃ code reply s₃, nimbleServerFeed s₂ 0 (datagram (1 :: connectOctets 5))
        (plainEnvironment (zeroLocals _)) = .ok (code, [reply], s₃) := by
  obtain ⟨start, s₁, hstart, hrun, hserving, hconnect⟩ :=
    exists_run Server.step (fun s op => op.IsDatagram ∧ s.Enabled op)
      (fun s : Server plainExternal (plainSetup 1) => s.Serving 0 ∧
        (acceptConnectRequest s 0 (plainConnect 5)).toOption.any (fun r =>
          decide (r.1 = .ok 1 ∧ (r.2.connection 1).isUsed = true) &&
            (nimbleServerFeed r.2 0 (datagram (1 :: connectOctets 5))
              (plainEnvironment (zeroLocals _))).toOption.any (fun r =>
                decide (r.2.1.length = 1))) = true)
      (nimbleServerInit (zeroMemory (plainSetup 1)) : Result (Server plainExternal _))
      [.receive 0] (by decide +kernel)
  obtain ⟨⟨answer, s₂⟩, hs₂, hchecks⟩ := exists_ok_of_any hconnect
  rw [Bool.and_eq_true] at hchecks
  obtain ⟨rfl, hused⟩ := of_decide_eq_true hchecks.1
  obtain ⟨⟨code, sent, s₃⟩, hfeed, hlength⟩ := exists_ok_of_any hchecks.2
  obtain ⟨reply, rfl⟩ := List.length_eq_one_iff.mp (of_decide_eq_true hlength)
  exact ⟨start, s₁, s₂, ⟨_, hstart⟩, hrun, hserving, hs₂, hused, code, reply, s₃, hfeed⟩

end NimbleServer
