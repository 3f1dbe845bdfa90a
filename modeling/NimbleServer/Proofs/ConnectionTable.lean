import NimbleServer.Lib.FreeList
import NimbleServer.Model.PlainServer
import NimbleServer.Proofs.Lookup

/-!
# `NimbleServer.Proofs.ConnectionTable`: the table of transport connections

A slot of the table is taken into use in three ways. A datagram takes the slot of its own
transport index; a connect request takes the slot at the front of the free list, and
writes the sender's index into it; the transport layer's report of a new connection marks
a slot as used and does nothing else. A dissolved party gives its slot back at the end of the
list.

These do not fit together. A datagram does not remove its slot from the list, so a later
connect request finds a used slot there (`freeList_used_slot`). A connect request always
takes a slot whose number is not the index it writes, so the datagrams of the client with
that number are refused (`connection_wrong_transportIndex`).

`FreeListKept` and `OwnSlotOnly` say when the list, and the slots, stay in order.
-/

set_option autoImplicit false

namespace NimbleServer

open NimbleServer.Lib

variable {E : External} {S : Setup}

/-! ### The free list -/

/-- The octet of a slot. -/
def connectionOctet (c : ConnectionPtr) : UInt8 := UInt8.ofNat c.val

/-- A slot that is taken into use is given its number. -/
theorem usedIds_rule :
    ConnectionRule (fun (_ : Server E S) op => ∀ t, op ≠ .connectionConnected t)
      (fun c x => x.isUsed = true → x.id = connectionOctet c) where
  sameSlot := fun _ _ _ h hx hused => hx.id.trans (h (hx.isUsed.symm.trans hused))
  assigned := fun _ _ _ h => h
  released := fun _ _ _ hused => by cases hused
  receive := fun _ _ _ _ _ hx _ => hx.id
  connect := fun _ _ _ _ _ _ _ _ _ _ hx _ => hx.id
  connected := fun _ t hne => absurd rfl (hne t)

/-- Every used connection has the number of its slot. -/
def UsedIds (s : Server E S) : Prop :=
  ∀ c, (s.connection c).isUsed = true → (s.connection c).id = connectionOctet c

/-- The list holds unused slots, each once, and parties in use have used connections. -/
structure FreeListSound (s : Server E S) : Prop where
  free : ∃ free : List ConnectionPtr,
    s.freeTransportConnectionList.toList = free.map connectionOctet ∧
      OnlyFree free (fun c => (s.connection c).isUsed)
  bound : ∀ p t, (s.party p).BelongsTo t → (s.connection t).isUsed = true

/-- No two parties have the same connection. -/
def ConnectionsDiffer (s : Server E S) : Prop :=
  ∀ p q t, (s.party p).BelongsTo t → (s.party q).BelongsTo t → p = q

/-- A datagram comes on a used slot or on one that is not on the list, and when the parties
are ticked no two of them have the same connection. The transport layer reports no
connections. -/
@[reducible] def FreeListKept (s : Server E S) : Op S → Prop
  -- The source does not take the slot of a datagram from the list.
  | .receive t => (s.connection t).isUsed = true ∨
      connectionOctet t ∉ s.freeTransportConnectionList.toList
  | .tick => ConnectionsDiffer s
  | .connectionConnected _ => False
  | op => s.Enabled op

/-- Parties and connections are finitely many. -/
instance (s : Server E S) : Decidable (ConnectionsDiffer s) :=
  inferInstanceAs (Decidable (∀ _ _ _, _))

/-- The condition can be evaluated for each operation. -/
instance (s : Server E S) (op : Op S) : Decidable (FreeListKept s op) :=
  Op.decidableOf (FreeListKept s) op

/-- A tick gives no party a connection. -/
theorem TickOutcome.belongsTo {s s' : Server E S} {p q : PartyPtr S} {t : ConnectionPtr}
    (h : TickOutcome s p s') (hq : (s'.party q).BelongsTo t) : (s.party q).BelongsTo t := by
  -- Each outcome replaces one party, so it is enough to look at the new one.
  have hupdate : ∀ x : LocalParty S, s'.party q = (if p = q then x else s.party q) →
      (x.BelongsTo t → (s.party p).BelongsTo t) → (s.party q).BelongsTo t := by
    intro x hs' hx
    rw [hs'] at hq
    split at hq
    · rename_i hpq
      exact hpq ▸ hx hq
    · exact hq
  cases h with
  | unused hused => exact hq
  | kept counter hused hstate hcounter =>
    exact hupdate _ (Server.party_setParty s p q _) fun hx => hx
  | lost counter hused hstate hfailing => exact hupdate _ (party_lost s p q counter) fun hx => hx
  | waited hused hstate => exact hupdate _ (party_advanceTimer s p q) fun hx => hx
  | stale hused hstate => exact hq
  | dissolved hused hstate hcount hconnection =>
    exact hupdate _ (party_dissolved s p q) fun hx => by cases hx.1
  | disconnected c hused hstate hcount hconnection hfull =>
    exact hupdate _ (party_dissolved s p q) fun hx => by cases hx.1

/-- The stop is not one of the free list. -/
def Fault.IsNotFreeList (fault : Fault) : Prop :=
  fault ≠ .circularBufferOverwrite .transportConnections ∧ fault ≠ .transportConnectionUsed

namespace FreeListSound

variable {s s' : Server E S}

/-- The list and the flags stay, and a party has a connection it had before or a used one. -/
theorem congr (h : FreeListSound s)
    (hlist : s'.freeTransportConnectionList = s.freeTransportConnectionList)
    (hused : ∀ c, (s'.connection c).isUsed = (s.connection c).isUsed)
    (hparty : ∀ p t, (s'.party p).BelongsTo t →
      (s.party p).BelongsTo t ∨ (s.connection t).isUsed = true) : FreeListSound s' := by
  constructor
  · rw [hlist, funext hused]
    exact h.free
  · intro p t hp
    rw [hused]
    rcases hparty p t hp with hp | ht
    · exact h.bound p t hp
    · exact ht

/-- Only parties change, and none gets a connection that is not used. -/
theorem of_parties (h : FreeListSound s)
    (hlist : s'.freeTransportConnectionList = s.freeTransportConnectionList)
    (hconnections : s'.transportConnections = s.transportConnections)
    (hparty : ∀ p t, (s'.party p).BelongsTo t →
      (s.party p).BelongsTo t ∨ (s.connection t).isUsed = true) : FreeListSound s' := by
  refine h.congr hlist (fun c => ?_) hparty
  unfold Server.connection
  rw [hconnections]

/-- The flags after one connection was replaced. -/
theorem isUsed_replaced {t : ConnectionPtr} {x : TransportConnection E S}
    (hs' : ∀ c, s'.connection c = if t = c then x else s.connection c) :
    (fun c => (s'.connection c).isUsed)
      = Function.update (fun c => (s.connection c).isUsed) t x.isUsed := by
  funext c
  rw [hs']
  by_cases htc : t = c
  · rw [if_pos htc, ← htc, Function.update_self]
  · rw [if_neg htc, Function.update_of_ne fun hct => htc hct.symm]

/-- A slot is taken into use. -/
theorem occupy (h : FreeListSound s) (t : ConnectionPtr) {x : TransportConnection E S}
    (hfree : ∃ free : List ConnectionPtr,
      s'.freeTransportConnectionList.toList = free.map connectionOctet ∧
        OnlyFree free (Function.update (fun c => (s.connection c).isUsed) t true))
    (hparties : s'.localParties = s.localParties)
    (hs' : ∀ c, s'.connection c = if t = c then x else s.connection c)
    (hx : x.isUsed = true) : FreeListSound s' := by
  constructor
  · rw [isUsed_replaced hs', hx]
    exact hfree
  · intro p c hp
    rw [hs']
    split
    · exact hx
    · refine h.bound p c ?_
      unfold Server.party at hp ⊢
      rw [hparties] at hp
      exact hp

/-- A slot that is not on the list can be taken into use. -/
theorem occupy_not_mem (h : FreeListSound s) {t : ConnectionPtr}
    (hmem : connectionOctet t ∉ s.freeTransportConnectionList.toList) :
    ∃ free : List ConnectionPtr,
      s.freeTransportConnectionList.toList = free.map connectionOctet ∧
        OnlyFree free (Function.update (fun c => (s.connection c).isUsed) t true) := by
  obtain ⟨free, hlist, hfree⟩ := h.free
  refine ⟨free, hlist, hfree.occupy fun ht => hmem ?_⟩
  rw [hlist]
  exact List.mem_map_of_mem ht

/-- A list that is not empty starts with a free slot. -/
theorem front (h : FreeListSound s) {c : ConnectionPtr}
    (hempty : s.freeTransportConnectionList.isEmpty = false)
    (hfront : s.freeTransportConnectionList.front = connectionOctet c) :
    ∃ free, s.freeTransportConnectionList.pop.toList = free.map connectionOctet ∧
      OnlyFree (c :: free) (fun c => (s.connection c).isUsed) := by
  obtain ⟨free, hlist, hfree⟩ := h.free
  rw [Ring.toList_pop _ hempty, hfront] at hlist
  cases free with
  | nil => cases hlist
  | cons d rest =>
    rw [List.map_cons, List.cons.injEq] at hlist
    -- Octets name slots, so the slot at the front is the first of the free ones.
    obtain rfl : c = d := connectionOctet_injective hlist.1
    exact ⟨rest, hlist.2, hfree⟩

/-- The slot at the front is not used. -/
theorem front_unused (h : FreeListSound s) {c : ConnectionPtr}
    (hempty : s.freeTransportConnectionList.isEmpty = false)
    (hfront : s.freeTransportConnectionList.front = connectionOctet c) :
    (s.connection c).isUsed = false := by
  obtain ⟨free, -, hfree⟩ := h.front hempty hfront
  exact hfree.unused c List.mem_cons_self

/-- While some slot is used, the list is not full. -/
theorem not_full (h : FreeListSound s) {t : ConnectionPtr}
    (ht : (s.connection t).isUsed = true) : s.freeTransportConnectionList.isFull = false := by
  obtain ⟨free, hlist, hfree⟩ := h.free
  have hlength := hfree.length_lt ht
  refine Bool.eq_false_iff.mpr fun hfull => ?_
  have hcount := (Ring.isFull_iff _).mp hfull
  rw [← Ring.length_toList, hlist, List.length_map] at hcount
  exact absurd hcount (Nat.ne_of_lt hlength)

/-- The tick of a party does not stop at a full list. -/
theorem tickFault (h : FreeListSound s) {p : PartyPtr S} {fault : Fault}
    (hf : TickFault s p fault) : fault.IsNotFreeList := by
  cases hf with
  | partiesCount hused hcount => exact ⟨by decide, by decide⟩
  -- The party that gives its connection back has one in use, so the list has room.
  | overwrite t hused hconnection hfull =>
    cases hfull.symm.trans (h.not_full (h.bound p t ⟨hused, hconnection⟩))

/-- A used slot that no party has any more is given back. -/
theorem give (h : FreeListSound s) {t : ConnectionPtr} {x : TransportConnection E S}
    (ht : (s.connection t).isUsed = true)
    (hlist : s'.freeTransportConnectionList
      = s.freeTransportConnectionList.push (connectionOctet t))
    (hs' : ∀ c, s'.connection c = if t = c then x else s.connection c) (hx : x.isUsed = false)
    (hparty : ∀ p c, (s'.party p).BelongsTo c → (s.party p).BelongsTo c ∧ c ≠ t) :
    FreeListSound s' := by
  constructor
  · obtain ⟨free, hold, hfree⟩ := h.free
    refine ⟨free ++ [t], ?_, ?_⟩
    · rw [hlist, Ring.toList_push _ _ (h.not_full ht), hold, List.map_append]
      rfl
    · rw [isUsed_replaced hs', hx]
      exact hfree.give ht
  · intro p c hp
    obtain ⟨hold, hne⟩ := hparty p c hp
    rw [hs', if_neg (fun htc => hne htc.symm)]
    exact h.bound p c hold

/-- The tick of one party, when no two parties have the same connection. -/
theorem tick {p : PartyPtr S} (h : FreeListSound s) (hdiffer : ConnectionsDiffer s)
    (hids : UsedIds s) (hs' : TickOutcome s p s') : FreeListSound s' := by
  have hparty : ∀ q t, (s'.party q).BelongsTo t →
      (s.party q).BelongsTo t ∨ (s.connection t).isUsed = true :=
    fun q t hq => .inl (hs'.belongsTo hq)
  have hdissolved : ∀ q t, ((dissolveParty (advanceTimer s p) p).party q).BelongsTo t →
      p ≠ q ∧ (s.party q).BelongsTo t := by
    intro q t hq
    rw [party_dissolved] at hq
    split at hq
    · cases hq.1
    · rename_i hpq
      exact ⟨hpq, hq⟩
  cases hs' with
  | unused hused => exact h
  | kept counter hused hstate hcounter => exact h.of_parties rfl rfl hparty
  | lost counter hused hstate hfailing =>
    refine h.of_parties ?_ ?_ hparty
    · unfold setToWaitingForReJoin
      rw [setReferencedStates_freeTransportConnectionList]
      rfl
    · unfold setToWaitingForReJoin
      rw [setReferencedStates_transportConnections]
      rfl
  | waited hused hstate => exact h.of_parties rfl rfl hparty
  | stale hused hstate => exact h
  | dissolved hused hstate hcount hconnection =>
    exact h.of_parties (dissolveParty_freeTransportConnectionList _ _)
      (dissolveParty_transportConnections _ _) hparty
  -- This is where a slot goes back to the list. The octet that is written is the id of the
  -- connection, and that no other party has it is the condition on ticks.
  | disconnected t hused hstate hcount hconnection hfull =>
    have ht : (s.connection t).isUsed = true := h.bound p t ⟨hused, hconnection⟩
    have hconnections : ∀ c, (dissolveParty (advanceTimer s p) p).connection c
        = s.connection c := by
      intro c
      unfold Server.connection
      rw [dissolveParty_transportConnections]
      rfl
    refine h.give (x := transportConnectionDisconnect (s.connection t)) ht ?_ ?_ rfl ?_
    · show ((dissolveParty (advanceTimer s p) p).freeTransportConnectionList).push
        ((dissolveParty (advanceTimer s p) p).connection t).id = _
      rw [dissolveParty_freeTransportConnectionList, hconnections, hids t ht]
      rfl
    · intro c
      unfold releaseConnection
      rw [Server.connection_setConnection, hconnections]
      split
      · rfl
      · exact hconnections c
    · intro q c hq
      obtain ⟨hpq, hold⟩ := hdissolved q c hq
      refine ⟨hold, ?_⟩
      rintro rfl
      exact hpq (hdiffer p q c ⟨hused, hconnection⟩ hold)

/-- A join gives a party the connection it came on, which is used. -/
theorem join {t : ConnectionPtr} {request : JoinGameRequest} {uninitialized : Uninitialized S}
    {result : Except Int (PartyPtr S)} (h : FreeListSound s)
    (ht : (s.connection t).isUsed = true)
    (hr : JoinOutcome s t request uninitialized (result, s')) : FreeListSound s' := by
  have hused : ∀ c, (s'.connection c).isUsed = (s.connection c).isUsed := by
    intro c
    rcases hr.connection c with hc | ⟨p, -, -, hc⟩
    · rw [hc]
    · rw [hc]
  -- A party that is replaced belongs to what it belonged to, or to the connection of the join.
  have hupdate : ∀ (p : PartyPtr S) (x : LocalParty S),
      s'.freeTransportConnectionList = s.freeTransportConnectionList →
      (∀ q, s'.party q = if p = q then x else s.party q) →
      (x.transportConnection = some t ∨ ∀ c, x.BelongsTo c → (s.party p).BelongsTo c) →
      FreeListSound s' := by
    intro p x hlist hs' hx
    refine h.congr hlist hused fun q c hq => ?_
    rw [hs'] at hq
    split at hq
    · rename_i hpq
      rcases hx with hx | hx
      · obtain rfl : c = t := Option.some.inj (hq.2.symm.trans hx)
        exact .inr ht
      · exact .inl (hpq ▸ hx c hq)
    · exact .inl hq
  cases hr with
  | noPlace code hplace => exact h
  | sessionFull code p hplace =>
    exact hupdate p _ rfl (party_nameParty s p) (.inr fun _ hc => hc)
  | found p hcount hmatch =>
    exact hupdate p _ rfl (party_assignParty s t p) (.inr fun _ hc => hc)
  | unassigned p q htype hfind hnamed hcount hpointer =>
    exact hupdate p _ rfl (party_assignParty s t p) (.inr fun _ hc => hc)
  | rejoined p htype hfind hnamed hcount =>
    exact hupdate p _ rfl (party_rejoined s t p) (.inl rfl)
  | created p i participants htype hfind hplace hjoin =>
    exact hupdate p _ rfl (fun q => party_created s t p q participants i) (.inl rfl)

/-- After a reset no party has a connection. -/
theorem reset (h : FreeListSound s)
    (hparties : s'.localParties = nimbleServerLocalPartiesReset s.localParties)
    (hconnections : s'.transportConnections = s.transportConnections)
    (hlist : s'.freeTransportConnectionList = s.freeTransportConnectionList) :
    FreeListSound s' := by
  refine h.of_parties hlist hconnections ?_
  rintro p t ⟨hused, -⟩
  rw [party_of_reset hparties] at hused
  cases hused

/-- A party that is marked as not in use has no connection, and the list stays. -/
theorem disconnected (h : FreeListSound s) (t : ConnectionPtr) :
    Ensures (nimbleServerConnectionDisconnected s t) (fun r => FreeListSound r.2)
      (fun fault => fault = .illegalPartyId) := by
  refine connectionDisconnected_ensures FreeListSound h t fun p _ _ => ?_
  refine h.congr rfl (fun c => ?_) fun q c hq => ?_
  · rw [connection_dropParty]
    split
    · rename_i htc
      rw [← htc]
    · rfl
  · rw [party_dropParty] at hq
    split at hq
    · cases hq.1
    · exact .inl hq

end FreeListSound

/-- Every operation keeps the list in order, and none stops in it. -/
theorem freeListSound_keeps :
    BindingKeeps (fun (s : Server E S) op => FreeListKept s op ∧ UsedIds s)
      FreeListSound Fault.IsNotFreeList where
  sameParties := fun s s' h hs => h.of_parties hs.freeTransportConnectionList
    hs.transportConnections fun p t hp =>
      .inl ⟨(hs.isUsed p).symm.trans hp.1, (hs.transportConnection p).symm.trans hp.2⟩
  sameSlots := fun s s' h hs => h.congr hs.freeTransportConnectionList
    (fun c => (hs.connection c).isUsed) fun p t hp => .inl (by rwa [hs.party p] at hp)
  receive := by
    rintro s t h ⟨hallowed, -⟩
    unfold receiveOnConnection
    split
    · exact h
    · rename_i hused
      -- The slot is not used, so by the condition it is not on the list.
      have hmem := hallowed.resolve_left hused
      exact h.occupy t (h.occupy_not_mem hmem) rfl
        (fun c => Server.connection_setConnection s t c _) rfl
  connect := by
    intro s t request r h _ hr
    cases hr with
    | refused code => exact h
    | existing c => exact h
    | taken c hversion hfind hempty hfront hfree =>
      obtain ⟨free, hpop, hfree⟩ := h.front hempty hfront
      exact h.occupy c ⟨free, hpop, hfree.take⟩ rfl
        (fun d => Server.connection_setConnection _ c d _) rfl
  join := fun s t request uninitialized r h hallowed hr => h.join hallowed.1.1 hr
  tick := by
    rintro s h ⟨hdiffer, hids⟩
    -- One tick walks over all parties, so the loop carries both side conditions along.
    have hloop : Ensures (tickParties s)
        (fun s => FreeListSound s ∧ ConnectionsDiffer s ∧ UsedIds s) Fault.IsNotFreeList := by
      refine tickParties_ensures ⟨h, hdiffer, hids⟩ ?_ ?_
      · rintro s p s' ⟨h, hdiffer, hids⟩ hs'
        refine ⟨h.tick hdiffer hids hs', ?_, usedIds_rule.tick hids hs'⟩
        intro q r t hq hr
        exact hdiffer q r t (hs'.belongsTo hq) (hs'.belongsTo hr)
      · rintro s p f ⟨h, -, -⟩ hf
        exact h.tickFault hf
    exact hloop.mono (fun _ h => h.1) (fun _ h => h)
  reInit := fun s stepId s' h _ hparties hconnections hlist =>
    h.reset hparties hconnections hlist
  migrate := fun s infos uninitialized h _ =>
    (nimbleServerHostMigration_ensures FreeListSound (h.reset rfl rfl rfl)
      (fun s participants h => h.of_parties rfl rfl fun _ _ hp => .inl hp)
      (fun s p h _ => h.of_parties rfl rfl fun q t hq => by
        rw [party_nameParty] at hq
        split at hq
        · rename_i hpq
          exact .inl (hpq ▸ hq)
        · exact .inl hq)
      (fun s p participants i h _ => h.of_parties rfl rfl fun q t hq => by
        rw [party_prepareParty] at hq
        split at hq
        · cases hq.2
        · exact .inl hq)
      infos uninitialized).mono (fun _ h => h) (by
        rintro f (rfl | rfl | rfl) <;> exact ⟨by decide, by decide⟩)
  -- A slot that the transport layer marks as used can be on the list.
  connected := fun s t _ hallowed => hallowed.1.elim
  disconnected := fun s t h _ => (h.disconnected t).mono (fun _ h => h) (by
    rintro f rfl
    exact ⟨by decide, by decide⟩)
  connectFault := by
    intro s f h hf
    cases hf with
    -- The source's assertion: the slot from the list has to be unused.
    | used c hempty hfront hused =>
      cases hused.symm.trans (h.front_unused hempty hfront)
    | outOfBounds hempty hfront => exact ⟨by decide, by decide⟩
  joinFault := by
    intro s f _ hf
    cases hf with
    | outOfBounds hcount => exact ⟨by decide, by decide⟩
    | partyId => exact ⟨by decide, by decide⟩
    | pointer => exact ⟨by decide, by decide⟩
    | participants fault hf => cases hf <;> exact ⟨by decide, by decide⟩
  composeFault := by
    rintro f (rfl | rfl | rfl | rfl | rfl | rfl) <;> exact ⟨by decide, by decide⟩
  downloadFault := ⟨by decide, by decide⟩
  capacityFault := ⟨by decide, by decide⟩

/-- At the start the list holds all slots but the first, and nobody plays. -/
theorem Started.freeListSound {s : Server E S} (h : Started s) : FreeListSound s := by
  have hparty := h.party
  obtain ⟨memory, hinit⟩ := h
  obtain ⟨-, hconnections, hlist⟩ := (nimbleServerInit_ensures memory).of_ok hinit
  constructor
  · refine ⟨_, hlist, ?_, fun c _ => (hconnections c).2.2⟩
    -- The source starts to fill the list at 1.
    exact (List.nodup_finRange _).sublist (List.drop_sublist 1 _)
  · rintro p t ⟨hused, -⟩
    rw [hparty p] at hused
    cases hused

/-- At the start no slot is used. -/
theorem Started.usedIds {s : Server E S} (h : Started s) : UsedIds s := by
  obtain ⟨memory, hinit⟩ := h
  intro c hc
  have hconnections := ((nimbleServerInit_ensures memory).of_ok hinit).2.1
  cases hc.symm.trans (hconnections c).2.2

/-- Used slots have their number in every state of such a run, -/
theorem usedIds_reachable {start s : Server E S} (hstart : Started start)
    (hrun : Reaches Server.step FreeListKept start s) : UsedIds s := by
  refine usedIds_rule.bindingKeeps.reachable hstart.usedIds (hrun.mono ?_)
  rintro s op hop t rfl
  exact hop

/-- and the list is in order. -/
theorem freeListSound_reachable {start s : Server E S} (hstart : Started start)
    (hrun : Reaches Server.step FreeListKept start s) : FreeListSound s :=
  freeListSound_keeps.reachable hstart.freeListSound
    (hrun.restrict UsedIds fun _ hrun => usedIds_reachable hstart hrun)

/-- The free list is in order on every run in which datagrams come on used slots or on slots
that are not on the list, and in which no two parties have the same connection when they are
ticked: no slot is on it twice, every slot on it is unused, and no such operation writes to
it when it is full or takes a used slot from it. -/
theorem freeTransportConnectionList_sound {start s : Server E S} (hstart : Started start)
    (hrun : Reaches Server.step FreeListKept start s) :
    s.freeTransportConnectionList.toList.Nodup ∧
      (∀ octet ∈ s.freeTransportConnectionList.toList,
        ∃ c : ConnectionPtr, octet = UInt8.ofNat c.val ∧ (s.connection c).isUsed = false) ∧
      ∀ op fault, FreeListKept s op → s.step op = .error fault →
        fault ≠ .circularBufferOverwrite .transportConnections ∧
          fault ≠ .transportConnectionUsed := by
  have hsound := freeListSound_reachable hstart hrun
  have hids := usedIds_reachable hstart hrun
  obtain ⟨free, hlist, hfree⟩ := hsound.free
  refine ⟨?_, ?_, ?_⟩
  · rw [hlist]
    exact hfree.nodup.map fun _ _ => connectionOctet_injective
  · intro octet hoctet
    rw [hlist] at hoctet
    obtain ⟨c, hc, rfl⟩ := List.mem_map.mp hoctet
    exact ⟨c, rfl, hfree.unused c hc⟩
  · intro op fault hop hfault
    exact (freeListSound_keeps.step hsound ⟨hop, hids⟩).of_error hfault

/-- A client on index 0 connects and joins. -/
theorem freeTransportConnectionList_sound_connect :
    ∃ start s : Server plainExternal (plainSetup 2), Started start ∧
      Reaches Server.step FreeListKept start s ∧
      s.freeTransportConnectionList.count = 62 ∧
      s.freeTransportConnectionList.toList.Nodup := by
  obtain ⟨start, s, hstart, hrun, hcount⟩ :=
    exists_run Server.step FreeListKept (fun s => s.freeTransportConnectionList.count = 62)
      (nimbleServerInit (zeroMemory (plainSetup 2)) : Result (Server plainExternal _))
      [.reInitWithGame 0, .receive 0, .connect 0 (plainConnect 1),
        .join 0 onePlayer (zeroLocals _), .tick]
      (by decide +kernel)
  exact ⟨start, s, ⟨_, hstart⟩, hrun, hcount,
    (freeTransportConnectionList_sound ⟨_, hstart⟩ hrun).1⟩

/-- The first datagram on index 1 leaves a used slot on the free list, and the connect request
in it stops at that slot. -/
theorem freeList_used_slot :
    ∃ start s : Server plainExternal (plainSetup 2), Started start ∧
      Reaches Server.step (fun s op => s.Enabled op) start s ∧ s.Serving 1 ∧
      UInt8.ofNat (1 : ConnectionPtr).val ∈ s.freeTransportConnectionList.toList ∧
      acceptConnectRequest s 1 (plainConnect 1) = .error .transportConnectionUsed := by
  obtain ⟨start, s, hstart, hrun, hserving, hmem, hfront, hrefused⟩ :=
    exists_run Server.step (fun s op => s.Enabled op)
      (fun s => s.Serving 1 ∧
        UInt8.ofNat (1 : ConnectionPtr).val ∈ s.freeTransportConnectionList.toList ∧
        s.freeTransportConnectionList.front = 1 ∧
        (acceptConnectRequest s 1 (plainConnect 1)).toBool = false)
      (nimbleServerInit (zeroMemory (plainSetup 2)) : Result (Server plainExternal _))
      [.receive 1]
      (by decide +kernel)
  refine ⟨start, s, ⟨_, hstart⟩, hrun, hserving, hmem, ?_⟩
  cases haccept : acceptConnectRequest s 1 (plainConnect 1) with
  | ok r =>
    rw [haccept] at hrefused
    cases hrefused
  | error fault =>
    cases (acceptConnectRequest_ensures s 1 (plainConnect 1)).of_error haccept with
    | used c hempty hfront' hused => rfl
    | outOfBounds hempty hlarge =>
      rw [hfront] at hlarge
      exact absurd hlarge (by decide)

/-! ### The slot of a client -/

/-- A used slot was initialised and carries its own index. -/
def IsOwnSlot (c : ConnectionPtr) (x : TransportConnection E S) : Prop :=
  x.isUsed = true → x.isInitialized = true ∧ x.transportIndex = UInt8.ofNat c.val

/-- A connect request takes no slot, and the transport layer reports only connections whose
slot is used. -/
@[reducible] def OwnSlotOnly (s : Server E S) : Op S → Prop
  | .connect t request => S.applicationVersion ≠ request.applicationVersion ∨
      findExistingConnectionRequest s (UInt8.ofNat t.val) request.clientRequestId ≠ none ∨
      s.freeTransportConnectionList.isEmpty = true
  | .connectionConnected t => (s.connection t).isUsed = true
  | _ => True

/-- The condition can be evaluated for each operation. -/
instance (s : Server E S) (op : Op S) : Decidable (OwnSlotOnly s op) :=
  Op.decidableOf (OwnSlotOnly s) op

/-- A slot that is taken into use by a datagram carries its own index, and connect requests are
excluded. -/
theorem isOwnSlot_rule : ConnectionRule (OwnSlotOnly (E := E) (S := S)) IsOwnSlot where
  sameSlot := by
    intro c x x' h hx hused
    obtain ⟨hinit, hindex⟩ := h (hx.isUsed.symm.trans hused)
    exact ⟨hx.isInitialized.trans hinit, hx.transportIndex.trans hindex⟩
  assigned := fun _ _ _ h => h
  released := fun _ _ _ hused => by cases hused
  receive := fun _ _ _ _ _ hx _ => ⟨hx.isInitialized, hx.transportIndex⟩
  connect := by
    -- To take a slot a request needs the version, a new key and a slot on the list.
    rintro s t request c x' (hallowed | hallowed | hallowed) hversion hfind hempty - -
    · exact absurd hversion hallowed
    · exact absurd hfind hallowed
    · cases hallowed.symm.trans hempty
  connected := fun _ _ hallowed hused _ => by cases hallowed.symm.trans hused

/-- On every run in which connect requests take no slot and the transport layer reports only
connections whose slot is used, every used slot was initialised and carries its own index. A
datagram then always finds its own index in its slot, whatever came on other indices. -/
theorem connections_isolated {start s : Server E S} (hstart : Started start)
    (hrun : Reaches Server.step OwnSlotOnly start s) :
    (∀ c, (s.connection c).isUsed = true → (s.connection c).isInitialized = true ∧
        (s.connection c).transportIndex = UInt8.ofNat c.val) ∧
      ∀ t, ((receiveOnConnection s t).connection t).transportIndex = UInt8.ofNat t.val := by
  have hstarted : ∀ c, IsOwnSlot c (start.connection c) := by
    obtain ⟨memory, hinit⟩ := hstart
    intro c hc
    have hconnections := ((nimbleServerInit_ensures memory).of_ok hinit).2.1
    cases hc.symm.trans (hconnections c).2.2
  have hown : ∀ c, IsOwnSlot c (s.connection c) :=
    isOwnSlot_rule.bindingKeeps.reachable hstarted hrun
  refine ⟨hown, ?_⟩
  intro t
  unfold receiveOnConnection
  split
  · rename_i hused
    exact (hown t hused).2
  · rw [Server.connection_setConnection, if_pos rfl]
    rfl

/-- Two clients on their own indices. -/
theorem connections_isolated_twoClients :
    ∃ start s : Server plainExternal (plainSetup 2), Started start ∧
      Reaches Server.step OwnSlotOnly start s ∧
      (s.connection 0).transportIndex = 0 ∧ (s.connection 1).transportIndex = 1 := by
  obtain ⟨start, s, hstart, hrun, h0, h1⟩ :=
    exists_run Server.step OwnSlotOnly
      (fun s => (s.connection 0).isUsed = true ∧ (s.connection 1).isUsed = true)
      (nimbleServerInit (zeroMemory (plainSetup 2)) : Result (Server plainExternal _))
      [.reInitWithGame 0, .receive 0, .join 0 onePlayer (zeroLocals _), .receive 1,
        .join 1 onePlayer (zeroLocals _), .tick]
      (by decide +kernel)
  have hown := (connections_isolated ⟨_, hstart⟩ hrun).1
  exact ⟨start, s, ⟨_, hstart⟩, hrun, (hown 0 h0).2, (hown 1 h1).2⟩

/-- A client on index 0 connects. Slot 1 is now in use with index 0, and the next datagram on
index 1 is refused. -/
theorem connection_wrong_transportIndex :
    ∃ start s : Server plainExternal (plainSetup 2), Started start ∧
      Reaches Server.step (fun s op => s.Enabled op) start s ∧
      (s.connection 1).isUsed = true ∧ (s.connection 1).transportIndex = 0 ∧
      ((receiveOnConnection s 1).connection 1).transportIndex ≠ 1 := by
  obtain ⟨start, s, hstart, hrun, hs⟩ :=
    exists_run Server.step (fun s op => s.Enabled op)
      (fun s => (s.connection 1).isUsed = true ∧ (s.connection 1).transportIndex = 0 ∧
        ((receiveOnConnection s 1).connection 1).transportIndex ≠ 1)
      (nimbleServerInit (zeroMemory (plainSetup 2)) : Result (Server plainExternal _))
      [.receive 0, .connect 0 (plainConnect 1)]
      (by decide +kernel)
  exact ⟨start, s, ⟨_, hstart⟩, hrun, hs⟩

end NimbleServer
