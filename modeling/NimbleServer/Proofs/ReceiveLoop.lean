import NimbleServer.Model.Update
import NimbleServer.Model.PlainServer
import NimbleServer.Proofs.Feed

/-!
# `NimbleServer.Proofs.ReceiveLoop`: which received datagrams are fed

An update ticks the parties and then feeds up to 64 datagrams of the transport's queue, which
may come from any clients in any order. `feedInOrder` is the loop without its exits: every
datagram is fed, whatever the result of the one before.

The loop of the source returns on the first negative result, also when the error is an
external one, which a client causes. It returns on a datagram without octets too, because it
reads the octet count 0 as the end of the queue. `readFromMultiTransport_feeds_iff` says that
these are the only ways in which a datagram at the front of the queue is left for a later
update. `bad_datagram_stops_reading` is a reachable case: a client that has not joined sends a
step, and the request of another client behind it is not handled.

`nimbleServerUpdate_reaches` says that an update is a run of operations, so what holds along
every run holds from one update to the next.
-/

set_option autoImplicit false

namespace NimbleServer

open NimbleServer.Lib

variable {E : External} {S : Setup}

/-! ### An update is a run -/

/-- One datagram of the queue is a run. -/
theorem feedReceived_reaches (s : Server E S) (received : ReceivedDatagram E S) :
    Ensures (feedReceived s received) (fun r => DatagramRun s r.2) (fun _ => True) :=
  (nimbleServerFeed_reaches s _ received.octets received.environment).bind fun _ hr => hr

/-- Induction on the rounds that remain. -/
theorem readDatagrams_reaches (rounds : Nat) :
    ∀ (queue : List (Received E S)) (s : Server E S),
      Ensures (readDatagrams rounds queue s) (fun r => DatagramRun s r.2.2.2)
        (fun _ => True) := by
  induction rounds with
  | zero => exact fun queue s => .refl
  | succ rounds ih =>
    intro queue s
    cases queue with
    | nil => exact .refl
    | cons received queue =>
      cases received with
      | failure code negative => exact .refl
      | datagram received =>
        simp only [readDatagrams]
        -- An empty datagram ends the loop before anything is fed.
        split
        · exact .refl
        · refine (feedReceived_reaches s received).bind fun fed hfed => ?_
          split
          · exact hfed
          · exact (ih queue fed.2).bind fun r hr => hfed.trans hr

/-- A run of an update: ticks and the operations of datagrams. -/
theorem nimbleServerUpdate_reaches (s : Server E S) (qualityError : Int)
    (queue : List (Received E S)) :
    Ensures (nimbleServerUpdate s qualityError queue)
      (fun r => Reaches Server.step
        (fun s op => (op = .tick ∨ op.IsDatagram) ∧ s.Enabled op) s r.2.2.2)
      (fun _ => True) := by
  unfold nimbleServerUpdate
  split
  · exact .refl
  · cases htick : tickParties s with
    | error fault => trivial
    | ok ticked =>
      have hticked : Reaches Server.step
          (fun s op => (op = .tick ∨ op.IsDatagram) ∧ s.Enabled op) s ticked :=
        .single (l := .tick) ⟨.inl rfl, trivial⟩ htick
      exact (readDatagrams_reaches _ queue ticked).bind fun r hr =>
        hticked.trans (hr.mono fun _ _ h => ⟨.inr h.1, h.2⟩)

/-! ### The loop without its exits -/

/-- Every datagram is fed, whatever the results are. -/
def feedInOrder : List (ReceivedDatagram E S) → Server E S →
    Result (List (FedDatagram E S) × Server E S)
  | [], s => pure ([], s)
  | received :: queue, s => do
    let (fed, s) ← feedReceived s received
    let result ← feedInOrder queue s
    return (fed :: result.1, result.2)

/-- The datagrams of the calls of `nimbleServerFeed`, in order. -/
def fedDatagrams (feds : List (FedDatagram E S)) : List (ReceivedDatagram E S) :=
  feds.map FedDatagram.datagram

/-- The call is recorded with its datagram. -/
theorem datagram_of_feedReceived {s s' : Server E S} {received : ReceivedDatagram E S}
    {fed : FedDatagram E S} (h : feedReceived s received = .ok (fed, s')) :
    fed.datagram = received := by
  obtain ⟨r, -, hr⟩ := bind_eq_ok.mp h
  cases hr
  rfl

/-- The first datagram, and then the others. -/
theorem feedInOrder_cons {s s1 : Server E S} {received : ReceivedDatagram E S}
    {fed : FedDatagram E S} (h : feedReceived s received = .ok (fed, s1))
    (queue : List (ReceivedDatagram E S)) :
    feedInOrder (received :: queue) s
      = (feedInOrder queue s1).map fun result => (fed :: result.1, result.2) := by
  simp only [feedInOrder, h]
  rfl

/-- Every datagram is fed once. Induction on the queue. -/
theorem fedDatagrams_feedInOrder {queue : List (ReceivedDatagram E S)} :
    ∀ {s s' : Server E S} {feds : List (FedDatagram E S)},
      feedInOrder queue s = .ok (feds, s') → fedDatagrams feds = queue := by
  induction queue with
  | nil =>
    intro s s' feds h
    cases h
    rfl
  | cons received queue ih =>
    intro s s' feds h
    obtain ⟨⟨fed, s1⟩, hfed, hrest⟩ := bind_eq_ok.mp h
    obtain ⟨⟨feds', s2⟩, hfeds, heq⟩ := bind_eq_ok.mp hrest
    cases heq
    exact List.cons_eq_cons.mpr ⟨datagram_of_feedReceived hfed, ih hfeds⟩

/-- One round of the loop, with a datagram that has octets. -/
theorem readDatagrams_cons {s s1 : Server E S} {received : ReceivedDatagram E S}
    {fed : FedDatagram E S} (hoctets : received.octets ≠ [])
    (h : feedReceived s received = .ok (fed, s1)) (rounds : Nat) (queue : List (Received E S)) :
    readDatagrams (rounds + 1) (.datagram received :: queue) s
      = if fed.errorCode < 0 then .ok (fed.errorCode, [fed], queue, s1)
        else (readDatagrams rounds queue s1).map
          fun r => (r.1, fed :: r.2.1, r.2.2.1, r.2.2.2) := by
  simp only [readDatagrams, if_neg (mt List.length_eq_zero_iff.mp hoctets), h]
  rfl

/-- Nothing before the last datagram stops the loop. -/
structure NothingStops (queue : List (ReceivedDatagram E S)) (feds : List (FedDatagram E S)) :
    Prop where
  octets : ∀ received ∈ queue, received.octets ≠ []
  errorCode : ∀ fed ∈ feds.dropLast, 0 ≤ fed.errorCode

namespace NothingStops

variable {received : ReceivedDatagram E S} {queue : List (ReceivedDatagram E S)}
  {fed : FedDatagram E S} {feds : List (FedDatagram E S)}

/-- A datagram with an error is the last one. -/
theorem eq_nil_of_error (h : NothingStops (received :: queue) (fed :: feds))
    (herror : fed.errorCode < 0) : feds = [] := by
  by_contra hne
  have := h.errorCode fed (List.dropLast_cons_of_ne_nil hne ▸ List.mem_cons_self)
  omega

/-- The rest of the queue. -/
theorem tail (h : NothingStops (received :: queue) (fed :: feds)) : NothingStops queue feds := by
  refine ⟨fun other hmem => h.octets other (List.mem_cons_of_mem received hmem),
    fun other hmem => h.errorCode other ?_⟩
  -- `dropLast` of the longer list has the first result only if there are others.
  have hne : feds ≠ [] := by
    rintro rfl
    cases hmem
  rw [List.dropLast_cons_of_ne_nil hne]
  exact List.mem_cons_of_mem fed hmem

/-- One more datagram at the front. -/
theorem cons (h : NothingStops queue feds) (hoctets : received.octets ≠ [])
    (herror : feds ≠ [] → 0 ≤ fed.errorCode) : NothingStops (received :: queue) (fed :: feds) := by
  refine ⟨List.forall_mem_cons.mpr ⟨hoctets, h.octets⟩, ?_⟩
  by_cases hne : feds = []
  · rw [hne]
    rintro other ⟨⟩
  · rw [List.dropLast_cons_of_ne_nil hne]
    exact List.forall_mem_cons.mpr ⟨herror hne, h.errorCode⟩

end NothingStops

/-- The loop feeds what it should when nothing stops it, with the same results. Induction on
the queue. -/
theorem readDatagrams_of_feedInOrder (queue : List (ReceivedDatagram E S)) :
    ∀ (rounds : Nat) {s s' : Server E S} {feds : List (FedDatagram E S)},
      feedInOrder (queue.take rounds) s = .ok (feds, s') →
      NothingStops (queue.take rounds) feds →
      ∃ result, readDatagrams rounds (queue.map .datagram) s
        = .ok (result, feds, (queue.drop rounds).map .datagram, s') := by
  induction queue with
  | nil =>
    intro rounds s s' feds h _
    rw [List.take_nil] at h
    cases h
    cases rounds with
    | zero => exact ⟨0, rfl⟩
    | succ rounds => exact ⟨0, rfl⟩
  | cons received queue ih =>
    intro rounds s s' feds h hnothing
    cases rounds with
    | zero =>
      cases h
      exact ⟨0, rfl⟩
    | succ rounds =>
      rw [List.take_succ_cons] at h hnothing
      obtain ⟨⟨fed, s1⟩, hfed, hrest⟩ := bind_eq_ok.mp h
      obtain ⟨⟨feds', s2⟩, hfeds, heq⟩ := bind_eq_ok.mp hrest
      cases heq
      rw [List.map_cons, readDatagrams_cons (hnothing.octets received List.mem_cons_self) hfed]
      split
      · rename_i herror
        -- An error can only be the last result, so there was nothing more to feed.
        obtain rfl := hnothing.eq_nil_of_error herror
        have hend : queue.take rounds = [] := (fedDatagrams_feedInOrder hfeds).symm
        rw [hend] at hfeds
        cases hfeds
        refine ⟨fed.errorCode, ?_⟩
        rcases List.take_eq_nil_iff.mp hend with rfl | rfl
        · rfl
        · rw [List.drop_succ_cons, List.drop_nil]
      · obtain ⟨result, hread⟩ := ih rounds hfeds hnothing.tail
        rw [hread]
        exact ⟨result, rfl⟩

/-- A call that feeds the front of the queue was not stopped. Induction on the queue. -/
theorem feedInOrder_of_readDatagrams (queue : List (ReceivedDatagram E S)) :
    ∀ (rounds : Nat) {s s' : Server E S} {result : Int} {feds : List (FedDatagram E S)}
      {rest : List (Received E S)},
      readDatagrams rounds (queue.map .datagram) s = .ok (result, feds, rest, s') →
      fedDatagrams feds = queue.take rounds →
      feedInOrder (queue.take rounds) s = .ok (feds, s') ∧
        NothingStops (queue.take rounds) feds := by
  induction queue with
  | nil =>
    intro rounds s s' result feds rest h hfed
    rw [List.take_nil] at hfed ⊢
    obtain rfl := List.map_eq_nil_iff.mp hfed
    cases rounds with
    | zero =>
      cases h
      exact ⟨rfl, by rintro _ ⟨⟩, by rintro _ ⟨⟩⟩
    | succ rounds =>
      cases h
      exact ⟨rfl, by rintro _ ⟨⟩, by rintro _ ⟨⟩⟩
  | cons received queue ih =>
    intro rounds s s' result feds rest h hfed
    cases rounds with
    | zero =>
      cases h
      exact ⟨rfl, by rintro _ ⟨⟩, by rintro _ ⟨⟩⟩
    | succ rounds =>
      rw [List.take_succ_cons] at hfed ⊢
      rw [List.map_cons] at h
      -- An empty datagram is not fed, but the front of the queue should be.
      by_cases hoctets : received.octets = []
      · simp only [readDatagrams, hoctets, List.length_nil, if_pos] at h
        cases h
        cases hfed
      cases hreceived : feedReceived s received with
      | error fault =>
        simp only [readDatagrams, if_neg (mt List.length_eq_zero_iff.mp hoctets),
          hreceived] at h
        cases h
      | ok r =>
        obtain ⟨fed, s1⟩ := r
        rw [readDatagrams_cons hoctets hreceived] at h
        rw [feedInOrder_cons hreceived]
        -- The loop ended with this error, so nothing more was to be fed.
        split at h
        · cases h
          have hend : queue.take rounds = [] := (List.cons_eq_cons.mp hfed).2.symm
          rw [hend]
          exact ⟨rfl, NothingStops.cons ⟨by rintro _ ⟨⟩, by rintro _ ⟨⟩⟩ hoctets
            fun hne => absurd rfl hne⟩
        · rename_i herror
          obtain ⟨⟨result', feds', rest', s2⟩, hread, heq⟩ := map_eq_ok.mp h
          cases heq
          obtain ⟨hfeds, hnothing⟩ := ih rounds hread (List.cons_eq_cons.mp hfed).2
          rw [hfeds]
          exact ⟨rfl, hnothing.cons hoctets fun _ => not_lt.mp herror⟩

/-- One call of `nimbleServerReadFromMultiTransport` feeds the first 64 datagrams of the queue,
or all of them when there are fewer, exactly when feeding them one after the other never stops
the server, none of them is empty and none but the last gives a negative result. -/
theorem readFromMultiTransport_feeds_iff (s : Server E S)
    (queue : List (ReceivedDatagram E S)) :
    (∃ result feds rest s',
      nimbleServerReadFromMultiTransport s (queue.map .datagram) = .ok (result, feds, rest, s') ∧
      fedDatagrams feds = queue.take 64) ↔
    ∃ feds s', feedInOrder (queue.take 64) s = .ok (feds, s') ∧
      NothingStops (queue.take 64) feds := by
  constructor
  · rintro ⟨result, feds, rest, s', hread, hfed⟩
    exact ⟨feds, s', feedInOrder_of_readDatagrams queue 64 hread hfed⟩
  · rintro ⟨feds, s', hfeds, hnothing⟩
    obtain ⟨result, hread⟩ := readDatagrams_of_feedInOrder queue 64 hfeds hnothing
    exact ⟨result, feds, _, s', hread, fedDatagrams_feedInOrder hfeds⟩

/-- A step of the first client, which has not joined, and a join of the second client. -/
def stepBeforeJoin : List (ReceivedDatagram plainExternal (plainSetup 2)) :=
  [{ connectionId := 0
     octets := datagram (2 :: gameStep 0 [[7]])
     environment := plainEnvironment (zeroLocals _)
     fits := by decide },
   { connectionId := 1
     octets := datagram (3 :: joinOctets 0 0 1)
     environment := plainEnvironment (zeroLocals _)
     fits := by decide }]

/-- Two datagrams are in the queue of a new game. The first gives an external error and the
second stays in the queue. The next call feeds it, and it is answered. -/
theorem bad_datagram_stops_reading :
    ∃ start : Server plainExternal (plainSetup 2), StartsGame start ∧
      ∃ result feds rest s',
        nimbleServerReadFromMultiTransport start (stepBeforeJoin.map .datagram)
          = .ok (result, feds, rest, s') ∧
        nimbleServerIsErrorExternal result = true ∧ feds.length = 1 ∧ rest.length = 1 ∧
        ∃ feds' s'', nimbleServerReadFromMultiTransport s' rest = .ok (0, feds', [], s'') ∧
          feds'.map (fun fed => (fed.errorCode, fed.sent.length)) = [(0, 1)] := by
  have hrun : ((plainGame 2).toOption.any fun start =>
      (nimbleServerReadFromMultiTransport start (stepBeforeJoin.map .datagram)).toOption.any
        fun r => (nimbleServerIsErrorExternal r.1 && r.2.1.length == 1 && r.2.2.1.length == 1) &&
          (nimbleServerReadFromMultiTransport r.2.2.2 r.2.2.1).toOption.any fun r' =>
            r'.1 == 0 && r'.2.2.1.isEmpty &&
              r'.2.1.map (fun fed => (fed.errorCode, fed.sent.length)) == [(0, 1)]) = true := by
    decide +kernel
  obtain ⟨start, hstart, hrun⟩ := exists_ok_of_any hrun
  obtain ⟨⟨result, feds, rest, s'⟩, hread, hrun⟩ := exists_ok_of_any hrun
  rw [Bool.and_eq_true] at hrun
  obtain ⟨⟨result', feds', rest', s''⟩, hnext, hanswered⟩ := exists_ok_of_any hrun.2
  simp only [Bool.and_eq_true, beq_iff_eq, List.isEmpty_iff] at hrun hanswered
  obtain ⟨⟨⟨hexternal, hfed⟩, hrest⟩, -⟩ := hrun
  obtain ⟨⟨rfl, rfl⟩, hsent⟩ := hanswered
  exact ⟨start, startsGame_of_blankGame hstart, result, feds, rest, s', hread, hexternal, hfed,
    hrest, feds', s'', hnext, hsent⟩

end NimbleServer
