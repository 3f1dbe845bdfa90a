import NimbleServer.Model.PlainServer
import NimbleServer.Proofs.Outcomes

/-!
# `NimbleServer.Proofs.Disconnect`: what a lost transport connection does to the parties

The transport layer tells the server the index of a connection that is gone. The server looks
for the party of that connection, but it takes the index of the connection for the id of the
party. Parties are numbered by the first free slot and connections by the transport layer,
so the two agree only by chance. The party that is found is marked as not in use, and its
participants are left as they are.

`disconnect_handled_iff` says exactly when the call does what it is for, in any state:
the slot with the number of the connection exists, it holds the party of the connection or
nothing, and nobody in it is left behind.
-/

set_option autoImplicit false

namespace NimbleServer

open NimbleServer.Lib

variable {E : External} {S : Setup}

/-- The party is assigned to the connection and in use. -/
def PlaysIn (s : Server E S) (c : ConnectionPtr) (p : PartyPtr S) : Prop :=
  (s.connection c).assignedParty = some p ∧ (s.party p).isUsed = true

/-- The participant is leaving, or a party in use references it. -/
def Attended (s : Server E S) (i : ParticipantPtr S) : Prop :=
  (s.participant i).state = .leaving ∨
    ∃ q, (s.party q).isUsed = true ∧ i ∈ (s.party q).participantReferences

/-- The call does what it is for. A connection that plays in a party loses this party and no
other, and none of its used participants is left unattended. For a connection without a party
in use the call returns an error and changes no party. -/
structure DisconnectHandled (s : Server E S) (c : ConnectionPtr) (code : Int)
    (s' : Server E S) : Prop where
  own : ∀ p, PlaysIn s c p → (s'.party p).isUsed = false ∧
    (∀ q, q ≠ p → s'.party q = s.party q) ∧
    ∀ i ∈ (s.party p).participantReferences, (s'.participant i).isUsed = true → Attended s' i
  none : (∀ p, ¬PlaysIn s c p) → code < 0 ∧ ∀ q, s'.party q = s.party q

/-- The slot with the number of the connection is that of the connection's party, whose used
participants are attended to without it. A connection without a party in use finds that slot
not in use. -/
structure DisconnectFits (s : Server E S) (c : ConnectionPtr) : Prop where
  inRange : c.val < S.maxConnectionCount
  own : ∀ p, PlaysIn s c p → p.val = c.val ∧
    ∀ i ∈ (s.party p).participantReferences, (s.participant i).isUsed = true →
      (s.participant i).state = .leaving ∨
        ∃ q, q ≠ p ∧ (s.party q).isUsed = true ∧ i ∈ (s.party q).participantReferences
  none : (∀ p, ¬PlaysIn s c p) →
    ∀ p : PartyPtr S, p.val = c.val → (s.party p).isUsed = false

/-- The call returns and does what it is for exactly when the slot with the number of the
connection exists and is that of the connection's party, whose used participants are attended
to without it; or, for a connection without a party in use, is not in use. -/
theorem disconnect_handled_iff (s : Server E S) (c : ConnectionPtr) :
    (∃ code s', nimbleServerConnectionDisconnected s c = .ok (code, s') ∧
      DisconnectHandled s c code s') ↔ DisconnectFits s c := by
  rw [connectionDisconnected_eq]
  -- Without a slot of this number the call stops.
  by_cases hlt : c.val < S.maxConnectionCount
  case neg =>
    rw [dif_neg hlt]
    exact iff_of_false (by rintro ⟨code, s', ⟨⟩, -⟩) fun h => hlt h.inRange
  rw [dif_pos hlt]
  have hslot : ∀ p : PartyPtr S, p.val = c.val → p = ⟨c.val, hlt⟩ := fun p hp => Fin.ext hp
  by_cases hused : (s.party ⟨c.val, hlt⟩).isUsed = true
  · rw [if_pos hused]
    have hparty := party_dropParty s c ⟨c.val, hlt⟩
    constructor
    · rintro ⟨code, s', hcall, hhandled⟩
      cases hcall
      refine ⟨hlt, ?_, ?_⟩
      · intro p hp
        obtain ⟨hdropped, -, hattended⟩ := hhandled.own p hp
        -- Only the slot that was looked at is no longer in use.
        have hval : p.val = c.val := by
          refine Decidable.byContradiction fun hne => ?_
          rw [hparty, if_neg fun h => hne (congrArg Fin.val h).symm, hp.2] at hdropped
          cases hdropped
        refine ⟨hval, fun i hi hiused => (hattended i hi hiused).imp_right ?_⟩
        rintro ⟨q, hq, hiq⟩
        have hqp : ¬(⟨c.val, hlt⟩ : PartyPtr S) = q := by
          rintro rfl
          rw [hparty, if_pos rfl] at hq
          cases hq
        rw [hparty, if_neg hqp] at hq hiq
        exact ⟨q, fun h => hqp (hslot q (h ▸ hval)).symm, hq, hiq⟩
      · intro hnone
        -- A party was dropped and 0 was returned, which is no error.
        exact absurd (hhandled.none hnone).1 (by decide)
    · intro hfits
      refine ⟨0, _, rfl, ?_, fun hnone => ?_⟩
      · intro p hp
        obtain ⟨hval, hattended⟩ := hfits.own p hp
        obtain rfl := hslot p hval
        refine ⟨by rw [hparty, if_pos rfl], ?_, fun i hi hiused => ?_⟩
        · intro q hq
          rw [hparty, if_neg hq.symm]
        · -- Another party attends to the participant, and it is left alone.
          refine (hattended i hi hiused).imp_right ?_
          rintro ⟨q, hqp, hq, hiq⟩
          refine ⟨q, ?_⟩
          rw [hparty, if_neg hqp.symm]
          exact ⟨hq, hiq⟩
      · cases (hfits.none hnone _ rfl).symm.trans hused
  · rw [if_neg hused]
    constructor
    · rintro ⟨code, s', hcall, hhandled⟩
      cases hcall
      refine ⟨hlt, fun p hp => ?_, fun _ p hp => ?_⟩
      · -- The server is as before, so the party is still in use.
        cases hp.2.symm.trans (hhandled.own p hp).1
      · rw [hslot p hp]
        exact Bool.eq_false_iff.mpr hused
    · intro hfits
      refine ⟨-4, s, rfl, fun p hp => ?_, fun _ => ⟨by decide, fun _ => rfl⟩⟩
      obtain ⟨hval, -⟩ := hfits.own p hp
      rw [hslot p hval] at hp
      exact absurd hp.2 hused

/-- Connection 1 joins first and gets party 0, connection 0 joins second and gets party 1. Then
connection 1 is lost. Party 1 is no longer in use, and party 0 still is. -/
theorem disconnect_drops_party_of_stranger :
    ∃ start s : Server plainExternal (plainSetup 2), StartsGame start ∧
      Reaches Server.step (fun s op => s.Enabled op) start s ∧
      PlaysIn s 1 ⟨0, by decide⟩ ∧ PlaysIn s 0 ⟨1, by decide⟩ ∧
      ∃ s', nimbleServerConnectionDisconnected s 1 = .ok (0, s') ∧
        (s'.party ⟨0, by decide⟩).isUsed = true ∧
        (s'.party ⟨1, by decide⟩).isUsed = false ∧ ¬DisconnectHandled s 1 0 s' := by
  obtain ⟨start, s, hstart, hrun, hfirst, hfirstUsed, hsecond, hsecondUsed, hcall⟩ :=
    exists_run Server.step (fun s op => s.Enabled op)
      (fun s : Server plainExternal (plainSetup 2) =>
        (s.connection 1).assignedParty = some ⟨0, by decide⟩ ∧
        (s.party ⟨0, by decide⟩).isUsed = true ∧
        (s.connection 0).assignedParty = some ⟨1, by decide⟩ ∧
        (s.party ⟨1, by decide⟩).isUsed = true ∧
        (nimbleServerConnectionDisconnected s 1).map (fun r => (r.1,
          (r.2.party ⟨0, by decide⟩).isUsed, (r.2.party ⟨1, by decide⟩).isUsed))
          = .ok (0, true, false))
      (plainGame 2) [.receive 0, .receive 1, .join 1 onePlayer (zeroLocals _),
        .join 0 onePlayer (zeroLocals _)] (by decide +kernel)
  obtain ⟨⟨code, s'⟩, hs', hresult⟩ := map_eq_ok.mp hcall
  obtain ⟨rfl, hkept, hdropped⟩ : code = 0 ∧ (s'.party ⟨0, by decide⟩).isUsed = true ∧
      (s'.party ⟨1, by decide⟩).isUsed = false := by simpa using hresult
  refine ⟨start, s, startsGame_of_blankGame hstart, hrun, ⟨hfirst, hfirstUsed⟩,
    ⟨hsecond, hsecondUsed⟩, s', hs', hkept, hdropped, fun hhandled => ?_⟩
  cases (hhandled.own ⟨0, by decide⟩ ⟨hfirst, hfirstUsed⟩).1.symm.trans hkept

end NimbleServer
