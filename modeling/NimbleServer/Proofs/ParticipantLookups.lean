import NimbleServer.Proofs.BackReferences

/-!
# `NimbleServer.Proofs.ParticipantLookups`: three ways to find a participant

The library offers three lookups by participant id. `nimbleServerParticipantsFind` takes the
id as an index into the pool and checks nothing else, so it also finds slots that nobody uses.
`nimbleParticipantReferencesFind` and `nimbleServerLocalPartyHasParticipantId` walk through
the references of one party and compare ids. Nothing in the library calls them, and an
application that does can mix them up only if they agree.

They do (`participant_lookups_agree`), up to what is said about the slot: the party finds the
id exactly when the slot in the pool is used, is not leaving and points at the party. A
leaving participant is still in the pool, and no party finds it. The proof needs that ids are
slot numbers, which the pool keeps, and that a participant which is not leaving has a party
(`BackReferences`).
-/

set_option autoImplicit false

namespace NimbleServer

open NimbleServer.Lib

variable {E : External} {S : Setup}

/-- The lookup in the pool is the conversion of an id to a slot. -/
theorem participantsFind_iff {participantId : UInt8} {i : ParticipantPtr S} :
    nimbleServerParticipantsFind S participantId = some i ↔ participantId.toNat = i.val := by
  unfold nimbleServerParticipantsFind
  split
  · rw [Option.some.injEq, Fin.ext_iff]
  · rename_i hrange
    constructor
    · rintro ⟨⟩
    · intro hval
      exact absurd (hval ▸ i.isLt) hrange

namespace BackReferences

variable {s : Server E S}

/-- The id of a participant that a party references is the number of its slot. -/
theorem id_eq_iff (h : BackReferences s) {p : PartyPtr S} {i : ParticipantPtr S}
    (hi : i ∈ (s.party p).participantReferences) {participantId : UInt8} :
    (s.participant i).id = participantId ↔ participantId.toNat = i.val := by
  have hpool := h.references.pool
  have hused := ((h.references.parties p (h.isUsed hi)).member i hi).1
  have hid : (s.participant i).id = slotOctet i := hpool.id i hused
  rw [hid]
  constructor
  · intro heq
    rw [← heq]
    exact slotOctet_toNat hpool.capacity i
  · intro hval
    refine UInt8.toNat_inj.mp ?_
    rw [slotOctet_toNat hpool.capacity i, hval]

/-- A slot of the pool is one of the party's when it points at it and is not leaving. -/
theorem mem_references_iff (h : BackReferences s) (p : PartyPtr S) (i : ParticipantPtr S) :
    i ∈ (s.party p).participantReferences ↔
      (s.participant i).isUsed = true ∧ (s.participant i).state ≠ .leaving ∧
        (s.participant i).inParty = some p := by
  constructor
  · intro hi
    obtain ⟨hused, hin, hstate, -⟩ := (h.references.parties p (h.isUsed hi)).member i hi
    exact ⟨hused, hstate, hin⟩
  · rintro ⟨hused, hstate, hin⟩
    -- Some party references it, and a participant points at the party that references it.
    obtain ⟨q, hq, hmem⟩ := h.owner i hused hstate
    have hq' := ((h.references.parties q hq).member i hmem).2.1
    obtain rfl : q = p := Option.some.inj (hq'.symm.trans hin)
    exact hmem

/-- The lookup in a party finds what the pool finds, if the party references it. -/
theorem referencesFind_iff (h : BackReferences s) (p : PartyPtr S) (participantId : UInt8)
    (i : ParticipantPtr S) :
    nimbleParticipantReferencesFind s (s.party p).participantReferences participantId = some i ↔
      nimbleServerParticipantsFind S participantId = some i ∧
        i ∈ (s.party p).participantReferences := by
  unfold nimbleParticipantReferencesFind
  constructor
  · intro hfind
    have hmem := List.mem_of_find?_eq_some hfind
    have hfound := List.find?_some hfind
    have hid : (s.participant i).id = participantId := beq_iff_eq.mp hfound
    exact ⟨participantsFind_iff.mpr ((h.id_eq_iff hmem).mp hid), hmem⟩
  · rintro ⟨hfind, hmem⟩
    have hval := participantsFind_iff.mp hfind
    cases hfirst : (s.party p).participantReferences.find?
        fun j => (s.participant j).id == participantId with
    | none =>
      have hne := List.find?_eq_none.mp hfirst i hmem
      exact absurd (beq_iff_eq.mpr ((h.id_eq_iff hmem).mpr hval)) hne
    | some j =>
      -- The first one with the id is the only one: the id is the number of its slot.
      have hmem' := List.mem_of_find?_eq_some hfirst
      have hfound := List.find?_some hfirst
      have hval' := (h.id_eq_iff hmem').mp (beq_iff_eq.mp hfound)
      rw [Fin.ext (hval'.symm.trans hval)]

end BackReferences

/-- The two functions about a party walk through the same list. -/
theorem hasParticipantId_iff (s : Server E S) (p : PartyPtr S) (participantId : UInt8) :
    nimbleServerLocalPartyHasParticipantId s (s.party p) participantId = true ↔
      ∃ i, nimbleParticipantReferencesFind s (s.party p).participantReferences participantId
        = some i := by
  unfold nimbleServerLocalPartyHasParticipantId nimbleParticipantReferencesFind
  rw [← List.isSome_find?, Option.isSome_iff_exists]

/-- In every state of a running game and for every id: a party finds a participant exactly
when the pool finds it, it is used, it is not leaving and it points at the party. The party
has the id exactly when it finds it. No two parties have the same id, and a participant that
is not leaving is found by the party it points at. -/
theorem participant_lookups_agree {start s : Server E S} (hstart : StartsGame start)
    (hrun : Reaches Server.step (fun _ op => op.IsPlay) start s) (participantId : UInt8) :
    (∀ p i, nimbleParticipantReferencesFind s (s.party p).participantReferences participantId
        = some i ↔
      nimbleServerParticipantsFind S participantId = some i ∧
        (s.participant i).isUsed = true ∧ (s.participant i).state ≠ .leaving ∧
        (s.participant i).inParty = some p) ∧
    (∀ p, nimbleServerLocalPartyHasParticipantId s (s.party p) participantId = true ↔
      ∃ i, nimbleParticipantReferencesFind s (s.party p).participantReferences participantId
        = some i) ∧
    (∀ p q, nimbleServerLocalPartyHasParticipantId s (s.party p) participantId = true →
      nimbleServerLocalPartyHasParticipantId s (s.party q) participantId = true → p = q) ∧
    (∀ i, nimbleServerParticipantsFind S participantId = some i →
      (s.participant i).isUsed = true → (s.participant i).state ≠ .leaving →
      ∃ p, nimbleServerLocalPartyHasParticipantId s (s.party p) participantId = true) := by
  have h : BackReferences s := backReferences_reachable hstart hrun
  have hfind : ∀ p i, nimbleParticipantReferencesFind s (s.party p).participantReferences
      participantId = some i ↔ nimbleServerParticipantsFind S participantId = some i ∧
        (s.participant i).isUsed = true ∧ (s.participant i).state ≠ .leaving ∧
        (s.participant i).inParty = some p := by
    intro p i
    rw [h.referencesFind_iff, h.mem_references_iff]
  refine ⟨hfind, fun p => hasParticipantId_iff s p participantId, ?_, ?_⟩
  · intro p q hp hq
    obtain ⟨i, hi⟩ := (hasParticipantId_iff s p participantId).mp hp
    obtain ⟨j, hj⟩ := (hasParticipantId_iff s q participantId).mp hq
    obtain ⟨hfound, -, -, hin⟩ := (hfind p i).mp hi
    obtain ⟨hfound', -, -, hin'⟩ := (hfind q j).mp hj
    -- Both parties found the same slot, and it points at one of them.
    obtain rfl : i = j := Option.some.inj (hfound.symm.trans hfound')
    exact Option.some.inj (hin.symm.trans hin')
  · intro i hfound hused hstate
    obtain ⟨p, hp⟩ := Option.ne_none_iff_exists'.mp (h.inParty i hused)
    exact ⟨p, (hasParticipantId_iff s p participantId).mpr
      ⟨i, (hfind p i).mpr ⟨hfound, hused, hstate, hp⟩⟩⟩

/-- The first client was lost and the second plays on: the pool finds both participants, and
one party finds the second. -/
theorem participant_lookups_agree_leaving :
    ∃ start s : Server plainExternal (plainSetup 2), StartsGame start ∧
      Reaches Server.step (fun _ op => op.IsPlay) start s ∧
      (nimbleServerParticipantsFind (plainSetup 2) 0).isSome = true ∧
      (∀ p, nimbleServerLocalPartyHasParticipantId s (s.party p) 0 = false) ∧
      ∃ p, nimbleServerLocalPartyHasParticipantId s (s.party p) 1 = true := by
  obtain ⟨start, s, hstart, hrun, hleaving, hused, hstate⟩ :=
    exists_run Server.step (fun _ op => op.IsPlay)
      (fun s : Server plainExternal (plainSetup 2) =>
        (s.participant ⟨0, by decide⟩).state = .leaving ∧
        (s.participant ⟨1, by decide⟩).isUsed = true ∧
        (s.participant ⟨1, by decide⟩).state ≠ .leaving)
      (plainGame 2) (firstClientLost 182) (by decide +kernel)
  have hgame := startsGame_of_blankGame hstart
  obtain ⟨hfirst, hhas, -, -⟩ := participant_lookups_agree hgame hrun 0
  obtain ⟨-, -, -, hsecond⟩ := participant_lookups_agree hgame hrun 1
  refine ⟨start, s, hgame, hrun, by decide, fun p => ?_,
    hsecond ⟨1, by decide⟩ (by decide) hused hstate⟩
  refine Bool.eq_false_iff.mpr fun hfound => ?_
  obtain ⟨i, hi⟩ := (hhas p).mp hfound
  obtain ⟨hslot, -, hnot, -⟩ := (hfirst p i).mp hi
  obtain rfl : i = ⟨0, by decide⟩ := (Option.some.inj hslot).symm
  exact hnot hleaving

end NimbleServer
