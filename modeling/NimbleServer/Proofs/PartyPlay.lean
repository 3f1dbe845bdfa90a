import NimbleServer.Lib.Trace
import NimbleServer.Proofs.PartyTicks

/-!
# `NimbleServer.Proofs.PartyPlay`: what the datagrams of a game do to one party

Datagrams of any connection come between two ticks. For a party in use they count steps, and
only a join that is answered with the party does more (`step_sameButSteps`). All but storing
and composing leave it exactly as it was (`step_party_eq`).
-/

set_option autoImplicit false

namespace NimbleServer

open NimbleServer.Lib

variable {E : External} {S : Setup}

/-- The two differ at most in what is counted about steps. -/
def LocalParty.SameButSteps (x y : LocalParty S) : Prop :=
  y = { x with
    quality := y.quality
    highestReceivedStepId := y.highestReceivedStepId
    stepsInBufferCount := y.stepsInBufferCount }

namespace LocalParty.SameButSteps

variable {x y z : LocalParty S}

/-- Nothing was counted. -/
theorem refl (x : LocalParty S) : SameButSteps x x := rfl

/-- Counting twice. -/
theorem trans (h : SameButSteps x y) (h' : SameButSteps y z) : SameButSteps x z := by
  unfold SameButSteps at h h' ⊢
  rw [h', h]

end LocalParty.SameButSteps

/-- Storing and composing change only what is counted about a party. -/
theorem sameButSteps_composeKeeps (s : Server E S) :
    ComposeKeeps (fun s' : Server E S => ∀ p, (s.party p).SameButSteps (s'.party p))
      Fault.IsCompose where
  steps := fun _ _ _ h => h
  counters := by
    intro s' p quality highestReceivedStepId stepsInBufferCount h q
    rw [Server.party_setParty]
    split
    · rename_i hpq
      subst hpq
      exact (h p).trans rfl
    · exact h q
  log := fun _ _ h => h
  authoritativeSteps := fun _ _ h => h
  joined := fun _ _ h _ _ => h
  left := fun s' i h _ _ =>
    (nimbleServerParticipantsDestroy_fault s'.game.participants (s'.participant i).id).mono
      (fun _ _ => h) (fun _ hf => hf)
  nullParty := .inl rfl
  stepsCorrupt := .inr (.inl rfl)

/-- The operation is a join that is answered with the party. -/
def JoinsParty (s : Server E S) (p : PartyPtr S) : Op S → Prop
  | .join t request uninitialized =>
    ∃ s', joinGame s t request uninitialized = .ok (.ok p, s')
  | _ => False

/-- A join leaves the parties in use alone, but for the one it is answered with. -/
theorem JoinOutcome.party_of_isUsed {s : Server E S} {t : ConnectionPtr}
    {request : JoinGameRequest} {uninitialized : Uninitialized S}
    {r : Except Int (PartyPtr S) × Server E S} (h : JoinOutcome s t request uninitialized r)
    {p : PartyPtr S} (hused : (s.party p).isUsed = true) (hanswer : r.1 ≠ .ok p) :
    r.2.party p = s.party p := by
  -- A slot that is named or created was not in use.
  have hfree : ∀ q, firstFreeParty s = some q → q ≠ p := by
    rintro q hq rfl
    cases hused.symm.trans (firstFreeParty_isUsed hq)
  cases h with
  | noPlace => rfl
  | sessionFull code q hplace => exact (party_nameParty s q p).trans (if_neg (hfree q hplace))
  | found q hcount hmatch =>
    have hqp : q ≠ p := fun hqp => hanswer (hqp ▸ rfl)
    rw [party_assignParty, if_neg hqp]
  | unassigned q named htype hfind hnamed hcount hpointer =>
    have hqp : q ≠ p := fun hqp => hanswer (hqp ▸ rfl)
    rw [party_assignParty, if_neg hqp]
  | rejoined q htype hfind hnamed hcount =>
    have hqp : q ≠ p := fun hqp => hanswer (hqp ▸ rfl)
    rw [party_rejoined, if_neg hqp]
  | created q i participants htype hfind hplace hjoin =>
    rw [party_created, if_neg (hfree q hplace)]

/-- The ticks of a run, to be recorded beside its states. -/
def tickEvents (_ : Server E S) : Op S → List Unit
  | .tick => [()]
  | _ => []

/-- The operations that count steps. -/
def Op.CountsSteps : Op S → Prop
  | .incomingSteps _ _ _ | .composeRound => True
  | _ => False

/-- What is about connections does not touch the parties. -/
theorem step_isConnection_party (s : Server E S) {op : Op S} (hop : op.IsConnection)
    (p : PartyPtr S) :
    Ensures (s.step op) (fun s' => s'.party p = s.party p) (fun _ => True) :=
  (step_isConnection_ensures s hop).mono
    (fun _ hs' => congrArg (fun parties => parties.get p) hs'.2) fun _ _ => trivial

/-- The other parts of a datagram leave a party in use alone, unless it is a join that is
answered with the party. -/
theorem step_party_eq {s : Server E S} {op : Op S} {p : PartyPtr S} (hop : op.IsDatagram)
    (hcounts : ¬op.CountsSteps) (hused : (s.party p).isUsed = true) (hjoin : ¬JoinsParty s p op) :
    Ensures (s.step op) (fun s' => s'.party p = s.party p) (fun _ => True) := by
  cases op with
  | join t request uninitialized =>
    refine Ensures.map (((joinGame_ensures s t request uninitialized).and
      (.of_eq_ok fun _ h => h)).mono ?_ fun _ _ => trivial)
    rintro ⟨answer, s'⟩ ⟨houtcome, hgame⟩
    exact houtcome.party_of_isUsed hused fun h => hjoin ⟨s', h ▸ hgame⟩
  | incomingSteps _ _ _ | composeRound => exact absurd trivial hcounts
  | tick | reInitWithGame _ | hostMigration _ _ | connectionDisconnected _
  | connectionConnected _ => exact hop.elim
  | _ =>
    refine step_isConnection_party s ?_ p
    trivial

/-- A part of a datagram counts steps of a party in use, unless it is a join that is answered
with the party. -/
theorem step_sameButSteps {s : Server E S} {op : Op S} {p : PartyPtr S} (hop : op.IsDatagram)
    (hused : (s.party p).isUsed = true) (hjoin : ¬JoinsParty s p op) :
    Ensures (s.step op) (fun s' => (s.party p).SameButSteps (s'.party p)) (fun _ => True) := by
  -- All others leave the party as it was.
  have hother : ¬op.CountsSteps →
      Ensures (s.step op) (fun s' => (s.party p).SameButSteps (s'.party p)) (fun _ => True) :=
    fun hcounts => (step_party_eq hop hcounts hused hjoin).mono
      (fun s' hs' => hs' ▸ .refl _) fun _ h => h
  cases op with
  | incomingSteps t inStream uninitialized =>
    exact (sameButSteps_composeKeeps s).readIncomingSteps (fun _ => .refl _) t inStream
      uninitialized p
  | composeRound =>
    exact Ensures.map (((sameButSteps_composeKeeps s).composeRule.composeRound
      fun _ => .refl _).mono (fun _ h => h p) fun _ _ => trivial)
  | _ => exact hother fun h => h

end NimbleServer
