import Mathlib

/-!
# `NimbleServer.Lib.Lockstep`: games in lockstep

Players sit at places and hand in inputs ahead of time. A round takes one input from each
place, in the order in which they were handed in, and reports what it took. Who has no
input when the round comes is reported without one: nobody is waited for.

`Lockstep` is the state of such a game, `Move` is what can happen between two rounds, and
`Lockstep.Run` is a run with the reports of its rounds. Players come in groups. A group as a
whole becomes absent or leaves, and who leaves is reported once more and then gone.

A round is due (`Lockstep.Due`) when everybody has an input and somebody is `quorum` inputs
ahead, or when somebody is `lead` inputs ahead. `roundsDue` is how many rounds this gives
in a row if nothing else happens. It depends on two numbers only, the inputs of the place
that is furthest ahead and of the one that is least ahead, and a round lowers it by one
(`Lockstep.due_iff`, `Lockstep.roundsDue_advance`). Those who are leaving count once more,
for the first round (`Lockstep.roundsInARow`).
-/

set_option autoImplicit false

namespace NimbleServer.Lib

/-! ### Seats -/

/-- What the player in a seat is doing. -/
inductive SeatPhase
  | entering
  | playing
  | absent
  | leaving
deriving DecidableEq, Repr

/-- A seat that is taken. `pending` are the inputs for the rounds to come, the next one
first. -/
structure Seat (Group Input : Type) where
  group : Group
  phase : SeatPhase
  pending : List Input

/-- What a round says about a seat. -/
inductive Report (Group Input : Type)
  | entered (group : Group) (input : Option Input)
  | played (input : Option Input)
  | absent
  | left
deriving DecidableEq, Repr

namespace Seat

variable {Group Input : Type}

/-- What a round says about the seat: the next input, if there is one, unless the player is absent
or leaves. -/
def report (seat : Seat Group Input) : Report Group Input :=
  match seat.phase with
  | .entering => .entered seat.group seat.pending.head?
  | .playing => .played seat.pending.head?
  | .absent => .absent
  | .leaving => .left

/-- The seat after a round. An input is used up whether it was reported or not. -/
def next (seat : Seat Group Input) : Option (Seat Group Input) :=
  match seat.phase with
  | .entering => some { seat with phase := .playing, pending := seat.pending.tail }
  | .playing | .absent => some { seat with pending := seat.pending.tail }
  | .leaving => none

/-- The seat after its group changed to a phase. Who is leaving does not come back. -/
def regroup [DecidableEq Group] (group : Group) (phase : SeatPhase) (seat : Seat Group Input) :
    Seat Group Input :=
  if seat.group = group ∧ seat.phase ≠ .leaving then { seat with phase } else seat

end Seat

/-! ### The game -/

/-- A game in lockstep: the number of the next round, and the seats that are taken. -/
@[ext] structure Lockstep (Place Group Input : Type) where
  round : Nat
  seat : Place → Option (Seat Group Input)

/-- What happens between rounds. -/
inductive Move (Place Group Input : Type)
  | enter (i : Place) (group : Group)
  | provide (i : Place) (input : Input)
  | suspend (group : Group)
  | withdraw (group : Group)

namespace Lockstep

variable {Place Group Input : Type}

/-- Nobody has a seat. -/
def empty (round : Nat) : Lockstep Place Group Input := { round, seat := fun _ => none }

/-- What the next round says. -/
def reports (game : Lockstep Place Group Input) (i : Place) : Option (Report Group Input) :=
  (game.seat i).map Seat.report

/-- The game after a round. -/
def advance (game : Lockstep Place Group Input) : Lockstep Place Group Input :=
  { round := game.round + 1, seat := fun i => (game.seat i).bind Seat.next }

/-- The game after a move. -/
def play [DecidableEq Place] [DecidableEq Group] (game : Lockstep Place Group Input) :
    Move Place Group Input → Lockstep Place Group Input
  | .enter i group => { game with
      seat := Function.update game.seat i (some { group, phase := .entering, pending := [] }) }
  | .provide i input => { game with
      seat := Function.update game.seat i ((game.seat i).map fun seat =>
        { seat with pending := seat.pending ++ [input] }) }
  | .suspend group => { game with seat := fun i => (game.seat i).map (Seat.regroup group .absent) }
  | .withdraw group => { game with
      seat := fun i => (game.seat i).map (Seat.regroup group .leaving) }

/-- A player enters where nobody sits, and hands in inputs until it leaves. -/
def Permits (game : Lockstep Place Group Input) : Move Place Group Input → Prop
  | .enter i _ => game.seat i = none
  | .provide i _ => ∃ seat, game.seat i = some seat ∧ seat.phase ≠ .leaving
  | .suspend _ | .withdraw _ => True

/-- The number of inputs that were handed in at a place and not used yet. -/
def ahead (game : Lockstep Place Group Input) (i : Place) : Nat :=
  ((game.seat i).map fun seat => seat.pending.length).getD 0

/-- At a seat that is taken, the inputs are those of the player. -/
theorem ahead_of_seat {game : Lockstep Place Group Input} {i : Place} {seat : Seat Group Input}
    (h : game.seat i = some seat) : game.ahead i = seat.pending.length := by
  unfold ahead
  rw [h]
  rfl

/-- Where nobody sits there are no inputs. -/
theorem ahead_of_none {game : Lockstep Place Group Input} {i : Place}
    (h : game.seat i = none) : game.ahead i = 0 := by
  unfold ahead
  rw [h]
  rfl

/-- A round adds no inputs. -/
theorem ahead_advance_le (game : Lockstep Place Group Input) (i : Place) :
    game.advance.ahead i ≤ game.ahead i := by
  -- An empty place stays empty. A seat loses one input, or is given up.
  cases hseat : game.seat i with
  | none =>
    have hnone : game.advance.seat i = none := by
      show (game.seat i).bind Seat.next = _
      rw [hseat]
      rfl
    rw [ahead_of_none hnone]
    exact Nat.zero_le _
  | some seat =>
    have hadvance : game.advance.seat i = seat.next := by
      show (game.seat i).bind Seat.next = _
      rw [hseat]
      rfl
    rw [ahead_of_seat hseat]
    unfold ahead
    rw [hadvance]
    unfold Seat.next
    cases seat.phase with
    | leaving => exact Nat.zero_le _
    | entering | playing | absent =>
      show seat.pending.tail.length ≤ _
      rw [List.length_tail]
      exact Nat.sub_le _ _

/-- When the next round is due. -/
def Due (quorum lead : Nat) (game : Lockstep Place Group Input) : Prop :=
  (∃ i, lead ≤ game.ahead i) ∨
    ((∃ i, quorum ≤ game.ahead i) ∧ ∀ i, (game.seat i).isSome → 0 < game.ahead i)

/-- A run of a game, with the number and the reports of each of its rounds. -/
inductive Run [DecidableEq Place] [DecidableEq Group] (quorum lead : Nat)
    (start : Lockstep Place Group Input) :
    List (Nat × (Place → Option (Report Group Input))) → Lockstep Place Group Input → Prop
  | refl : Run quorum lead start [] start
  | move {rounds : List (Nat × (Place → Option (Report Group Input)))}
      {game : Lockstep Place Group Input} (m : Move Place Group Input) :
      Run quorum lead start rounds game → game.Permits m →
      Run quorum lead start rounds (game.play m)
  | advance {rounds : List (Nat × (Place → Option (Report Group Input)))}
      {game : Lockstep Place Group Input} :
      Run quorum lead start rounds game → game.Due quorum lead →
      Run quorum lead start (rounds ++ [(game.round, game.reports)]) game.advance

/-- Runs compose. Induction on the second run. -/
theorem Run.trans [DecidableEq Place] [DecidableEq Group] {quorum lead : Nat}
    {start mid game : Lockstep Place Group Input}
    {earlier later : List (Nat × (Place → Option (Report Group Input)))}
    (h : Run quorum lead start earlier mid) (h' : Run quorum lead mid later game) :
    Run quorum lead start (earlier ++ later) game := by
  induction h' with
  | refl =>
    rw [List.append_nil]
    exact h
  | move m _ hpermits ih => exact .move m ih hpermits
  | advance _ hdue ih =>
    rw [← List.append_assoc]
    exact .advance ih hdue

/-! ### Seats that stay -/

/-- No seat is given up in the next round. -/
def NobodyLeaves (game : Lockstep Place Group Input) : Prop :=
  ∀ i seat, game.seat i = some seat → seat.phase ≠ .leaving

/-- Who was leaving is gone after a round. -/
theorem nobodyLeaves_advance (game : Lockstep Place Group Input) :
    game.advance.NobodyLeaves := by
  intro i seat hseat
  obtain ⟨before, -, hnext⟩ := Option.bind_eq_some_iff.mp hseat
  unfold Seat.next at hnext
  -- One case for each phase: only the last gives the seat up, and then there is no seat.
  split at hnext
  · cases hnext
    rintro ⟨⟩
  · cases hnext
    simp_all
  · cases hnext
    simp_all
  · cases hnext

/-- If nobody leaves, a round takes the next input from each seat and keeps the seat. -/
theorem NobodyLeaves.next {game : Lockstep Place Group Input} (h : game.NobodyLeaves)
    {i : Place} {seat : Seat Group Input} (hseat : game.seat i = some seat) :
    ∃ after, game.advance.seat i = some after ∧ after.pending = seat.pending.tail := by
  have hphase := h i seat hseat
  have hadvance : game.advance.seat i = seat.next := by
    show (game.seat i).bind Seat.next = _
    rw [hseat]
    rfl
  rw [hadvance]
  unfold Seat.next
  cases hp : seat.phase with
  | leaving => exact absurd hp hphase
  | entering | playing | absent => exact ⟨_, rfl, rfl⟩

/-- If nobody leaves, the same places are taken after a round. -/
theorem NobodyLeaves.isSome {game : Lockstep Place Group Input} (h : game.NobodyLeaves)
    (i : Place) :
    (game.advance.seat i).isSome = (game.seat i).isSome := by
  cases hseat : game.seat i with
  | none =>
    show ((game.seat i).bind Seat.next).isSome = _
    rw [hseat]
    rfl
  | some seat =>
    obtain ⟨after, hafter, -⟩ := h.next hseat
    rw [hafter]
    rfl

/-- If nobody leaves, a round takes one input everywhere. -/
theorem NobodyLeaves.ahead {game : Lockstep Place Group Input} (h : game.NobodyLeaves) (i : Place) :
    game.advance.ahead i = game.ahead i - 1 := by
  cases hseat : game.seat i with
  | none =>
    have hnone : game.advance.seat i = none := by
      show (game.seat i).bind Seat.next = _
      rw [hseat]
      rfl
    rw [ahead_of_none hnone, ahead_of_none hseat]
  | some seat =>
    obtain ⟨after, hafter, hpending⟩ := h.next hseat
    rw [ahead_of_seat hafter, ahead_of_seat hseat, hpending, List.length_tail]

/-- Taking one off everywhere takes one off the largest. -/
theorem sup_sub_one (places : Finset Place) (count : Place → Nat) :
    (places.sup fun i => count i - 1) = places.sup count - 1 :=
  (Finset.apply_sup_eq_sup_comp (fun n => n - 1) (fun _ _ => by
    show max _ _ - 1 = max (_ - 1) (_ - 1)
    omega) rfl).symm

/-- Taking one off everywhere takes one off the smallest. -/
theorem inf'_sub_one (places : Finset Place) (h : places.Nonempty) (count : Place → Nat) :
    (places.inf' h fun i => count i - 1) = places.inf' h count - 1 :=
  (Finset.apply_inf'_eq_inf'_comp h (fun n => n - 1) fun _ _ => by
    show min _ _ - 1 = min (_ - 1) (_ - 1)
    omega).symm

/-! ### How many rounds are due -/

section Count

variable [Fintype Place]

/-- The places that are taken. -/
def taken (game : Lockstep Place Group Input) : Finset Place :=
  Finset.univ.filter fun i => (game.seat i).isSome = true

/-- A place is taken if there is a seat. -/
theorem mem_taken {game : Lockstep Place Group Input} {i : Place} :
    i ∈ game.taken ↔ (game.seat i).isSome = true := by
  simp [taken]

/-- The inputs at the place that is furthest ahead. -/
def fastest (game : Lockstep Place Group Input) : Nat := game.taken.sup game.ahead

/-- The inputs at the place that is least ahead. -/
def slowest (game : Lockstep Place Group Input) : Nat :=
  if h : game.taken.Nonempty then game.taken.inf' h game.ahead else 0

/-- The number of rounds that are due in a row: as many as leave somebody a full lead, or as
many as leave somebody a quorum and everybody an input. -/
def roundsDue (quorum lead : Nat) (game : Lockstep Place Group Input) : Nat :=
  max (game.fastest - (lead - 1)) (min (game.fastest - (quorum - 1)) game.slowest)

variable {game : Lockstep Place Group Input} {quorum lead : Nat}

/-- An input is at a place that is taken. -/
theorem mem_taken_of_ahead {i : Place} (h : 0 < game.ahead i) : i ∈ game.taken := by
  rw [mem_taken]
  cases hseat : game.seat i with
  | none =>
    rw [ahead_of_none hseat] at h
    exact absurd h (Nat.lt_irrefl 0)
  | some seat => rfl

/-- Somebody is as far ahead as the place that is furthest ahead. -/
theorem le_fastest_iff {count : Nat} (hcount : 0 < count) :
    count ≤ game.fastest ↔ ∃ i, count ≤ game.ahead i := by
  unfold fastest
  rw [Finset.le_sup_iff hcount]
  exact ⟨fun ⟨i, _, hi⟩ => ⟨i, hi⟩, fun ⟨i, hi⟩ => ⟨i, mem_taken_of_ahead (by omega), hi⟩⟩

/-- The place that is least ahead has an input exactly if everybody has one. -/
theorem slowest_pos_iff (h : game.taken.Nonempty) :
    0 < game.slowest ↔ ∀ i, (game.seat i).isSome → 0 < game.ahead i := by
  unfold slowest
  rw [dif_pos h, Finset.lt_inf'_iff]
  simp only [mem_taken]

/-- A round is due exactly as long as the number of rounds is not used up. -/
theorem due_iff (hquorum : 0 < quorum) (hlead : quorum ≤ lead) :
    game.Due quorum lead ↔ 0 < game.roundsDue quorum lead := by
  unfold Due roundsDue
  rw [← le_fastest_iff (by omega : 0 < lead), ← le_fastest_iff hquorum]
  by_cases h : game.taken.Nonempty
  · rw [← slowest_pos_iff h]
    omega
  · -- Without players nobody is ahead, and both sides are false.
    have hnone : game.fastest = 0 := by
      unfold fastest
      rw [Finset.not_nonempty_iff_eq_empty.mp h]
      rfl
    omega

/-- If nobody leaves, the places that are taken stay the same. -/
theorem NobodyLeaves.taken (h : game.NobodyLeaves) : game.advance.taken = game.taken := by
  unfold Lockstep.taken
  simp only [h.isSome]

/-- A round lowers the number of rounds by one. -/
theorem roundsDue_advance (h : game.NobodyLeaves) :
    game.advance.roundsDue quorum lead = game.roundsDue quorum lead - 1 := by
  -- The same places are taken before and after, with one input less at each.
  have hfastest : game.advance.fastest = game.fastest - 1 := by
    unfold fastest
    rw [h.taken, ← sup_sub_one]
    exact Finset.sup_congr rfl fun i _ => h.ahead i
  have hslowest : game.advance.slowest = game.slowest - 1 := by
    unfold slowest
    simp only [h.taken]
    split
    · rename_i hnonempty
      rw [← inf'_sub_one]
      exact Finset.inf'_congr hnonempty rfl fun i _ => h.ahead i
    · rfl
  unfold roundsDue
  rw [hfastest, hslowest]
  omega

/-- The number of rounds that are due in a row when some are leaving: they count for the
first of the rounds only. -/
def roundsInARow (quorum lead : Nat) (game : Lockstep Place Group Input) : Nat :=
  if 0 < game.roundsDue quorum lead then game.advance.roundsDue quorum lead + 1 else 0

/-- If nobody leaves, the two counts agree. -/
theorem roundsInARow_of_nobodyLeaves (h : game.NobodyLeaves) :
    game.roundsInARow quorum lead = game.roundsDue quorum lead := by
  unfold roundsInARow
  rw [roundsDue_advance h]
  split
  · omega
  · omega

/-- A round is due exactly as long as the rounds in a row are not used up, also while some are
leaving. -/
theorem due_iff_roundsInARow (hquorum : 0 < quorum) (hlead : quorum ≤ lead) :
    game.Due quorum lead ↔ 0 < game.roundsInARow quorum lead := by
  rw [due_iff hquorum hlead]
  unfold roundsInARow
  split
  · omega
  · omega

/-- A round lowers the rounds in a row by one. After it nobody is leaving any more. -/
theorem roundsInARow_advance (h : 0 < game.roundsInARow quorum lead) :
    game.advance.roundsInARow quorum lead + 1 = game.roundsInARow quorum lead := by
  rw [roundsInARow_of_nobodyLeaves (nobodyLeaves_advance game)]
  unfold roundsInARow at h ⊢
  split at h
  · rename_i hdue
    rw [if_pos hdue]
  · exact absurd h (Nat.lt_irrefl 0)

end Count

end Lockstep

end NimbleServer.Lib
