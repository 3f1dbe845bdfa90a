import NimbleServer.Lib.Run

/-!
# `NimbleServer.Lib.Trace`: runs with a history

A machine can be made to record what its steps do. The history is a list of events, newest
first, and no step reads it. `EachAllowed ok events history` says that every one of `events`
was in order when it happened, given all that had happened before it. A run is in order as a
whole when each of its steps is (`Reaches.eachAllowed`).

`happenedSince what reset` asks whether an event of one kind has happened since the latest
event of another kind.
-/

set_option autoImplicit false

namespace NimbleServer.Lib

variable {State Label Error Event : Type}

/-- The machine with a history. -/
def recorded (step : State → Label → Except Error State)
    (events : State → Label → List Event) (state : State × List Event) (l : Label) :
    Except Error (State × List Event) :=
  (step state.1 l).map fun s => (s, events state.1 l ++ state.2)

/-- A run with a history is a run of the machine. -/
theorem Reaches.of_recorded {step : State → Label → Except Error State}
    {events : State → Label → List Event} {allowed : State × List Event → Label → Prop}
    {start state : State × List Event}
    (h : Reaches (recorded step events) allowed start state) :
    Reaches step (fun _ _ => True) start.1 state.1 := by
  induction h with
  | refl => exact .refl
  | tail _ _ hs ih =>
    obtain ⟨s, hnext, rfl⟩ := map_eq_ok.mp hs
    exact ih.tail trivial hnext

/-- Every one of the events was in order when it happened. -/
def EachAllowed (ok : Event → List Event → Prop) : (events history : List Event) → Prop
  | [], _ => True
  | event :: events, history => ok event (events ++ history) ∧ EachAllowed ok events history

/-- The events of two stretches are in order exactly if each stretch is, the later one after the
earlier one. -/
theorem eachAllowed_append {ok : Event → List Event → Prop} {events earlier history : List Event} :
    EachAllowed ok (events ++ earlier) history ↔
      EachAllowed ok events (earlier ++ history) ∧ EachAllowed ok earlier history := by
  induction events with
  | nil => exact ⟨fun h => ⟨trivial, h⟩, fun h => h.2⟩
  | cons event events ih =>
    rw [List.cons_append]
    simp only [EachAllowed]
    rw [ih, List.append_assoc, and_assoc]

/-- A run whose steps are all in order is in order as a whole. -/
theorem Reaches.eachAllowed {step : State → Label → Except Error State}
    {events : State → Label → List Event} {allowed : State × List Event → Label → Prop}
    {ok : Event → List Event → Prop} {start : State} {state : State × List Event}
    (h : Reaches (recorded step events) allowed (start, []) state)
    (hstep : ∀ state l, Reaches (recorded step events) allowed (start, []) state →
      allowed state l → EachAllowed ok (events state.1 l) state.2) :
    EachAllowed ok state.2 [] := by
  induction h with
  | refl => trivial
  | tail hrun hl hs ih =>
    obtain ⟨s, -, rfl⟩ := map_eq_ok.mp hs
    -- The events of the last step come on top of a history that is in order.
    refine eachAllowed_append.mpr ⟨?_, ih⟩
    rw [List.append_nil]
    exact hstep _ _ hrun hl

section Since

variable (what reset : Event → Prop) [DecidablePred what] [DecidablePred reset]

/-- Whether one of the events `what` has happened since the latest event `reset`. -/
def happenedSince : List Event → Bool
  | [] => false
  | event :: earlier =>
    if what event then true
    else if reset event then false
    else happenedSince earlier

variable {what reset}

/-- The event itself counts. -/
theorem happenedSince_of_what {event : Event} (h : what event) (earlier : List Event) :
    happenedSince what reset (event :: earlier) = true :=
  if_pos h

/-- A reset makes everything before it not count. -/
theorem happenedSince_of_reset {event : Event} (hwhat : ¬what event) (h : reset event)
    (earlier : List Event) : happenedSince what reset (event :: earlier) = false :=
  (if_neg hwhat).trans (if_pos h)

/-- Events of neither kind change nothing. -/
theorem happenedSince_append {events : List Event} (hwhat : ∀ event ∈ events, ¬what event)
    (hreset : ∀ event ∈ events, ¬reset event) (history : List Event) :
    happenedSince what reset (events ++ history) = happenedSince what reset history := by
  induction events with
  | nil => rfl
  | cons event events ih =>
    show (if what event then true else if reset event then false else _) = _
    rw [if_neg (hwhat event List.mem_cons_self), if_neg (hreset event List.mem_cons_self)]
    exact ih (fun e he => hwhat e (List.mem_cons_of_mem _ he))
      fun e he => hreset e (List.mem_cons_of_mem _ he)

end Since

end NimbleServer.Lib
