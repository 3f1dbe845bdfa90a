import NimbleServer.Lib.Ensures

/-!
# `NimbleServer.Lib.Run`: runs of a machine whose steps can stop

A machine is a function `step : State → Label → Except Error State`. A run starts in one
state and applies one label after another. `Reaches step allowed start s` says that some
run leads from `start` to `s`, every label of it being `allowed` in the state it is applied
to. The side condition `allowed` carries both what the environment can do and any
restriction a result puts on the runs it speaks about.

`Reaches.invariant` is the one induction over runs. Each safety result is then two smaller
goals: the start state satisfies the invariant, and an allowed step keeps it.
-/

set_option autoImplicit false

namespace NimbleServer.Lib

variable {State Label Error : Type}

/-- Some run of allowed steps leads from `start` to the state. -/
inductive Reaches (step : State → Label → Except Error State)
    (allowed : State → Label → Prop) (start : State) : State → Prop
  | refl : Reaches step allowed start start
  | tail {s s' : State} {l : Label} : Reaches step allowed start s → allowed s l →
      step s l = .ok s' → Reaches step allowed start s'

namespace Reaches

variable {step : State → Label → Except Error State} {allowed : State → Label → Prop}
  {start : State}

/-- A property of the start state that every allowed step keeps holds in every state a run
reaches. Induction on the run. -/
theorem invariant {s : State} (h : Reaches step allowed start s) (inv : State → Prop)
    {fault : Error → Prop} (hstart : inv start)
    (hstep : ∀ s l, inv s → allowed s l → Ensures (step s l) inv fault) : inv s := by
  induction h with
  | refl => exact hstart
  | tail _ hl hs ih => exact (hstep _ _ ih hl).of_ok hs

/-- A property of all reachable states can be added to the side condition. The next
invariant is then proved with the first one at hand. -/
theorem restrict {s : State} (h : Reaches step allowed start s) (P : State → Prop)
    (hP : ∀ s, Reaches step allowed start s → P s) :
    Reaches step (fun s l => allowed s l ∧ P s) start s := by
  induction h with
  | refl => exact .refl
  | tail hrun hl hs ih => exact .tail ih ⟨hl, hP _ hrun⟩ hs

/-- Runs compose. -/
theorem trans {mid s : State} (h : Reaches step allowed start mid)
    (h' : Reaches step allowed mid s) : Reaches step allowed start s := by
  induction h' with
  | refl => exact h
  | tail _ hl hs ih => exact .tail ih hl hs

/-- One allowed step is a run. -/
theorem single {s : State} {l : Label} (hl : allowed start l) (hs : step start l = .ok s) :
    Reaches step allowed start s :=
  .tail .refl hl hs

/-- A run under a condition is a run under every weaker condition. -/
theorem mono {allowed' : State → Label → Prop} (hw : ∀ s l, allowed s l → allowed' s l)
    {s : State} (h : Reaches step allowed start s) : Reaches step allowed' start s := by
  induction h with
  | refl => exact .refl
  | tail _ hl hs ih => exact .tail ih (hw _ _ hl) hs

end Reaches

/-! ### Runs on concrete labels -/

/-- The state after a list of labels, where each label passes the check `ok` in the state it
is applied to and no step stops. -/
def runChecked (step : State → Label → Except Error State) (ok : State → Label → Bool) :
    State → List Label → Option State
  | s, [] => some s
  | s, l :: ls =>
    if ok s l then
      match step s l with
      | .ok s' => runChecked step ok s' ls
      | .error _ => none
    else none

/-- A checked list of labels is a run. Induction on the labels. -/
theorem reaches_of_runChecked {step : State → Label → Except Error State}
    {allowed : State → Label → Prop} [∀ s l, Decidable (allowed s l)] :
    ∀ (ls : List Label) (start s : State),
      runChecked step (fun s l => decide (allowed s l)) start ls = some s →
        Reaches step allowed start s := by
  intro ls
  induction ls with
  | nil =>
    intro start s h
    cases h
    exact .refl
  | cons l ls ih =>
    intro start s h
    unfold runChecked at h
    -- The label passes the check and its step returns, or the list is not a run.
    split at h
    · rename_i hl
      split at h
      · rename_i mid hmid
        exact (Reaches.single (of_decide_eq_true hl) hmid).trans (ih mid s h)
      · cases h
    · cases h

/-- A run can be found by computation: set up the start, apply the labels, and look at the
state they end in. -/
theorem exists_run (step : State → Label → Except Error State)
    (allowed : State → Label → Prop) [∀ s l, Decidable (allowed s l)] (P : State → Prop)
    [DecidablePred P] (setup : Except Error State) (ls : List Label)
    (h : (setup.toOption.bind fun start =>
      runChecked step (fun s l => decide (allowed s l)) start ls).any
        (fun s => decide (P s)) = true) :
    ∃ start s, setup = .ok start ∧ Reaches step allowed start s ∧ P s := by
  cases setup with
  | error e => cases h
  | ok start =>
    rw [Option.any_eq_true] at h
    obtain ⟨s, hs, hP⟩ := h
    exact ⟨start, s, rfl, reaches_of_runChecked ls start s hs, of_decide_eq_true hP⟩

end NimbleServer.Lib
