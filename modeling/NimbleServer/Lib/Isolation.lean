import NimbleServer.Lib.Trace

/-!
# `NimbleServer.Lib.Isolation`: what one party to a machine can learn of the others

A machine serves many parties. One of them sees only part of each run: its own inputs, and
the output that each of them got. `shown s l` is what a step shows, and most steps show
nothing.

The machine isolates the party if two runs that give it the same inputs give it the same
outputs, whatever else happens in them and however often. That is a statement about two whole
runs of different lengths. `Unwinding` reduces it to single steps, by a relation `Agree`
between the two machines: a step that shows nothing keeps it on either side, and two steps
that show the same input show the same output and keep it together.
-/

set_option autoImplicit false

namespace NimbleServer.Lib

variable {State Label Error Input Output : Type}

/-- The machine with the history of what it showed, newest first. -/
def observed (step : State → Label → Except Error State)
    (shown : State → Label → Option (Input × Output)) :
    State × List (Input × Output) → Label → Except Error (State × List (Input × Output)) :=
  recorded step fun s l => (shown s l).toList

section Quiet

variable {step : State → Label → Except Error State}
  {shown : State → Label → Option (Input × Output)}
  {allowed : State × List (Input × Output) → Label → Prop}

/-- The steps that show nothing, after `history`. -/
def Quiet (shown : State → Label → Option (Input × Output))
    (allowed : State × List (Input × Output) → Label → Prop) (history : List (Input × Output))
    (s : State) (l : Label) : Prop :=
  allowed (s, history) l ∧ shown s l = none

/-- `s` is where a run that showed `history` has got to: before the first input, or quietly
from the step that showed the newest one. -/
inductive Since (step : State → Label → Except Error State)
    (shown : State → Label → Option (Input × Output))
    (allowed : State × List (Input × Output) → Label → Prop) (start : State) :
    List (Input × Output) → State → Prop
  | start {s : State} (hquiet : Reaches step (Quiet shown allowed []) start s) :
      Since step shown allowed start [] s
  | answer {event : Input × Output} {earlier : List (Input × Output)} {before after s : State}
      {l : Label} (hbefore : Since step shown allowed start earlier before)
      (hallowed : allowed (before, earlier) l) (hstep : step before l = .ok after)
      (hshown : shown before l = some event)
      (hquiet : Reaches step (Quiet shown allowed (event :: earlier)) after s) :
      Since step shown allowed start (event :: earlier) s

/-- One more step that shows nothing. -/
theorem Since.quiet {start s s' : State} {history : List (Input × Output)} {l : Label}
    (h : Since step shown allowed start history s) (hl : Quiet shown allowed history s l)
    (hs : step s l = .ok s') : Since step shown allowed start history s' := by
  cases h with
  | start hquiet => exact .start (hquiet.tail hl hs)
  | answer hbefore hallowed hstep hshown hquiet =>
    exact .answer hbefore hallowed hstep hshown (hquiet.tail hl hs)

/-- Every run is cut in this way at what it showed. Induction on the run. -/
theorem Reaches.since {start : State} {x : State × List (Input × Output)}
    (h : Reaches (observed step shown) allowed (start, []) x) :
    Since step shown allowed start x.2 x.1 := by
  induction h with
  | refl => exact .start .refl
  | @tail x x' l _ hl hstep ih =>
    obtain ⟨s', hs', rfl⟩ := map_eq_ok.mp hstep
    show Since step shown allowed start ((shown x.1 l).toList ++ x.2) s'
    cases hshown : shown x.1 l with
    -- A step that shows nothing goes on quietly. One that shows something is a new cut.
    | none => exact ih.quiet ⟨hl, hshown⟩ hs'
    | some event => exact .answer ih hl hs' hshown .refl

end Quiet

/-- The conditions on single steps. `Agree` can speak about what was shown so far. -/
structure Unwinding (step : State → Label → Except Error State)
    (shown : State → Label → Option (Input × Output))
    (allowed : State × List (Input × Output) → Label → Prop)
    (Agree : List (Input × Output) → State → State → Prop) : Prop where
  symm : ∀ {history s t}, Agree history s t → Agree history t s
  quiet : ∀ {history s t l s'}, Agree history s t → Quiet shown allowed history s l →
    step s l = .ok s' → Agree history s' t
  answer : ∀ {history s t l m s' t' input output output'}, Agree history s t →
    allowed (s, history) l → step s l = .ok s' → shown s l = some (input, output) →
    allowed (t, history) m → step t m = .ok t' → shown t m = some (input, output') →
    output = output' ∧ Agree ((input, output) :: history) s' t'

namespace Unwinding

variable {step : State → Label → Except Error State}
  {shown : State → Label → Option (Input × Output)}
  {allowed : State × List (Input × Output) → Label → Prop}
  {Agree : List (Input × Output) → State → State → Prop}

/-- Each of the two machines goes on for a while and shows nothing. -/
theorem quiet_runs (h : Unwinding step shown allowed Agree) {history : List (Input × Output)}
    {s s' t t' : State} (hagree : Agree history s t)
    (hs : Reaches step (Quiet shown allowed history) s s')
    (ht : Reaches step (Quiet shown allowed history) t t') : Agree history s' t' := by
  -- First the one machine goes on, then the other, for which the agreement is turned around.
  have hleft : Agree history s' t := by
    induction hs with
    | refl => exact hagree
    | tail _ hl hstep ih => exact h.quiet ih hl hstep
  induction ht with
  | refl => exact hleft
  | tail _ hl hstep ih => exact h.symm (h.quiet (h.symm ih) hl hstep)

/-- Induction on what the first run showed. -/
theorem since (h : Unwinding step shown allowed Agree) {a b s t : State}
    (hstart : Agree [] a b) {history history' : List (Input × Output)}
    (hs : Since step shown allowed a history s) (ht : Since step shown allowed b history' t)
    (hinputs : history.map Prod.fst = history'.map Prod.fst) :
    history = history' ∧ Agree history s t := by
  induction hs generalizing history' t with
  | start hquiet =>
    cases ht with
    | start hquiet' => exact ⟨rfl, h.quiet_runs hstart hquiet hquiet'⟩
    | answer => cases hinputs
  | @answer event earlier before after s l _ hallowed hstep hshown hquiet ih =>
    cases ht with
    | start => cases hinputs
    | @answer event' _ _ _ _ _ hbefore' hallowed' hstep' hshown' hquiet' =>
      -- The newest inputs are equal, and so are those before them.
      obtain ⟨hinput, hearlier⟩ := List.cons.inj hinputs
      obtain ⟨rfl, hagree⟩ := ih hbefore' hearlier
      obtain ⟨input, output⟩ := event
      obtain ⟨input', output'⟩ := event'
      obtain rfl : input = input' := hinput
      obtain ⟨rfl, hafter⟩ := h.answer hagree hallowed hstep hshown hallowed' hstep' hshown'
      exact ⟨rfl, h.quiet_runs hafter hquiet hquiet'⟩

/-- Two runs that show the same inputs show the same outputs. -/
theorem runs (h : Unwinding step shown allowed Agree) {a b s t : State}
    (hstart : Agree [] a b) {history history' : List (Input × Output)}
    (hs : Reaches (observed step shown) allowed (a, []) (s, history))
    (ht : Reaches (observed step shown) allowed (b, []) (t, history'))
    (hinputs : history.map Prod.fst = history'.map Prod.fst) :
    history = history' ∧ Agree history s t :=
  h.since hstart hs.since ht.since hinputs

end Unwinding

end NimbleServer.Lib
