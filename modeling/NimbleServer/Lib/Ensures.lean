import Mathlib

/-!
# `NimbleServer.Lib.Ensures`: postconditions for computations that can stop

A computation in `Except ε` either returns a value or stops with an error. `Ensures x post
fault` says both at once: a returned value satisfies `post`, and an error satisfies `fault`.
One predicate serves the two kinds of statement a checked program needs. With
`fault := fun _ => True` it is partial correctness. With a smaller `fault` it also says
which stops cannot happen.

The rules follow the shape of the computation: `Ensures.bind` for a sequence,
`ensures_foldlM` for a loop over a list with one invariant, and `ensures_foldlM_done` for a
loop whose invariant names the part of the list that is already done.
-/

set_option autoImplicit false

namespace NimbleServer.Lib

variable {ε α β : Type}

/-- A returned value satisfies `post`, and an error satisfies `fault`. -/
def Ensures (x : Except ε α) (post : α → Prop) (fault : ε → Prop) : Prop :=
  match x with
  | .ok a => post a
  | .error e => fault e

/-- Of a computation that returned, only the postcondition is left. -/
@[simp] theorem ensures_ok (a : α) (post : α → Prop) (fault : ε → Prop) :
    Ensures (.ok a) post fault ↔ post a := Iff.rfl

/-- Of a computation that stopped, only the fault condition is left. -/
@[simp] theorem ensures_error (e : ε) (post : α → Prop) (fault : ε → Prop) :
    Ensures (.error e) post fault ↔ fault e := Iff.rfl

/-- `ensures_ok` in the form in which a `do` block ends. -/
@[simp] theorem ensures_pure (a : α) (post : α → Prop) (fault : ε → Prop) :
    Ensures (pure a : Except ε α) post fault ↔ post a := Iff.rfl

/-- `ensures_error` in the form in which a `do` block stops. -/
@[simp] theorem ensures_throw (e : ε) (post : α → Prop) (fault : ε → Prop) :
    Ensures (throw e : Except ε α) post fault ↔ fault e := Iff.rfl

/-- The value of a computation that returned satisfies the postcondition. -/
theorem Ensures.of_ok {x : Except ε α} {post : α → Prop} {fault : ε → Prop} {a : α}
    (h : Ensures x post fault) (hx : x = .ok a) : post a := by
  subst hx
  exact h

/-- The error of a computation that stopped satisfies the fault condition. -/
theorem Ensures.of_error {x : Except ε α} {post : α → Prop} {fault : ε → Prop} {e : ε}
    (h : Ensures x post fault) (hx : x = .error e) : fault e := by
  subst hx
  exact h

/-- Partial correctness is about the returned values only. -/
theorem Ensures.of_eq_ok {x : Except ε α} {post : α → Prop} (h : ∀ a, x = .ok a → post a) :
    Ensures x post (fun _ => True) := by
  cases x with
  | ok a => exact h a rfl
  | error e => trivial

/-- A computation that never stops returns a value that satisfies the postcondition. -/
theorem Ensures.exists_ok {x : Except ε α} {post : α → Prop}
    (h : Ensures x post (fun _ => False)) : ∃ a, x = .ok a ∧ post a := by
  cases x with
  | ok a => exact ⟨a, rfl, h⟩
  | error e => exact h.elim

/-- Both conditions can be weakened. -/
theorem Ensures.mono {x : Except ε α} {post post' : α → Prop} {fault fault' : ε → Prop}
    (h : Ensures x post fault) (hpost : ∀ a, post a → post' a)
    (hfault : ∀ e, fault e → fault' e) : Ensures x post' fault' := by
  cases x with
  | ok a => exact hpost a h
  | error e => exact hfault e h

/-- Two postconditions of one computation hold together. -/
theorem Ensures.and {x : Except ε α} {post post' : α → Prop} {fault fault' : ε → Prop}
    (h : Ensures x post fault) (h' : Ensures x post' fault') :
    Ensures x (fun a => post a ∧ post' a) (fun e => fault e ∧ fault' e) := by
  cases x with
  | ok a => exact ⟨h, h'⟩
  | error e => exact ⟨h, h'⟩

/-- The rule for a sequence: what the first part returns is what the second part starts
from. -/
theorem Ensures.bind {x : Except ε α} {f : α → Except ε β} {mid : α → Prop}
    {post : β → Prop} {fault : ε → Prop} (hx : Ensures x mid fault)
    (hf : ∀ a, mid a → Ensures (f a) post fault) : Ensures (x >>= f) post fault := by
  cases x with
  | ok a => exact hf a hx
  | error e => exact hx

/-- The rule for a sequence with the condition between its parts given. -/
theorem Ensures.bind_of (mid : α → Prop) {x : Except ε α} {f : α → Except ε β}
    {post : β → Prop} {fault : ε → Prop} (hx : Ensures x mid fault)
    (hf : ∀ a, mid a → Ensures (f a) post fault) : Ensures (x >>= f) post fault :=
  hx.bind hf

/-- The rule for a function applied to the returned value. -/
theorem Ensures.map {x : Except ε α} {f : α → β} {post : β → Prop} {fault : ε → Prop}
    (hx : Ensures x (fun a => post (f a)) fault) : Ensures (x.map f) post fault := by
  cases x with
  | ok a => exact hx
  | error e => exact hx

/-- The rule for a function applied to the returned value, read backwards. -/
theorem Ensures.of_map {x : Except ε α} {f : α → β} {post : β → Prop} {fault : ε → Prop}
    (hx : Ensures (x.map f) post fault) : Ensures x (fun a => post (f a)) fault := by
  cases x with
  | ok a => exact hx
  | error e => exact hx

/-- A sequence returns exactly when both parts do. -/
theorem bind_eq_ok {x : Except ε α} {f : α → Except ε β} {b : β} :
    (x >>= f) = .ok b ↔ ∃ a, x = .ok a ∧ f a = .ok b := by
  cases x with
  | ok a =>
    constructor
    · intro h
      exact ⟨a, rfl, h⟩
    · rintro ⟨a', ha, h⟩
      cases ha
      exact h
  | error e =>
    constructor
    · intro h
      cases h
    · rintro ⟨a', ha, -⟩
      cases ha

/-- A sequence whose second part always returns fails exactly when the first part does. -/
theorem bind_eq_error {x : Except ε α} {f : α → Except ε β} {e : ε}
    (hf : ∀ a, ∃ b, f a = .ok b) : (x >>= f) = .error e ↔ x = .error e := by
  cases x with
  | ok a =>
    obtain ⟨b, hb⟩ := hf a
    refine iff_of_false (fun h => ?_) (by rintro ⟨⟩)
    cases hb.symm.trans h
  | error e' => exact ⟨fun h => congrArg Except.error (Except.error.inj h),
      fun h => congrArg Except.error (Except.error.inj h)⟩

/-- A function is applied to a returned value, and an error passes through. -/
theorem map_eq_ok {x : Except ε α} {f : α → β} {b : β} :
    x.map f = .ok b ↔ ∃ a, x = .ok a ∧ f a = b := by
  cases x with
  | ok a => simp [Except.map]
  | error e => simp [Except.map]

/-- An error is not changed by what is done with a value. -/
theorem map_eq_error {x : Except ε α} {f : α → β} {e : ε} :
    x.map f = .error e ↔ x = .error e := by
  cases x with
  | ok a => simp [Except.map]
  | error e => simp [Except.map]

/-- A value is not changed by what is done with an error. -/
theorem mapError_eq_ok {δ : Type} {x : Except ε α} {f : ε → δ} {a : α} :
    x.mapError f = .ok a ↔ x = .ok a := by
  cases x with
  | ok b => exact ⟨fun h => congrArg Except.ok (Except.ok.inj h),
      fun h => congrArg Except.ok (Except.ok.inj h)⟩
  | error e => exact ⟨fun h => (by cases h), fun h => (by cases h)⟩

/-- A check of the returned value says that a value was returned. -/
theorem exists_ok_of_any {x : Except ε α} {check : α → Bool}
    (h : x.toOption.any check = true) : ∃ a, x = .ok a ∧ check a = true := by
  cases x with
  | ok a => exact ⟨a, rfl, h⟩
  | error e => cases h

/-- The rule for a loop over a list: an invariant that every round keeps holds at the end.
Induction on the list, with the loop state generalized. -/
theorem ensures_foldlM {σ ι : Type} {f : σ → ι → Except ε σ} {inv : σ → Prop}
    {fault : ε → Prop} (l : List ι) {s : σ} (hs : inv s)
    (hf : ∀ x ∈ l, ∀ s, inv s → Ensures (f s x) inv fault) :
    Ensures (l.foldlM f s) inv fault := by
  induction l generalizing s with
  | nil => exact hs
  | cons x rest ih =>
    rw [List.foldlM_cons]
    refine Ensures.bind (hf x List.mem_cons_self s hs) fun s' hs' => ?_
    exact ih hs' fun y hy => hf y (List.mem_cons_of_mem x hy)

/-- The rule for a loop whose invariant reads the part of the list that is done. -/
theorem ensures_foldlM_done {σ ι : Type} {f : σ → ι → Except ε σ}
    (inv : List ι → σ → Prop) {fault : ε → Prop} (l : List ι) {s : σ} (hs : inv [] s)
    (hf : ∀ done x rest s, l = done ++ x :: rest → inv done s →
      Ensures (f s x) (inv (done ++ [x])) fault) :
    Ensures (l.foldlM f s) (inv l) fault := by
  -- The loop starts with nothing done. The induction is on what remains, so the part that is done
  -- has to vary.
  suffices h : ∀ rest done s, l = done ++ rest → inv done s →
      Ensures (rest.foldlM f s) (inv l) fault from h l [] s rfl hs
  intro rest
  induction rest with
  | nil =>
    intro done s hl hinv
    rw [List.append_nil] at hl
    subst hl
    exact hinv
  | cons x rest ih =>
    intro done s hl hinv
    rw [List.foldlM_cons]
    refine Ensures.bind (hf done x rest s hl hinv) fun s' hs' => ?_
    -- One element moves from what remains to what is done.
    exact ih (done ++ [x]) s' (by rw [hl, List.append_assoc]; rfl) hs'

end NimbleServer.Lib
