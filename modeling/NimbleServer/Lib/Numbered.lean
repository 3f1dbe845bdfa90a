import Mathlib

/-!
# `NimbleServer.Lib.Numbered`: messages with consecutive numbers

A sender gives its messages consecutive numbers that wrap at a modulus. `Numbered modulus
read first sent next` says what happened while it sent the messages `sent`: the numbers a
receiver reads are `first`, `first + 1` and so on without a gap, and `next` is the number
the sender would use now. Two such stretches join (`Numbered.append`).
-/

set_option autoImplicit false

namespace NimbleServer.Lib

variable {μ : Type}

/-- The `count` numbers from `first` on, modulo `modulus`. -/
def consecutive (modulus first count : Nat) : List Nat :=
  (List.range count).map fun k => (first + k) % modulus

/-- The numbers after the first `a` start where those left off. -/
theorem consecutive_add (modulus first a b : Nat) :
    consecutive modulus first (a + b)
      = consecutive modulus first a ++ consecutive modulus ((first + a) % modulus) b := by
  have hshift : ∀ k, (first + (a + k)) % modulus = ((first + a) % modulus + k) % modulus := by
    intro k
    rw [Nat.mod_add_mod, Nat.add_assoc]
  simp [consecutive, List.range_add, hshift]

/-- Numbers repeat only after a full round. -/
theorem consecutive_nodup {modulus count : Nat} (first : Nat) (h : count ≤ modulus) :
    (consecutive modulus first count).Nodup := by
  refine List.Nodup.map_on ?_ List.nodup_range
  intro i hi j hj hij
  rw [List.mem_range] at hi hj
  -- Two places with the same number differ by a multiple of the modulus, and both are below it.
  have hmod : i ≡ j [MOD modulus] := Nat.ModEq.add_left_cancel' first hij
  exact Nat.ModEq.eq_of_lt_of_lt hmod (by omega) (by omega)

/-- The messages `sent` carry the numbers from `first` on, and `next` comes after them. -/
structure Numbered (modulus : Nat) (read : μ → Nat) (first : Nat) (sent : List μ)
    (next : Nat) : Prop where
  next_eq : next = (first + sent.length) % modulus
  numbers : sent.map read = consecutive modulus first sent.length

namespace Numbered

variable {modulus first mid next : Nat} {read : μ → Nat}

/-- Nothing was sent. -/
theorem nil (h : first < modulus) : Numbered modulus read first [] first where
  next_eq := (Nat.mod_eq_of_lt h).symm
  numbers := rfl

/-- One message was sent, with the current number, and the number was advanced. -/
theorem single {message : μ} (h : first < modulus) (hread : read message = first)
    (hnext : next = (first + 1) % modulus) : Numbered modulus read first [message] next where
  next_eq := hnext
  numbers := by simp [consecutive, hread, Nat.mod_eq_of_lt h]

/-- What is sent later goes on with the numbers of what was sent before. -/
theorem append {sent sent' : List μ} (h : Numbered modulus read first sent mid)
    (h' : Numbered modulus read mid sent' next) :
    Numbered modulus read first (sent ++ sent') next where
  next_eq := by
    rw [h'.next_eq, h.next_eq, Nat.mod_add_mod, List.length_append, Nat.add_assoc]
  numbers := by
    rw [List.map_append, List.length_append, consecutive_add, h.numbers, h'.numbers, h.next_eq]

end Numbered

end NimbleServer.Lib
