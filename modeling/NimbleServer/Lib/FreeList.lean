import Mathlib

/-!
# `NimbleServer.Lib.FreeList`: a list of the free slots of a table

A table of `n` slots, each free or used, and a list of slot numbers, from which an allocator
takes slots at the front and to which it gives them back at the end.

* `OnlyFree free used` says that the list holds only free slots, each once. This is what makes
  taking a slot safe.
* `Tracks free used` says that it holds all of them too, so that no slot is lost.

Both are kept by `take` and by `give`. `OnlyFree.length_lt` says that the list has room for
a used slot, and `Tracks.length` that the free slots and the used slots are all slots.
-/

set_option autoImplicit false

namespace NimbleServer.Lib

variable {n : Nat}

/-- The list holds free slots, each once. -/
structure OnlyFree (free : List (Fin n)) (used : Fin n → Bool) : Prop where
  nodup : free.Nodup
  unused : ∀ i ∈ free, used i = false

namespace OnlyFree

variable {free : List (Fin n)} {used : Fin n → Bool}

/-- A used slot is not on the list. -/
theorem not_mem (h : OnlyFree free used) {i : Fin n} (hi : used i = true) : i ∉ free := by
  intro hmem
  rw [h.unused i hmem] at hi
  cases hi

/-- A slot that is not on the list is taken into use. -/
theorem occupy (h : OnlyFree free used) {i : Fin n} (hi : i ∉ free) :
    OnlyFree free (Function.update used i true) where
  nodup := h.nodup
  unused := by
    intro j hj
    have hji : j ≠ i := fun hji => hi (hji ▸ hj)
    rw [Function.update_of_ne hji]
    exact h.unused j hj

/-- The slot at the front is taken into use. -/
theorem take {i : Fin n} (h : OnlyFree (i :: free) used) :
    OnlyFree free (Function.update used i true) := by
  obtain ⟨hi, hnodup⟩ := List.nodup_cons.mp h.nodup
  have hrest : OnlyFree free used := ⟨hnodup, fun j hj => h.unused j (List.mem_cons_of_mem i hj)⟩
  exact hrest.occupy hi

/-- A used slot is given back. -/
theorem give {i : Fin n} (h : OnlyFree free used) (hi : used i = true) :
    OnlyFree (free ++ [i]) (Function.update used i false) where
  nodup := List.nodup_append.mpr ⟨h.nodup, List.nodup_singleton i, fun a ha b hb hab => by
    rw [List.mem_singleton] at hb
    exact h.not_mem hi (hb ▸ hab ▸ ha)⟩
  unused := by
    intro j hj
    by_cases hji : j = i
    · rw [hji, Function.update_self]
    · rw [Function.update_of_ne hji]
      refine h.unused j ((List.mem_append.mp hj).resolve_right fun hmem => ?_)
      exact hji (List.mem_singleton.mp hmem)

/-- While some slot is used, the list does not hold all slots. -/
theorem length_lt (h : OnlyFree free used) {i : Fin n} (hi : used i = true) :
    free.length < n := by
  -- The list with the used slot in front has no repetition, so it has at most `n` elements.
  have hlength := (List.nodup_cons.mpr ⟨h.not_mem hi, h.nodup⟩).length_le_card
  rw [List.length_cons, Fintype.card_fin] at hlength
  exact hlength

end OnlyFree

/-- The list holds every free slot once, and no used slot. -/
structure Tracks (free : List (Fin n)) (used : Fin n → Bool) : Prop where
  nodup : free.Nodup
  mem_iff : ∀ i, i ∈ free ↔ used i = false

namespace Tracks

variable {free : List (Fin n)} {used : Fin n → Bool}

/-- All slots are free, in order. -/
theorem all_free (hfree : ∀ i, used i = false) : Tracks (List.finRange n) used where
  nodup := List.nodup_finRange n
  mem_iff := fun i => by simp [hfree i]

/-- A complete list is a sound one. -/
theorem onlyFree (h : Tracks free used) : OnlyFree free used where
  nodup := h.nodup
  unused := fun i hi => (h.mem_iff i).mp hi

/-- The slot at the front is taken into use. -/
theorem take {i : Fin n} (h : Tracks (i :: free) used) :
    Tracks free (Function.update used i true) where
  nodup := h.onlyFree.take.nodup
  mem_iff := by
    intro j
    by_cases hji : j = i
    · subst hji
      simp [(List.nodup_cons.mp h.nodup).1]
    · rw [Function.update_of_ne hji, ← h.mem_iff j, List.mem_cons]
      simp [hji]

/-- A used slot is given back. -/
theorem give {i : Fin n} (h : Tracks free used) (hi : used i = true) :
    Tracks (free ++ [i]) (Function.update used i false) where
  nodup := (h.onlyFree.give hi).nodup
  mem_iff := by
    intro j
    by_cases hji : j = i
    · subst hji
      simp
    · rw [Function.update_of_ne hji, ← h.mem_iff j]
      simp [hji]

/-- The free slots and the used slots are all slots. -/
theorem length (h : Tracks free used) : (List.finRange n).countP used + free.length = n := by
  -- Both lists hold the free slots, each once, so they have the same length.
  have hperm : free.Perm ((List.finRange n).filter fun i => !used i) := by
    refine (List.perm_ext_iff_of_nodup h.nodup ((List.nodup_finRange n).filter _)).mpr ?_
    intro i
    rw [h.mem_iff i]
    simp
  have hsplit : (List.finRange n).length = (List.finRange n).countP used
      + (List.finRange n).countP fun i => decide ¬used i = true :=
    List.length_eq_countP_add_countP used
  simp only [Bool.not_eq_true, Bool.decide_eq_false, List.length_finRange] at hsplit
  rw [hperm.length_eq, ← List.countP_eq_length_filter]
  exact hsplit.symm

end Tracks

/-! ### Counting slots -/

variable {α : Type}

/-- Counting the elements of a vector is counting the slots that hold them. -/
theorem countP_eq_countP_finRange (v : Vector α n) (p : α → Bool) :
    v.countP p = (List.finRange n).countP fun i => p (v.get i) := by
  have hlist : v.toList = (List.finRange n).map v.get := by
    refine List.ext_getElem (by simp) fun k h1 h2 => ?_
    simp [Vector.get_eq_getElem]
  rw [← Vector.countP_toList, hlist, List.countP_map]
  rfl

end NimbleServer.Lib
