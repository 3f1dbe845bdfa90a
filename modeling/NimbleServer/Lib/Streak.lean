import Mathlib.Data.List.Basic
import Mathlib.Data.List.Infix

/-!
# `NimbleServer.Lib.Streak`: how often in a row

A monitor that counts how often in a row something has happened starts again from 0 each time
it does not happen. Over a history, newest first, its counter is the `streak` of the history.
A monitor that gives up when the counter passes a limit asks whether there was ever such a
stretch, wherever in the history: `InARow`. The two are tied by `inARow_cons_iff`.
-/

set_option autoImplicit false

namespace NimbleServer.Lib

variable {α : Type} {p : α → Prop} [DecidablePred p]

/-- How many of the latest entries of a history, newest first, have the property. -/
def streak (p : α → Prop) [DecidablePred p] (history : List α) : Nat :=
  (history.takeWhile (p ·)).length

/-- The streak goes on with an entry that has the property, and starts again with one that has
not. -/
theorem streak_cons (x : α) (history : List α) :
    streak p (x :: history) = if p x then streak p history + 1 else 0 := by
  unfold streak
  rw [List.takeWhile_cons]
  by_cases h : p x <;> simp [h]

/-- Some `n` entries in a row have the property. -/
def InARow (p : α → Prop) (n : Nat) (history : List α) : Prop :=
  ∃ entries, entries <:+: history ∧ entries.length = n ∧ ∀ x ∈ entries, p x

omit [DecidablePred p] in
/-- Nothing has happened yet. -/
theorem not_inARow_nil (n : Nat) : ¬InARow p (n + 1) [] := by
  rintro ⟨entries, hentries, hlength, -⟩
  rw [List.infix_nil.mp hentries] at hlength
  cases hlength

/-- The latest entries are part of the streak. -/
theorem length_le_streak {entries history : List α} (h : entries <+: history)
    (hall : ∀ x ∈ entries, p x) : entries.length ≤ streak p history := by
  obtain ⟨rest, rfl⟩ := h
  unfold streak
  rw [List.takeWhile_append_of_pos fun x hx => decide_eq_true (hall x hx), List.length_append]
  exact Nat.le_add_right _ _

/-- A long streak is a stretch. -/
theorem inARow_of_lt_streak {n : Nat} {history : List α} (h : n < streak p history) :
    InARow p (n + 1) history := by
  refine ⟨(history.takeWhile (p ·)).take (n + 1), ?_, List.length_take_of_le h, fun x hx => ?_⟩
  · exact ((List.take_prefix _ _).trans (List.takeWhile_prefix _)).isInfix
  · exact of_decide_eq_true (List.all_eq_true.mp List.all_takeWhile x (List.mem_of_mem_take hx))

/-- A new stretch is one that ends with the latest entry. -/
theorem inARow_cons_iff {n : Nat} {x : α} {history : List α} :
    InARow p (n + 1) (x :: history) ↔
      InARow p (n + 1) history ∨ n < streak p (x :: history) := by
  constructor
  · rintro ⟨entries, hentries, hlength, hall⟩
    -- The stretch begins with the latest entry, or it lies in the history before.
    rcases List.infix_cons_iff.mp hentries with hlatest | hearlier
    · have hle := length_le_streak hlatest hall
      exact .inr (by omega)
    · exact .inl ⟨entries, hearlier, hlength, hall⟩
  · rintro (⟨entries, hentries, hlength, hall⟩ | hstreak)
    · exact ⟨entries, List.infix_cons hentries, hlength, hall⟩
    · exact inARow_of_lt_streak hstreak

end NimbleServer.Lib
