import Mathlib

/-!
# `NimbleServer.Lib.Window`: a list with consecutive ids

The elements of a list have consecutive ids from `start` on. `windowAt start l id` is the
element with the given id. The lemmas say what becomes of the element of an id when the
list grows at its end and shrinks at its front.

`Serves` is the case of a list that is the end of a longer history: whoever reads ids from
the window reads the history (`Serves.filterMap_windowAt`).
-/

set_option autoImplicit false

namespace NimbleServer.Lib

variable {α : Type}

/-- The element with the given id, if the list has it. -/
def windowAt (start : Nat) (l : List α) (id : Nat) : Option α :=
  if start ≤ id then l[id - start]? else none

/-- From the start on, an id is a place in the list. -/
theorem windowAt_of_le {start id : Nat} (h : start ≤ id) (l : List α) :
    windowAt start l id = l[id - start]? :=
  if_pos h

/-- An id past the end has no element. -/
theorem windowAt_eq_none {start id : Nat} {l : List α} (h : start + l.length ≤ id) :
    windowAt start l id = none := by
  rw [windowAt_of_le (by omega), List.getElem?_eq_none (by omega)]

/-- A new element has the next id. -/
theorem windowAt_concat (start : Nat) (l : List α) (a : α) (id : Nat) :
    windowAt start (l ++ [a]) id
      = if id = start + l.length then some a else windowAt start l id := by
  split
  · rename_i hid
    rw [windowAt_of_le (by omega), hid, Nat.add_sub_cancel_left, List.getElem?_concat_length]
  · rename_i hid
    -- The other ids have what they had, before the start nothing.
    by_cases hle : start ≤ id
    · rw [windowAt_of_le hle, windowAt_of_le hle]
      by_cases hlt : id - start < l.length
      · rw [List.getElem?_append_left hlt]
      · have hlength : (l ++ [a]).length ≤ id - start := by
          rw [List.length_append, List.length_singleton]
          omega
        rw [List.getElem?_eq_none hlength, List.getElem?_eq_none (by omega)]
    · unfold windowAt
      rw [if_neg hle, if_neg hle]

/-- Dropping elements keeps the ids of the others. -/
theorem windowAt_drop {start id : Nat} (l : List α) {count : Nat} (h : start + count ≤ id) :
    windowAt (start + count) (l.drop count) id = windowAt start l id := by
  rw [windowAt_of_le h, windowAt_of_le (by omega), List.getElem?_drop]
  congr 1
  omega

/-! ### A window of a history -/

/-- The list is the end of a history whose elements are numbered from `first` on, and
`start` is the number of its first element. -/
def Serves (first : Nat) (history : List α) (start : Nat) (l : List α) : Prop :=
  ∃ dropped, history = dropped ++ l ∧ start = first + dropped.length

namespace Serves

variable {first start : Nat} {history l : List α}

/-- A window ends where the history ends. -/
theorem start_add_length (h : Serves first history start l) :
    start + l.length = first + history.length := by
  obtain ⟨dropped, rfl, rfl⟩ := h
  rw [List.length_append, Nat.add_assoc]

/-- The history and its window grow at the end. -/
theorem concat (h : Serves first history start l) (a : α) :
    Serves first (history ++ [a]) start (l ++ [a]) := by
  obtain ⟨dropped, rfl, rfl⟩ := h
  exact ⟨dropped, List.append_assoc _ _ _, rfl⟩

/-- The window is shortened at its start. -/
theorem drop (h : Serves first history start l) {count : Nat} (hcount : count ≤ l.length) :
    Serves first history (start + count) (l.drop count) := by
  obtain ⟨dropped, rfl, rfl⟩ := h
  refine ⟨dropped ++ l.take count, ?_, ?_⟩
  · rw [List.append_assoc, List.take_append_drop]
  · rw [List.length_append, List.length_take_of_le hcount, Nat.add_assoc]

/-- What the window has of a stretch of ids is what the history has there. -/
theorem filterMap_windowAt (h : Serves first history start l) {id count : Nat}
    (hstart : start ≤ id) (hend : id + count ≤ start + l.length) :
    (List.range' id count).filterMap (windowAt start l)
      = (history.drop (id - first)).take count := by
  obtain ⟨dropped, rfl, rfl⟩ := h
  have hdrop : (dropped ++ l).drop (id - first) = l.drop (id - (first + dropped.length)) := by
    rw [List.drop_append, List.drop_eq_nil_of_le (by omega), List.nil_append]
    congr 1
    omega
  rw [hdrop]
  -- Induction on the length of the stretch, id by id. The history is not needed any more.
  clear hdrop
  induction count generalizing id with
  | zero => simp
  | succ count ih =>
    have hlt : id - (first + dropped.length) < l.length := by omega
    have hnext : id + 1 - (first + dropped.length) = id - (first + dropped.length) + 1 := by
      omega
    rw [List.range'_succ, List.filterMap_cons, windowAt_of_le hstart,
      List.getElem?_eq_getElem hlt]
    dsimp only
    rw [ih (by omega) (by omega), hnext, List.drop_eq_getElem_cons hlt, List.take_succ_cons]

end Serves

end NimbleServer.Lib
