import Mathlib

/-!
# `NimbleServer.Lib.Ring`: a ring buffer and the queue it stores

A ring of `n` cells with a write position `head`, a read position `tail` and a flag
`isFull`. The two positions are equal both when the ring is empty and when it holds `n`
values; the flag tells the two apart. The structure carries the one fact the flag must
satisfy, `head_eq_tail`, so a ring whose flag contradicts its positions cannot be built.

`toList` is the queue the ring stands for, oldest value first. The lemmas say what each
operation does to it:

* `toList_push`: below capacity, `push` appends its value.
* `toList_pop`: above zero, `pop` removes the value that `front` reads.
* `length_toList`: the queue's length is `count`, and `isEmpty_iff` and `isFull_iff` read
  the two tests of the ring as statements about that length.

The positions wrap modulo `n` any number of times. `slot_ne_head` is the fact that makes
this harmless: below capacity, the cell that the next write uses holds no queued value.
-/

set_option autoImplicit false

namespace NimbleServer.Lib

/-- A ring of `n` cells. A ring that is marked full has its two positions equal. -/
structure Ring (α : Type) (n : Nat) where
  data : Vector α n
  head : Fin n
  tail : Fin n
  isFull : Bool
  head_eq_tail : isFull = true → head = tail

namespace Ring

variable {α : Type} {n : Nat}

/-- The position after `i`, wrapping at `n`. -/
def next (i : Fin n) : Fin n :=
  ⟨(i.val + 1) % n, Nat.mod_lt _ (Nat.lt_of_le_of_lt (Nat.zero_le _) i.isLt)⟩

/-- The position `k` cells after `i`, wrapping at `n`. -/
def offset (i : Fin n) (k : Nat) : Fin n :=
  ⟨(i.val + k) % n, Nat.mod_lt _ (Nat.lt_of_le_of_lt (Nat.zero_le _) i.isLt)⟩

/-- Both positions at the start of the ring, which keeps its old cells. -/
def clear (r : Ring α n) (h : 0 < n) : Ring α n :=
  { data := r.data, head := ⟨0, h⟩, tail := ⟨0, h⟩, isFull := false,
    head_eq_tail := fun _ => rfl }

/-- Write a value at `head` and advance it. The ring is full when this makes the two
positions meet. -/
def push (r : Ring α n) (a : α) : Ring α n :=
  { data := r.data.set r.head a, head := next r.head, tail := r.tail,
    isFull := decide (next r.head = r.tail), head_eq_tail := fun h => of_decide_eq_true h }

/-- The value in a cell. -/
def cell (r : Ring α n) (i : Fin n) : α := r.data[i]

/-- The value at `tail`. -/
def front (r : Ring α n) : α := r.cell r.tail

/-- Advance `tail`. The ring is not full afterwards. -/
def pop (r : Ring α n) : Ring α n :=
  { data := r.data, head := r.head, tail := next r.tail, isFull := false,
    head_eq_tail := fun h => by cases h }

/-- The positions are equal and the ring is not full. -/
def isEmpty (r : Ring α n) : Bool := decide (r.head = r.tail) && !r.isFull

/-- The number of queued values, from the two positions and the flag. -/
def count (r : Ring α n) : Nat :=
  if r.isFull then n
  else if r.tail.val ≤ r.head.val then r.head.val - r.tail.val
  else n + r.head.val - r.tail.val

/-- The queued values, oldest first. -/
def toList (r : Ring α n) : List α :=
  (List.range r.count).map fun k => r.cell (offset r.tail k)

/-- A walk that does not pass the end of the ring. -/
theorem offset_val_of_lt {i : Fin n} {k : Nat} (h : i.val + k < n) :
    (offset i k).val = i.val + k := Nat.mod_eq_of_lt h

/-- A walk that passes the end of the ring once. -/
theorem offset_val_of_ge {i : Fin n} {k : Nat} (h : n ≤ i.val + k) (hk : k ≤ n) :
    (offset i k).val = i.val + k - n := by
  have hi := i.isLt
  show (i.val + k) % n = i.val + k - n
  rw [Nat.mod_eq_sub_mod h]
  exact Nat.mod_eq_of_lt (by omega)

/-- Walking no cells stays where it is. -/
theorem offset_zero (i : Fin n) : offset i 0 = i := by
  apply Fin.ext
  exact Nat.mod_eq_of_lt i.isLt

/-- Walking `k` cells from the next position is walking `k + 1` cells. -/
theorem offset_next (i : Fin n) (k : Nat) : offset (next i) k = offset i (k + 1) := by
  apply Fin.ext
  show ((i.val + 1) % n + k) % n = (i.val + (k + 1)) % n
  rw [Nat.mod_add_mod]
  congr 1
  omega

/-- One step more after `k` cells is `k + 1` cells. -/
theorem next_offset (i : Fin n) (k : Nat) : next (offset i k) = offset i (k + 1) := by
  apply Fin.ext
  show ((i.val + k) % n + 1) % n = (i.val + (k + 1)) % n
  rw [Nat.mod_add_mod]
  rfl

/-- Two offsets below `n` from one position are equal only when they are the same
offset. -/
theorem offset_inj {i : Fin n} {j k : Nat} (hj : j < n) (hk : k < n)
    (h : offset i j = offset i k) : j = k := by
  have hi := i.isLt
  have hval : (offset i j).val = (offset i k).val := congrArg Fin.val h
  -- Each of the two walks passes the end of the ring or not. In all four cases the positions
  -- determine the lengths.
  by_cases h1 : i.val + j < n
  · rw [offset_val_of_lt h1] at hval
    by_cases h2 : i.val + k < n
    · rw [offset_val_of_lt h2] at hval
      omega
    · rw [offset_val_of_ge (by omega) (by omega)] at hval
      omega
  · rw [offset_val_of_ge (by omega) (by omega)] at hval
    by_cases h2 : i.val + k < n
    · rw [offset_val_of_lt h2] at hval
      omega
    · rw [offset_val_of_ge (by omega) (by omega)] at hval
      omega

/-- The queue is no longer than the ring. -/
theorem count_le (r : Ring α n) : r.count ≤ n := by
  have h1 := r.head.isLt
  have h2 := r.tail.isLt
  unfold count
  split
  · exact Nat.le_refl n
  · split <;> omega

/-- The flag is set exactly if the queue fills the ring. -/
theorem isFull_iff (r : Ring α n) : r.isFull = true ↔ r.count = n := by
  have h1 := r.head.isLt
  have h2 := r.tail.isLt
  unfold count
  cases hf : r.isFull with
  | true => simp
  | false =>
    simp only [Bool.false_eq_true, if_false, false_iff]
    split <;> omega

/-- The test for an empty ring is right. -/
theorem isEmpty_iff (r : Ring α n) : r.isEmpty = true ↔ r.count = 0 := by
  have h1 := r.head.isLt
  have h2 := r.tail.isLt
  unfold isEmpty count
  cases hf : r.isFull with
  | true => simp; omega
  | false =>
    simp only [Bool.not_false, Bool.and_true, decide_eq_true_eq, Bool.false_eq_true, if_false,
      Fin.ext_iff]
    split <;> omega

/-- The write position is `count` cells after the read position. -/
theorem head_eq_offset (r : Ring α n) : r.head = offset r.tail r.count := by
  have h1 := r.head.isLt
  have h2 := r.tail.isLt
  apply Fin.ext
  cases hf : r.isFull with
  | true =>
    -- A full ring: the write position is a whole turn after the read position.
    have hc : r.count = n := r.isFull_iff.mp hf
    rw [hc, offset_val_of_ge (by omega) (Nat.le_refl n), r.head_eq_tail hf]
    omega
  | false =>
    have hc : r.count = if r.tail.val ≤ r.head.val then r.head.val - r.tail.val
        else n + r.head.val - r.tail.val := by
      unfold count
      rw [hf]
      rfl
    by_cases hle : r.tail.val ≤ r.head.val
    · rw [if_pos hle] at hc
      rw [hc, offset_val_of_lt (by omega)]
      omega
    · rw [if_neg hle] at hc
      rw [hc, offset_val_of_ge (by omega) (by omega)]
      omega

/-- A ring that is not full holds fewer than `n` values. -/
theorem count_lt (r : Ring α n) (hfull : r.isFull = false) : r.count < n := by
  have hne : r.count ≠ n := fun h => by
    rw [r.isFull_iff.mpr h] at hfull
    cases hfull
  have := r.count_le
  omega

/-- Below capacity, the cell of the next write holds no queued value. -/
theorem slot_ne_head (r : Ring α n) (hfull : r.isFull = false) {k : Nat} (hk : k < r.count) :
    offset r.tail k ≠ r.head := by
  have hlt := r.count_lt hfull
  intro h
  rw [head_eq_offset] at h
  have := offset_inj (by omega) hlt h
  omega

/-- A ring's count is the number of cells from `tail` to `head`, whatever the flag
says. -/
theorem count_eq_of_head {r : Ring α n} {k : Nat} (hk : k < n)
    (hhead : r.head = offset r.tail k) (hfull : r.isFull = false) : r.count = k := by
  have hlt := r.count_lt hfull
  rw [head_eq_offset] at hhead
  exact offset_inj hlt hk hhead

/-- Below capacity, `push` adds one value. -/
theorem count_push (r : Ring α n) (a : α) (hfull : r.isFull = false) :
    (r.push a).count = r.count + 1 := by
  have hlt := r.count_lt hfull
  have hhead : (r.push a).head = offset r.tail (r.count + 1) := by
    show next r.head = _
    rw [head_eq_offset, next_offset]
  by_cases hn : r.count + 1 = n
  · -- The write fills the ring: the positions meet and the flag is set.
    have hmeet : next r.head = r.tail := by
      rw [head_eq_offset, next_offset, hn]
      apply Fin.ext
      have := r.tail.isLt
      rw [offset_val_of_ge (by omega) (Nat.le_refl n)]
      omega
    have : (r.push a).isFull = true := decide_eq_true hmeet
    rw [(r.push a).isFull_iff.mp this, hn]
  · have hne : next r.head ≠ r.tail := by
      intro h
      rw [head_eq_offset, next_offset] at h
      have h0 : offset r.tail (r.count + 1) = offset r.tail 0 := by rw [h, offset_zero]
      have := offset_inj (by omega) (by omega) h0
      omega
    -- The positions do not meet, so the distance between them is the count.
    exact count_eq_of_head (by omega) hhead (decide_eq_false hne)

/-- Above zero, `pop` takes one value away. -/
theorem count_pop (r : Ring α n) (hempty : r.isEmpty = false) :
    r.pop.count + 1 = r.count := by
  have hpos : 0 < r.count := by
    have hne : r.count ≠ 0 := fun h => by
      rw [r.isEmpty_iff.mpr h] at hempty
      cases hempty
    omega
  have hle := r.count_le
  -- The read position moved by one cell towards the write position.
  have hhead : r.pop.head = offset r.pop.tail (r.count - 1) := by
    show r.head = offset (next r.tail) (r.count - 1)
    rw [offset_next, show r.count - 1 + 1 = r.count by omega]
    exact head_eq_offset r
  have := count_eq_of_head (by omega) hhead rfl
  omega

/-- The queue is as long as `count` says. -/
theorem length_toList (r : Ring α n) : r.toList.length = r.count := by
  simp [toList]

/-- Both positions at zero: the queue is empty. -/
@[simp] theorem toList_clear (r : Ring α n) (h : 0 < n) : (r.clear h).toList = [] := by
  have : (r.clear h).count = 0 := by simp [count, clear]
  simp [toList, this]

/-- The written value is at the old write position. -/
theorem cell_push_head (r : Ring α n) (a : α) : (r.push a).cell r.head = a :=
  Vector.getElem_set_self _

/-- All other cells keep their values. -/
theorem cell_push_of_ne (r : Ring α n) (a : α) {i : Fin n} (h : i ≠ r.head) :
    (r.push a).cell i = r.cell i :=
  Vector.getElem_set_ne r.head.isLt i.isLt fun hi => h (Fin.ext hi.symm)

/-- Below capacity, `push` appends its value to the queue. -/
theorem toList_push (r : Ring α n) (a : α) (hfull : r.isFull = false) :
    (r.push a).toList = r.toList ++ [a] := by
  unfold toList
  rw [count_push r a hfull, List.range_succ, List.map_append]
  congr 1
  · apply List.map_congr_left
    intro k hk
    -- The queued values are in other cells than the one that is written.
    exact r.cell_push_of_ne a (r.slot_ne_head hfull (List.mem_range.mp hk))
  · show [(r.push a).cell (offset r.tail r.count)] = [a]
    rw [← head_eq_offset, cell_push_head]

/-- Above zero, `pop` removes the value that `front` reads. -/
theorem toList_pop (r : Ring α n) (hempty : r.isEmpty = false) :
    r.toList = r.front :: r.pop.toList := by
  have hc := r.count_pop hempty
  unfold toList
  rw [← hc, List.range_succ_eq_map, List.map_cons, List.map_map]
  congr 1
  · rw [offset_zero]
    rfl
  · apply List.map_congr_left
    intro k _
    show r.cell (offset r.tail (k + 1)) = r.cell (offset (next r.tail) k)
    rw [offset_next]

end Ring

end NimbleServer.Lib
