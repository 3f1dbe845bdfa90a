import Mathlib

/-!
# `NimbleServer.Lib.Fitting`: records in a bounded buffer

A buffer has a capacity, and parts are appended to it one after the other. A part that does
not fit is passed over, and the parts after it are tried all the same (`writeParts`). A
*record* is a symbol and the parts that belong to it. Only the symbol is checked: if there
is no room for it, the writing of records fails (`writeRecords`).

So there are three outcomes, and which one it is depends on the sizes alone:

* everything fits, and the buffer holds all symbols of all records in order
  (`writeRecords_eq_append_iff`);
* the buffer is full exactly when a record is due, and the writing fails
  (`writeRecords_eq_none_iff`);
* otherwise the writing succeeds and parts are missing.
-/

set_option autoImplicit false

namespace NimbleServer.Lib

variable {α : Type}

/-! ### Parts -/

/-- The buffer after one part. -/
def writePart (capacity : Nat) (buffer part : List α) : List α :=
  if buffer.length + part.length ≤ capacity then buffer ++ part else buffer

/-- The buffer after a list of parts. -/
def writeParts (capacity : Nat) (buffer : List α) (parts : List (List α)) : List α :=
  parts.foldl (writePart capacity) buffer

/-- The length of the buffer after parts of the given sizes. -/
def fill (capacity length : Nat) (sizes : List Nat) : Nat :=
  sizes.foldl (fun length size => if length + size ≤ capacity then length + size else length)
    length

/-- The length after a part depends on the lengths alone. -/
theorem length_writePart (capacity : Nat) (buffer part : List α) :
    (writePart capacity buffer part).length
      = if buffer.length + part.length ≤ capacity then buffer.length + part.length
        else buffer.length := by
  unfold writePart
  split
  · exact List.length_append
  · rfl

/-- So does the length after a list of parts: `fill` computes it without the symbols. -/
theorem length_writeParts (capacity : Nat) (buffer : List α) (parts : List (List α)) :
    (writeParts capacity buffer parts).length
      = fill capacity buffer.length (parts.map List.length) := by
  induction parts generalizing buffer with
  | nil => rfl
  | cons part parts ih =>
    show (writeParts capacity (writePart capacity buffer part) parts).length = _
    rw [ih, length_writePart]
    rfl

/-- Writing never leaves the buffer. -/
theorem fill_le {capacity length : Nat} (sizes : List Nat) (h : length ≤ capacity) :
    fill capacity length sizes ≤ capacity := by
  induction sizes generalizing length with
  | nil => exact h
  | cons size sizes ih =>
    refine ih ?_
    dsimp only
    split
    · assumption
    · exact h

/-- Writing never takes anything back. -/
theorem le_fill (capacity length : Nat) (sizes : List Nat) :
    length ≤ fill capacity length sizes := by
  induction sizes generalizing length with
  | nil => exact Nat.le_refl length
  | cons size sizes ih =>
    refine Nat.le_trans ?_ (ih _)
    dsimp only
    split
    · exact Nat.le_add_right length size
    · exact Nat.le_refl length

/-- Parts that fit together are all written. -/
theorem writeParts_of_le {capacity : Nat} {buffer : List α} {parts : List (List α)}
    (h : buffer.length + parts.flatten.length ≤ capacity) :
    writeParts capacity buffer parts = buffer ++ parts.flatten := by
  induction parts generalizing buffer with
  | nil => simp [writeParts]
  | cons part parts ih =>
    rw [List.flatten_cons, List.length_append] at h
    have hpart : writePart capacity buffer part = buffer ++ part := if_pos (by omega)
    show writeParts capacity (writePart capacity buffer part) parts = _
    rw [hpart, ih (by rw [List.length_append]; omega)]
    simp

/-! ### Records -/

/-- A symbol that has to fit, and the parts after it. -/
structure Record (α : Type) where
  first : α
  rest : List (List α)

namespace Record

/-- The parts of a record, its first symbol included. -/
def parts (record : Record α) : List (List α) := [record.first] :: record.rest

/-- All symbols of a record in order. -/
def symbols (record : Record α) : List α := record.parts.flatten

/-- The sizes of the parts of a record. -/
def sizes (record : Record α) : List Nat := record.parts.map List.length

end Record

/-- A record is started only if its first symbol fits. -/
def writeRecord (capacity : Nat) (buffer : List α) (record : Record α) : Option (List α) :=
  if buffer.length < capacity then some (writeParts capacity buffer record.parts) else none

/-- The buffer after a list of records, or `none` if one of them cannot be started. -/
def writeRecords (capacity : Nat) : List α → List (Record α) → Option (List α)
  | buffer, [] => some buffer
  | buffer, record :: records =>
    (writeRecord capacity buffer record).bind fun buffer => writeRecords capacity buffer records

/-- The buffer is full when one of the records is due. -/
def FullBefore (capacity : Nat) : Nat → List (Record α) → Prop
  | _, [] => False
  | length, record :: records =>
    length = capacity ∨ FullBefore capacity (fill capacity length record.sizes) records

/-- Which records find a full buffer can be computed from the sizes. -/
instance FullBefore.decidable (capacity : Nat) :
    (length : Nat) → (records : List (Record α)) →
      Decidable (FullBefore capacity length records)
  | _, [] => inferInstanceAs (Decidable False)
  | length, record :: records =>
    have := FullBefore.decidable capacity (fill capacity length record.sizes) records
    inferInstanceAs (Decidable (_ ∨ _))

/-- Writing fails exactly if the buffer is full when a record is due. Induction on the
records. -/
theorem writeRecords_eq_none_iff {capacity : Nat} {buffer : List α} {records : List (Record α)}
    (h : buffer.length ≤ capacity) :
    writeRecords capacity buffer records = none ↔ FullBefore capacity buffer.length records := by
  induction records generalizing buffer with
  | nil => simp [writeRecords, FullBefore]
  | cons record records ih =>
    have hlength : (writeParts capacity buffer record.parts).length
        = fill capacity buffer.length record.sizes := length_writeParts _ _ _
    unfold writeRecords writeRecord FullBefore
    by_cases hroom : buffer.length < capacity
    · rw [if_pos hroom, ← hlength]
      show writeRecords capacity (writeParts capacity buffer record.parts) records = none ↔ _
      rw [ih (hlength ▸ fill_le _ h)]
      -- There is room for the first symbol, so it is up to the records after this one.
      exact (or_iff_right (Nat.ne_of_lt hroom)).symm
    · rw [if_neg hroom]
      simp only [Option.bind_none, true_iff]
      exact .inl (by omega)

/-- What was written is all the parts that fit. -/
theorem writeRecords_eq_some {capacity : Nat} {buffer result : List α}
    {records : List (Record α)} (h : writeRecords capacity buffer records = some result) :
    result = writeParts capacity buffer (records.flatMap Record.parts) := by
  induction records generalizing buffer with
  | nil => exact (Option.some.inj h).symm
  | cons record records ih =>
    obtain ⟨next, hnext, hrest⟩ := Option.bind_eq_some_iff.mp h
    unfold writeRecord at hnext
    split at hnext
    · rw [ih hrest, ← Option.some.inj hnext, List.flatMap_cons]
      -- The parts of this record and of the rest are one list of parts.
      exact List.foldl_append.symm
    · cases hnext

/-- Nothing is missing exactly if there is room for everything. -/
theorem writeRecords_eq_append_iff {capacity : Nat} {buffer : List α}
    {records : List (Record α)} (h : buffer.length ≤ capacity) :
    writeRecords capacity buffer records = some (buffer ++ records.flatMap Record.symbols) ↔
      buffer.length + (records.flatMap Record.symbols).length ≤ capacity := by
  constructor
  · intro hall
    -- The buffer cannot hold more than its capacity, and here it holds everything.
    have hlength := congrArg List.length (writeRecords_eq_some hall)
    rw [length_writeParts, List.length_append] at hlength
    rw [hlength]
    exact fill_le _ h
  · intro hfits
    induction records generalizing buffer with
    | nil => simp [writeRecords]
    | cons record records ih =>
      rw [List.flatMap_cons, List.length_append] at hfits
      have hparts : writeParts capacity buffer record.parts = buffer ++ record.symbols :=
        writeParts_of_le (by unfold Record.symbols at hfits; omega)
      -- A record has at least its first symbol, so if all of it fits, it can be started.
      have hfirst : 0 < record.symbols.length := by
        simp [Record.symbols, Record.parts]
      unfold writeRecords writeRecord
      rw [if_pos (by omega), hparts]
      show writeRecords capacity (buffer ++ record.symbols) records = _
      rw [ih (by rw [List.length_append]; omega) (by rw [List.length_append]; omega)]
      simp

end NimbleServer.Lib
