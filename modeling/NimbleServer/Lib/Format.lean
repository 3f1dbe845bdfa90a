import Mathlib

/-!
# `NimbleServer.Lib.Format`: sequences of encoded values

A decoder reads a value from the front of a list of symbols and returns the rest. It is the
inverse of an encoder on a value if it reads back what the encoder wrote, whatever follows.
`decodeMany` reads a given number of values. If the decoder is the inverse of the encoder on
each value of a list, then `decodeMany` is the inverse of writing the values one after the
other (`decodeMany_flatMap`).
-/

set_option autoImplicit false

namespace NimbleServer.Lib

variable {α Symbol : Type}

/-- The decoder reads back what the encoder wrote for this value. -/
def ReadsBack (encode : α → List Symbol) (decode : List Symbol → Option (α × List Symbol))
    (a : α) : Prop :=
  ∀ rest, decode (encode a ++ rest) = some (a, rest)

/-- Decode `count` values, one after the other. -/
def decodeMany (decode : List Symbol → Option (α × List Symbol)) :
    (count : Nat) → List Symbol → Option (List α × List Symbol)
  | 0, symbols => some ([], symbols)
  | count + 1, symbols => do
    let (a, symbols) ← decode symbols
    let (l, symbols) ← decodeMany decode count symbols
    return (a :: l, symbols)

/-- Values that were written one after the other are read back. Induction on the values. -/
theorem decodeMany_flatMap {encode : α → List Symbol}
    {decode : List Symbol → Option (α × List Symbol)} (l : List α)
    (h : ∀ a ∈ l, ReadsBack encode decode a) (rest : List Symbol) :
    decodeMany decode l.length (l.flatMap encode ++ rest) = some (l, rest) := by
  induction l with
  | nil => rfl
  | cons a l ih =>
    -- The first value is read back from whatever follows it, here the other values.
    have ha := h a List.mem_cons_self (l.flatMap encode ++ rest)
    have hl := ih fun b hb => h b (List.mem_cons_of_mem a hb)
    rw [List.flatMap_cons, List.append_assoc, List.length_cons]
    show (decode _ >>= _) = _
    rw [ha]
    show (decodeMany decode l.length _ >>= _) = _
    rw [hl]
    rfl

end NimbleServer.Lib
