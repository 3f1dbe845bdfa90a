import Mathlib

/-!
# `NimbleServer.Lib.SuffixSums`: a level that is held at zero

A level moves by the steps of a list and is held at zero when it would go below. Its value
after the last step is the greatest sum of a suffix of the list, the empty suffix included
(`isGreatest_reflected`): the level forgets everything before the moment it was last at zero.
-/

set_option autoImplicit false

namespace NimbleServer.Lib

variable {α : Type} [AddCommMonoid α]

/-- The sums of the suffixes of a list. -/
def suffixSums (steps : List α) : Set α :=
  {total | ∃ suffix, suffix <:+ steps ∧ suffix.sum = total}

/-- A suffix is empty or ends with the last step. -/
theorem mem_suffixSums_concat {steps : List α} {step total : α} :
    total ∈ suffixSums (steps ++ [step]) ↔
      total = 0 ∨ ∃ earlier ∈ suffixSums steps, earlier + step = total := by
  constructor
  · rintro ⟨suffix, hsuffix, rfl⟩
    -- Either nothing is left, or the suffix ends with the new step.
    rcases List.suffix_concat_iff.mp hsuffix with rfl | ⟨rest, rfl, hrest⟩
    · exact .inl rfl
    · exact .inr ⟨rest.sum, ⟨rest, hrest, rfl⟩, by rw [List.sum_append, List.sum_singleton]⟩
  · rintro (rfl | ⟨_, ⟨suffix, hsuffix, rfl⟩, rfl⟩)
    · exact ⟨[], List.nil_suffix, rfl⟩
    · refine ⟨suffix ++ [step], List.suffix_concat_iff.mpr (.inr ⟨suffix, rfl, hsuffix⟩), ?_⟩
      rw [List.sum_append, List.sum_singleton]

variable [LinearOrder α]

/-- The level after the steps, oldest first. -/
def reflected (steps : List α) : α :=
  steps.foldl (fun level step => max 0 (level + step)) 0

/-- The level after one more step. -/
@[simp] theorem reflected_concat (steps : List α) (step : α) :
    reflected (steps ++ [step]) = max 0 (reflected steps + step) := by
  rw [reflected, List.foldl_append]
  rfl

variable [IsOrderedAddMonoid α]

/-- Induction from the right: the last step moves every suffix that ends with it. -/
theorem isGreatest_reflected (steps : List α) :
    IsGreatest (suffixSums steps) (reflected steps) := by
  induction steps using List.reverseRecOn with
  | nil =>
    refine ⟨⟨[], List.nil_suffix, rfl⟩, ?_⟩
    rintro _ ⟨suffix, hsuffix, rfl⟩
    rw [List.suffix_nil.mp hsuffix]
    exact le_refl 0
  | append_singleton steps step ih =>
    rw [reflected_concat]
    constructor
    · rw [mem_suffixSums_concat]
      -- The level is attained: at the floor by the empty suffix, above it by the old one and the
      -- step.
      rcases max_choice 0 (reflected steps + step) with h | h
      · exact .inl h
      · exact .inr ⟨reflected steps, ih.1, h.symm⟩
    · intro total htotal
      rcases mem_suffixSums_concat.mp htotal with rfl | ⟨earlier, hearlier, rfl⟩
      · exact le_max_left _ _
      · -- The new step moves every earlier total by the same amount.
        have hle : earlier ≤ reflected steps := ih.2 hearlier
        exact le_max_of_le_right (add_le_add_left hle step)

end NimbleServer.Lib
