/-
This file gives the counting argument of a barrier: a counter holds the number of participants that have not arrived.
-/

import Mathlib.Data.Fintype.Card
import Mathlib.Data.Finset.Card

namespace KernelStudio.Barrier

variable {ι : Type} [Fintype ι]

/-- The number of participants that have not arrived. -/
def missing (arrived : ι → Bool) : Nat := (Finset.univ.filter fun i => arrived i = false).card

/-- Nobody is missing when all have arrived. -/
theorem missing_eq_zero_iff {arrived : ι → Bool} : missing arrived = 0 ↔ ∀ i, arrived i = true := by
  simp [missing, Finset.filter_eq_empty_iff]

/-- An arrival leaves one participant less. -/
theorem missing_arrive [DecidableEq ι] {before after : ι → Bool} {i : ι} (out : before i = false)
    (arrives : after i = true)
    (same : ∀ other, other ≠ i → after other = before other) : missing before = missing after + 1 := by
  have split : (Finset.univ.filter fun other => before other = false) =
      insert i (Finset.univ.filter fun other => after other = false) := by
    ext other
    by_cases own : other = i
    · simp [own, out]
    · simp [own, same other own]
  rw [missing, missing, split, Finset.card_insert_of_notMem (by simp [arrives])]

end KernelStudio.Barrier
