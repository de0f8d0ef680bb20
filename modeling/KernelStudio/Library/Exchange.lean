/-
This file gives arrays as functions of their indices and what exchanges of two entries leave of them.
Whatever the exchanges are, the entries at a set of indices that they stay inside are only rearranged.
-/

import Mathlib.Data.List.Nodup
import Mathlib.Data.List.Perm.Basic
import Mathlib.Logic.Equiv.Basic

namespace KernelStudio.Exchange

variable {ι α : Type} {indices : List ι}

section Swap

variable [DecidableEq ι]

/-- The entries at two indices are exchanged. -/
def swapped (array : ι → α) (first second : ι) : ι → α := array ∘ Equiv.swap first second

/-- An exchange written with a temporary variable. -/
theorem swapped_eq_update (array : ι → α) (first second : ι) :
    Function.update (Function.update array first (array second)) second (array first) =
      swapped array first second := by
  funext index
  by_cases last : index = second
  · rw [last, Function.update_self, swapped, Function.comp_apply, Equiv.swap_apply_right]
  · rw [Function.update_of_ne last]
    by_cases start : index = first
    · rw [start, Function.update_self, swapped, Function.comp_apply, Equiv.swap_apply_left]
    · rw [Function.update_of_ne start, swapped, Function.comp_apply, Equiv.swap_apply_of_ne_of_ne start last]

/-- A swap of two members rearranges a list without duplicates. -/
theorem map_swap_perm (distinct : indices.Nodup) {first second : ι} (firstInside : first ∈ indices)
    (secondInside : second ∈ indices) : (indices.map (Equiv.swap first second)).Perm indices := by
  have member {index : ι} (inside : index ∈ indices) : Equiv.swap first second index ∈ indices := by
    by_cases start : index = first
    · rwa [start, Equiv.swap_apply_left]
    · by_cases last : index = second
      · rwa [last, Equiv.swap_apply_right]
      · rwa [Equiv.swap_apply_of_ne_of_ne start last]
  apply (List.perm_ext_iff_of_nodup (List.Nodup.map (Equiv.injective _) distinct) distinct).2
  intro index
  rw [List.mem_map]
  constructor
  · rintro ⟨source, inside, rfl⟩
    exact member inside
  · intro inside
    exact ⟨Equiv.swap first second index, member inside, Equiv.swap_apply_self _ _ _⟩

/-- An exchange inside the indices rearranges their entries. -/
theorem swapped_perm (distinct : indices.Nodup) {first second : ι} (firstInside : first ∈ indices)
    (secondInside : second ∈ indices) (array : ι → α) :
    (indices.map (swapped array first second)).Perm (indices.map array) := by
  rw [swapped, ← List.map_map]
  exact (map_swap_perm distinct firstInside secondInside).map array

end Swap

/-- Steps that rearrange the entries at some indices and keep the others do so together. -/
theorem foldl_perm {κ : Type} (step : (ι → α) → κ → ι → α) (labels : List κ)
    (rearranges : ∀ label ∈ labels, ∀ array, (indices.map (step array label)).Perm (indices.map array) ∧
      ∀ index ∉ indices, step array label index = array index) (array : ι → α) :
    (indices.map (labels.foldl step array)).Perm (indices.map array) ∧
      ∀ index ∉ indices, labels.foldl step array index = array index := by
  induction labels generalizing array with
  | nil => exact ⟨List.Perm.refl _, fun _ _ => rfl⟩
  | cons label rest inductionHypothesis =>
      obtain ⟨perm, kept⟩ := rearranges label List.mem_cons_self array
      obtain ⟨laterPerm, laterKept⟩ :=
        inductionHypothesis (fun label member => rearranges label (List.mem_cons_of_mem _ member)) (step array label)
      exact ⟨laterPerm.trans perm, fun index outside => (laterKept index outside).trans (kept index outside)⟩

end KernelStudio.Exchange
