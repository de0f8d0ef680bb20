/-
This file gives runs of updates that commute with each other and undo themselves.
Such a run undoes itself as a whole, however often the updates meet at one place.
-/

import Mathlib.Data.List.Fold
import Mathlib.Logic.Function.Iterate
import Mathlib.Logic.OpClass

namespace KernelStudio.Updates

section Runs

variable {σ ι : Type} (update : σ → ι → σ) [RightCommutative update]

/-- An update may be moved to the front of a run. -/
theorem update_foldl (state : σ) (item : ι) (items : List ι) :
    update (items.foldl update state) item = items.foldl update (update state item) := by
  induction items generalizing state with
  | nil => rfl
  | cons first rest ih =>
      have exchanged : update (update state first) item = update (update state item) first :=
        RightCommutative.right_comm state first item
      rw [List.foldl_cons, ih, exchanged, List.foldl_cons]

/-- A run of updates that undo themselves undoes itself. -/
theorem foldl_involutive (undoes : ∀ item, Function.Involutive (update · item)) (items : List ι) :
    Function.Involutive (items.foldl update ·) := by
  intro state
  induction items generalizing state with
  | nil => rfl
  | cons first rest ih =>
      dsimp only at ih ⊢
      have undone : update (update state first) first = state := undoes first state
      rw [List.foldl_cons, List.foldl_cons, update_foldl update, undone, ih]

end Runs

variable {α β : Type} {size : Nat} (combine : α → β → α)

/-- The entry of an item's place is combined with the item's value. -/
def combineAt (table : Vector α size) (item : Fin size × β) : Vector α size :=
  table.set item.1 (combine table[item.1] item.2)

/-- Updates of a table commute when the operation does, also at one entry. -/
instance [RightCommutative combine] :
    RightCommutative (combineAt combine : Vector α size → Fin size × β → Vector α size) where
  right_comm table first second := by
    by_cases same : first.1 = second.1
    · have exchanged : combine (combine table[first.1] first.2) second.2 =
          combine (combine table[first.1] second.2) first.2 := RightCommutative.right_comm _ first.2 second.2
      simp only [Fin.getElem_fin] at exchanged
      simp [combineAt, ← same, exchanged]
    · have apart : (first.1 : Nat) ≠ second.1 := fun equal => same (Fin.ext equal)
      simp [combineAt, apart, Ne.symm apart, Vector.set_comm _ _ apart]

/-- An update of a table undoes itself when the operation does. -/
theorem combineAt_involutive (undoes : ∀ value, Function.Involutive (combine · value))
    (item : Fin size × β) : Function.Involutive (combineAt combine · item) := by
  intro table
  have back : combine (combine table[item.1] item.2) item.2 = table[item.1] := undoes item.2 table[item.1]
  simp only [Fin.getElem_fin] at back
  simp [combineAt, back]

end KernelStudio.Updates
