/-
This file develops loops that write one cell for each of their items, and loops that compare these cells again.
The comparison finds exactly the items whose cells have changed, provided that no two items share a cell.
-/

import Mathlib.Data.List.Nodup
import Mathlib.Logic.Function.Basic

namespace KernelStudio.Sweep

variable {ι α β : Type}

/-- The loop that writes the cell of each item. -/
def fill [DecidableEq α] (address : ι → α) (value : ι → β) (items : List ι) (memory : α → β) : α → β :=
  items.foldl (fun memory item => Function.update memory (address item) (value item)) memory

/-- The items whose cells do not hold what the first loop has written. -/
def mismatches [DecidableEq β] (address : ι → α) (value : ι → β) (items : List ι) (memory : α → β) : List ι :=
  items.filter fun item => memory (address item) ≠ value item

section Fill

variable [DecidableEq α] (address : ι → α) (value : ι → β)

theorem fill_outside {items : List ι} {cell : α} (outside : ∀ item ∈ items, address item ≠ cell) (memory : α → β) :
    fill address value items memory cell = memory cell := by
  induction items generalizing memory with
  | nil => rfl
  | cons item rest inductionHypothesis =>
      have other : cell ≠ address item := (outside item List.mem_cons_self).symm
      have later := inductionHypothesis (fun item member => outside item (List.mem_cons_of_mem _ member))
        (Function.update memory (address item) (value item))
      exact later.trans (Function.update_of_ne other _ _)

/-- After the loop every item finds its own value, provided that no two items share a cell. -/
theorem fill_inside {items : List ι} (apart : ∀ item ∈ items, ∀ other ∈ items, address item = address other →
    item = other) {item : ι} (member : item ∈ items) (memory : α → β) :
    fill address value items memory (address item) = value item := by
  induction items generalizing memory with
  | nil => cases member
  | cons first rest inductionHypothesis =>
      have restApart : ∀ item ∈ rest, ∀ other ∈ rest, address item = address other → item = other :=
        fun item inside other also => apart item (List.mem_cons_of_mem _ inside) other (List.mem_cons_of_mem _ also)
      by_cases later : item ∈ rest
      · exact inductionHypothesis restApart later _
      · obtain rfl : item = first := (List.mem_cons.1 member).resolve_right later
        have untouched : ∀ other ∈ rest, address other ≠ address item := by
          intro other inside same
          have equal := apart other (List.mem_cons_of_mem _ inside) item member same
          exact later (equal ▸ inside)
        exact (fill_outside address value untouched _).trans (Function.update_self _ _ _)

end Fill

section Mismatches

variable [DecidableEq β] (address : ι → α) (value : ι → β)

theorem mismatches_nil {items : List ι} {memory : α → β} (same : ∀ item ∈ items, memory (address item) = value item) :
    mismatches address value items memory = [] := by
  refine List.filter_eq_nil_iff.2 fun item member => ?_
  simpa using same item member

/-- One changed cell is found once. -/
theorem mismatches_one {items : List ι} (nodup : items.Nodup) {memory : α → β} {item : ι} (member : item ∈ items)
    (changed : memory (address item) ≠ value item)
    (same : ∀ other ∈ items, other ≠ item → memory (address other) = value other) :
    mismatches address value items memory = [item] := by
  obtain ⟨before, after, rfl⟩ := List.append_of_mem member
  have distinct := List.nodup_append.1 nodup
  have inBefore : mismatches address value before memory = [] :=
    mismatches_nil address value fun other inside => same other (List.mem_append_left _ inside)
      (distinct.2.2 other inside item List.mem_cons_self)
  have inAfter : mismatches address value after memory = [] :=
    mismatches_nil address value fun other inside => same other (by simp [inside])
      fun equal => (List.nodup_cons.1 distinct.2.1).1 (equal ▸ inside)
  unfold mismatches at inBefore inAfter ⊢
  rw [List.filter_append, List.filter_cons_of_pos (by simpa using changed), inBefore, inAfter]
  rfl

end Mismatches

/-- The item list of two nested loops. -/
def pairs (count : ℕ) (inner : List ι) : List (ℕ × ι) := (List.range count).flatMap fun i => inner.map (Prod.mk i)

@[simp] theorem mem_pairs {count : ℕ} {inner : List ι} {item : ℕ × ι} :
    item ∈ pairs count inner ↔ item.1 < count ∧ item.2 ∈ inner := by
  obtain ⟨i, rest⟩ := item
  simp [pairs]

theorem nodup_pairs (count : ℕ) {inner : List ι} (nodup : inner.Nodup) : (pairs count inner).Nodup := by
  refine List.nodup_flatMap.2 ⟨fun i _ => nodup.map fun _ _ same => (Prod.mk.inj same).2, ?_⟩
  refine List.nodup_range.imp fun {i j} different item inFirst inSecond => ?_
  obtain ⟨_, _, rfl⟩ := List.mem_map.1 inFirst
  obtain ⟨_, _, same⟩ := List.mem_map.1 inSecond
  exact different (Prod.mk.inj same).1.symm

@[simp] theorem length_pairs (count : ℕ) (inner : List ι) : (pairs count inner).length = count * inner.length := by
  simp [pairs, List.length_flatMap]

/-- Two nested loops are one loop through their item list. -/
theorem foldl_pairs {σ : Type} (body : σ → ℕ × ι → σ) (count : ℕ) (inner : List ι) (state : σ) :
    (pairs count inner).foldl body state =
      (List.range count).foldl (fun state i => inner.foldl (fun state rest => body state (i, rest)) state) state := by
  simp [pairs, List.foldl_flatMap, List.foldl_map]

end KernelStudio.Sweep
