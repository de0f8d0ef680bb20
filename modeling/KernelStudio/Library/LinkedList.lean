/-
This file gives linked lists in a heap: a partial map from cells to their values and links.
A list is circular, so its last cell links to the head that it starts from.
-/

import Mathlib.Logic.Function.Basic

namespace KernelStudio.LinkedList

/-- A link points to the head of the list or to a cell. -/
inductive Link where
  | head
  | cell (id : Nat)
  deriving DecidableEq

structure Cell (α : Type) where
  value : α
  next : Link
  deriving DecidableEq

/-- A cell that is not allocated is not in the map. -/
abbrev Heap (α : Type) := Nat → Option (Cell α)

variable {α : Type}

/-- The cells from a link up to the head, with their values. -/
def Chain (heap : Heap α) : Link → List (Nat × α) → Prop
  | link, [] => link = .head
  | link, (id, value) :: rest => link = .cell id ∧ ∃ next, heap id = some ⟨value, next⟩ ∧ Chain heap next rest

/-- The value of a cell and its link, once it is allocated. -/
def Heap.put (heap : Heap α) (id : Nat) (cell : Cell α) : Heap α := Function.update heap id (some cell)

/-- A cell is removed. -/
def Heap.erase (heap : Heap α) (id : Nat) : Heap α := Function.update heap id none

@[simp] theorem Heap.erase_self (heap : Heap α) (id : Nat) : heap.erase id id = none := Function.update_self ..

theorem Heap.erase_other (heap : Heap α) {id other : Nat} (different : other ≠ id) :
    heap.erase id other = heap other := Function.update_of_ne different ..

variable {heap changed : Heap α} {link : Link} {chain : List (Nat × α)} {id : Nat}

/-- A chain depends on its own cells only. -/
theorem Chain.frame (linked : Chain heap link chain) (same : ∀ id ∈ chain.map Prod.fst, changed id = heap id) :
    Chain changed link chain := by
  induction chain generalizing link with
  | nil => exact linked
  | cons first rest inductionHypothesis =>
      obtain ⟨start, next, stored, later⟩ := linked
      refine ⟨start, next, ?_, inductionHypothesis later fun id member => same id (List.mem_cons_of_mem _ member)⟩
      exact (same first.1 (List.mem_cons_self ..)).trans stored

/-- A new cell in front of a list makes a longer list. -/
theorem Chain.prepend (linked : Chain heap link chain) (fresh : id ∉ chain.map Prod.fst) (value : α) :
    Chain (heap.put id ⟨value, link⟩) (.cell id) ((id, value) :: chain) := by
  refine ⟨rfl, link, Function.update_self .., linked.frame fun other member => ?_⟩
  have different : other ≠ id := fun same => fresh (same ▸ member)
  exact Function.update_of_ne different ..

end KernelStudio.LinkedList
