/-
This file models the page list of a mapping as linked cells, and the loop of `paging_vma_close` that releases it.
-/

import KernelStudio.Construction.Paging
import KernelStudio.Library.LinkedList

namespace KernelStudio.Paging.PageList

open LinkedList

/-- The cells of the page lists with what was returned to the kernel. -/
structure Memory where
  heap : Heap Page
  /-- The pages that were passed to `__free_page`. -/
  freed : List Page := []
  /-- The cells that were passed to `kfree`. -/
  kfreed : List Nat := []
  freeNumber : BitVec 32 := 0

/-- The call of `list_add` in `do_fault`, for the cell that `kmalloc` has returned and the first link of the list. -/
def listAdd (memory : Memory) (first : Link) (cell : Nat) (aPage : Page) : Memory × Link :=
  ({ memory with heap := memory.heap.put cell ⟨aPage, first⟩ }, .cell cell)

/-- How a walk has ended: at the head, at a read of a cell that is not in the heap, or nowhere so far. -/
inductive WalkEnd where
  | head
  | lost (id : Nat)
  | walking
  deriving DecidableEq

/-- The body of the loop frees the page, counts it and frees the cell. -/
def Memory.release (memory : Memory) (id : Nat) (aPage : Page) : Memory where
  heap := memory.heap.erase id
  freed := memory.freed ++ [aPage]
  kfreed := memory.kfreed ++ [id]
  freeNumber := memory.freeNumber + 1

/-- The loop `list_for_each_entry` of `paging_vma_close` from a link on, for so many rounds at most. The first argument
says what a read of the link of a cell finds. -/
def releaseLoop (readNext : Heap Page → Nat → Option Link) : Nat → Link → Memory → Memory × WalkEnd
  | _, .head, memory => (memory, .head)
  | 0, .cell _, memory => (memory, .walking)
  | rounds + 1, .cell id, memory =>
      match memory.heap id with
      | none => (memory, .lost id)
      | some cell =>
          let released := memory.release id cell.value
          -- the link is read after the body, from the cell that the body has freed
          match readNext released.heap id with
          | none => (released, .lost id)
          | some next => releaseLoop readNext rounds next released

/-- A read finds the link of a cell that is in the heap. -/
def liveNext (heap : Heap Page) (id : Nat) : Option Link := (heap id).map Cell.next

/-- On an allocator that leaves the content of freed cells alone, a read finds the link that the cell had before. -/
def staleNext (before : Heap Page) : Heap Page → Nat → Option Link := fun _ id => (before id).map Cell.next

end KernelStudio.Paging.PageList
