/-
This file models the statements of `do_fault` one by one, with the pages that are allocated and mapped.
The threads of a demand-paged mapping may execute these statements in any order.
-/

import KernelStudio.Construction.Paging
import Mathlib.Logic.Function.Iterate

namespace KernelStudio.Paging.Fault

open Transition

/-- The address `fault_address & (~(PAGE_SIZE - 1))`. -/
def pageStart (faultAddress : BitVec 32) : BitVec 32 := faultAddress &&& ~~~(BitVec.ofNat 32 pageSize - 1)

/-- The results of the three calls of `do_fault`. -/
structure Calls where
  allocPage : Bool
  remapPfnRange : Int
  kmalloc : Bool
  deriving DecidableEq

/-- The pages of a demand-paged mapping. -/
structure Memory where
  /-- The number of pages that `alloc_page` has returned. -/
  pages : Nat := 0
  /-- The pages that are allocated. -/
  live : List Page := []
  /-- The address for which a page was obtained. The module does not record it. -/
  obtainedFor : Page → Option (BitVec 32) := fun _ => none
  /-- The page table of the area. -/
  mapped : List (BitVec 32 × Page) := []
  ptrToPagelist : List Page := []
  allocNumber : BitVec 32 := 0

/-- Each constructor names the next call of `do_fault` with the page that it holds, or how it has ended. -/
inductive Stage where
  | allocPage
  | remapPfnRange (aPage : Page)
  | record (aPage : Page)
  | returned (fault : VmFault)
  /-- The null pointer was dereferenced. -/
  | oops
  deriving DecidableEq

/-- The statements up to the next call. A remap that fails maps nothing. -/
def step (faultAddress : BitVec 32) (calls : Calls) : Memory × Stage → Memory × Stage
  | (memory, .allocPage) =>
      if calls.allocPage then
        ({ memory with
            pages := memory.pages + 1
            live := memory.pages :: memory.live
            obtainedFor := Function.update memory.obtainedFor memory.pages (some (pageStart faultAddress)) },
          .remapPfnRange memory.pages)
      else (memory, .returned .oom)
  | (memory, .remapPfnRange aPage) =>
      if calls.remapPfnRange = -1 then (memory, .returned .sigbus)
      else if calls.remapPfnRange = 0 then
        ({ memory with mapped := (pageStart faultAddress, aPage) :: memory.mapped }, .record aPage)
      else (memory, .record aPage)
  | (memory, .record aPage) =>
      let counted := { memory with allocNumber := memory.allocNumber + 1 }
      if calls.kmalloc then ({ counted with ptrToPagelist := aPage :: memory.ptrToPagelist }, .returned .nopage)
      -- the field `page_address` of the null pointer is written
      else (counted, .oops)
  | ended => ended

/-- The function `do_fault`, to which `paging_vma_fault` passes the address of the fault. -/
def doFault (memory : Memory) (faultAddress : BitVec 32) (calls : Calls) : Memory × Stage :=
  (step faultAddress calls)^[3] (memory, .allocPage)

/-- The pages are known, and a page of the list is allocated. -/
structure Memory.WellFormed (memory : Memory) : Prop where
  known : ∀ page ∈ memory.live, page < memory.pages
  listed : ∀ page ∈ memory.ptrToPagelist, page ∈ memory.live

/-- A call of `do_fault` for an address. -/
structure Call where
  faultAddress : BitVec 32
  stage : Stage
  deriving DecidableEq

/-- A call that has not ended. -/
def Stage.inside : Stage → Bool
  | .allocPage | .remapPfnRange _ | .record _ => true
  | .returned _ | .oops => false

/-- The latest call of each thread. -/
structure State (n : Nat) where
  memory : Memory := {}
  thread : Fin n → Option Call := fun _ => none

/-- A thread enters `do_fault` for an address or executes its statements up to the next call. -/
inductive Event (n : Nat) where
  | fault (t : Fin n) (faultAddress : BitVec 32)
  | statement (t : Fin n) (calls : Calls)
  deriving DecidableEq

/-- An address is mapped. -/
def Memory.maps (memory : Memory) (page : BitVec 32) : Bool := memory.mapped.any fun entry => entry.1 == page

/-- Some call that the thread has not left. -/
def State.busy {n : Nat} (state : State n) (t : Fin n) : Bool := (state.thread t).any fun call => call.stage.inside

def State.step {n : Nat} (state : State n) : Event n → Option (State n)
  -- the processor reports a fault only while the address is not mapped
  | .fault t faultAddress =>
      if state.busy t = false ∧ state.memory.maps (pageStart faultAddress) = false then
        some { state with thread := Function.update state.thread t (some ⟨faultAddress, .allocPage⟩) }
      else none
  | .statement t calls =>
      match state.thread t with
      | none => none
      | some call =>
          if call.stage.inside then
            let (memory, stage) := Fault.step call.faultAddress calls (state.memory, call.stage)
            some { memory, thread := Function.update state.thread t (some { call with stage }) }
          else none

/-- The threads of a new mapping. -/
def faulting (n : Nat) : Machine (State n) (Event n) where
  start state := state = {}
  step := State.step

end KernelStudio.Paging.Fault
