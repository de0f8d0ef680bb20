/-
This file models the paging module: the operations of its areas and the page lists that areas share.
The scheduler of these operations is the kernel, which also chooses how each call of its allocators ends.
-/

import KernelStudio.Library.Store
import KernelStudio.Library.Transition
import Mathlib.Algebra.GroupWithZero.Nat

namespace KernelStudio.Paging

open Transition

/-- The page size of the target. -/
def pageSize : Nat := 4096

/-- The number of page frames in a physical memory that is addressed with 32 bits. -/
def frames : Nat := 2 ^ 20

/-- The layout of the virtual memory: user addresses lie below `TASK_SIZE`, and the pages of the kernel are mapped
from `PAGE_OFFSET` on. -/
structure AddressSpace where
  taskSize : Nat
  pageOffset : Nat
  userBelowKernel : taskSize ≤ pageOffset
  fits : pageOffset < 2 ^ 32

/-- The layout of 32-bit ARM, which leaves three of four gigabytes to the user. -/
def arm : AddressSpace := ⟨0xBF000000, 0xC0000000, by decide, by decide⟩

/-- A page is named by the call of `alloc_page` that has returned it, so a frame that is used again has a new name. -/
abbrev Page := Nat

/-- A block of `2 ^ order` pages with the kernel address of its first page. -/
structure Block where
  address : Nat
  order : Nat
  deriving DecidableEq

/-- The fields of a `vm_area_struct` that the module reads. -/
structure Vma where
  vmStart : Nat
  vmEnd : Nat
  vmPrivateData : Nat
  deriving DecidableEq

/-- What has happened to a mapping. The module itself does not record it. -/
structure Mapping where
  /-- The value of `demand_paging` that `paging_mmap` has read. -/
  demandPaging : BitVec 32
  /-- The length of the area that was mapped. -/
  length : Nat
  /-- The block that `do_prepaging` has obtained. -/
  block : Option Block := none
  /-- The pages that `do_fault` has obtained. -/
  obtained : List Page := []
  /-- The number of faults whose call of `remap_pfn_range` returned `-1`. -/
  failedRemaps : Nat := 0
  deriving DecidableEq

/-- The page list is `none` as long as its head is not initialised. -/
structure PrivateData where
  reference : BitVec 32 := 1
  ptrToPagelist : Option (List Page) := none
  mapping : Mapping
  deriving DecidableEq

/-- How the last close of a mapping releases its memory. -/
inductive Release where
  | walk (ptrToPagelist : Option (List Page))
  | freePages (address order : Nat)
  deriving DecidableEq

structure Teardown where
  mapping : Mapping
  release : Release
  deriving DecidableEq

/-- The areas and private data of the kernel, with the calls that have returned memory to it. -/
structure State where
  demandPaging : BitVec 32 := 1
  allocNumber : BitVec 32 := 0
  freeNumber : BitVec 32 := 0
  vmas : List Vma := []
  privateData : Store PrivateData := .empty
  /-- The private data that were passed to `kfree`. -/
  kfreed : List Nat := []
  /-- The number of pages that `alloc_page` has returned. -/
  pages : Nat := 0
  /-- The pages that were passed to `__free_page`. -/
  freed : List Page := []
  /-- The blocks that were passed to `free_pages`. -/
  freedBlocks : List Block := []
  teardowns : List Teardown := []
  /-- The module has used a pointer that is null, freed or not initialised. -/
  crashed : Bool := false

inductive VmFault where
  | oom
  | sigbus
  | nopage
  deriving DecidableEq

/-- The number of pages that cover a length. -/
def pageNum (length : Nat) : Nat :=
  if length % pageSize ≠ 0 then length / pageSize + 1 else length / pageSize

/-- The loop that increments `order`. The fuel is the width of the shifted integer. -/
def orderLoop (pageNum : Nat) : Nat → Nat → Nat
  | 0, order => order
  | fuel + 1, order => if 1 <<< order < pageNum then orderLoop pageNum fuel (order + 1) else order

/-- The order that `do_prepaging` and `paging_vma_close` compute from the bounds of an area. -/
def orderOf (vma : Vma) : Nat := orderLoop (pageNum ((vma.vmEnd - vma.vmStart) % 2 ^ 32)) 32 0

/-- The function `do_prepaging`, for the address of the block that `alloc_pages` returns. -/
def doPrepaging (vma : Vma) (allocPages : Option Nat) (remap : Int) : VmFault × Option Block :=
  match allocPages with
  | none => (.oom, none)
  | some address => (if remap ≠ 0 then .sigbus else .nopage, some ⟨address, orderOf vma⟩)

def enomem : Int := 12

def efault : Int := 14

/-- The function `paging_mmap` with its result. -/
def pagingMmap (state : State) (vmStart vmEnd : Nat) (kmalloc : Bool) (allocPages : Option Nat) (remap : Int) :
    State × Int :=
  let vma : Vma := ⟨vmStart, vmEnd, state.privateData.size⟩
  let mapping : Mapping := { demandPaging := state.demandPaging, length := vmEnd - vmStart }
  if kmalloc then
    if state.demandPaging = 0 then
      let (fault, block) := doPrepaging vma allocPages remap
      let next := { state with privateData := state.privateData.insert { mapping := { mapping with block } } }
      match fault with
      | .oom => (next, -enomem)
      | .sigbus => (next, -efault)
      | .nopage => ({ next with vmas := vma :: state.vmas }, 0)
    else ({ state with
        privateData := state.privateData.insert { ptrToPagelist := some [], mapping }
        vmas := vma :: state.vmas }, 0)
  -- the null pointer is passed to `atomic_set`
  else ({ state with crashed := true }, 0)

/-- The function `do_fault` with its result, for an area with these private data. -/
def doFault (state : State) (key : Nat) (data : PrivateData) (allocPage : Bool) (remap : Int) (kmalloc : Bool) :
    State × VmFault :=
  if allocPage then
    let aPage := state.pages
    let mapping := { data.mapping with obtained := aPage :: data.mapping.obtained }
    if remap = -1 then
      let mapping := { mapping with failedRemaps := mapping.failedRemaps + 1 }
      ({ state with pages := aPage + 1, privateData := state.privateData.set key { data with mapping } }, .sigbus)
    else
      let counted := { state with pages := aPage + 1, allocNumber := state.allocNumber + 1 }
      match kmalloc, data.ptrToPagelist with
      | true, some list =>
          let ptrToPagelist := some (aPage :: list)
          ({ counted with privateData := state.privateData.set key { data with ptrToPagelist, mapping } }, .nopage)
      | _, _ => ({ counted with
          privateData := state.privateData.set key { data with mapping }
          crashed := true }, .nopage)
  else (state, .oom)

/-- The function `paging_vma_open`. -/
def pagingVmaOpen (state : State) (key : Nat) (data : PrivateData) : State :=
  { state with privateData := state.privateData.set key { data with reference := data.reference + 1 } }

/-- The function `paging_vma_close`. Its last call for a mapping releases memory in the mode of the moment. -/
def pagingVmaClose (state : State) (vma : Vma) (data : PrivateData) : State :=
  let key := vma.vmPrivateData
  let reference := data.reference - 1
  if reference = 0 then
    if state.demandPaging ≠ 0 then
      let teardown : Teardown := ⟨data.mapping, .walk data.ptrToPagelist⟩
      let walked := { state with teardowns := state.teardowns ++ [teardown] }
      match data.ptrToPagelist with
      | none => { walked with crashed := true }
      | some list => { walked with
          freed := state.freed ++ list
          freeNumber := state.freeNumber + BitVec.ofNat 32 list.length
          privateData := state.privateData.erase key
          kfreed := key :: state.kfreed }
    else
      let teardown : Teardown := ⟨data.mapping, .freePages vma.vmStart (orderOf vma)⟩
      { state with
        teardowns := state.teardowns ++ [teardown]
        freedBlocks := ⟨vma.vmStart, orderOf vma⟩ :: state.freedBlocks
        privateData := state.privateData.erase key
        kfreed := key :: state.kfreed }
  else { state with privateData := state.privateData.set key { data with reference } }

/-- An area is not empty and lies in the user part of the address space. -/
def Vma.Placed (space : AddressSpace) (vma : Vma) : Prop := vma.vmStart < vma.vmEnd ∧ vma.vmEnd ≤ space.taskSize

/-- Areas of one mapping belong to one address space, in which they do not overlap. -/
def Vma.Apart (vma other : Vma) : Prop :=
  vma.vmPrivateData = other.vmPrivateData → vma.vmEnd ≤ other.vmStart ∨ other.vmEnd ≤ vma.vmStart

instance (space : AddressSpace) (vma : Vma) : Decidable (vma.Placed space) := inferInstanceAs (Decidable (_ ∧ _))

instance (vma other : Vma) : Decidable (vma.Apart other) := inferInstanceAs (Decidable (_ → _))

/-- The calls of the kernel and the writes to the module parameter. The event `vmaOpen` turns an area into two, as a
split does, or keeps the first one as it is. -/
inductive PagingEvent where
  | write (value : BitVec 32)
  | mmap (vmStart vmEnd : Nat) (kmalloc : Bool) (allocPages : Option Nat) (remap : Int)
  | fault (vma : Vma) (address : Nat) (allocPage : Bool) (remap : Int) (kmalloc : Bool)
  | vmaOpen (vma kept further : Vma)
  | vmaClose (vma : Vma)
  deriving DecidableEq

/-- The areas after `vmaOpen` are placed, share their private data and overlap no area of the mapping. -/
def Opens (space : AddressSpace) (vmas : List Vma) (vma kept further : Vma) : Prop :=
  kept.vmPrivateData = vma.vmPrivateData ∧ further.vmPrivateData = vma.vmPrivateData ∧
    kept.Placed space ∧ further.Placed space ∧ further.Apart kept ∧
      ∀ other ∈ vmas.erase vma, kept.Apart other ∧ further.Apart other

instance (space : AddressSpace) (vmas : List Vma) (vma kept further : Vma) :
    Decidable (Opens space vmas vma kept further) :=
  inferInstanceAs (Decidable (_ ∧ _ ∧ _ ∧ _ ∧ _ ∧ ∀ other ∈ vmas.erase vma, _))

/-- A call for a live area finds its private data, unless they were freed. -/
def State.call (state : State) (vma : Vma) (operation : PrivateData → State) : Option State :=
  if vma ∈ state.vmas then
    match state.privateData.get vma.vmPrivateData with
    | some data => some (operation data)
    | none => some { state with crashed := true }
  else none

/-- One call of the kernel. Nothing is said about what happens after a wrong use of a pointer. -/
def State.step (space : AddressSpace) (state : State) (event : PagingEvent) : Option State :=
  if state.crashed then none
  else match event with
    | .write value => some { state with demandPaging := value }
    | .mmap vmStart vmEnd kmalloc allocPages remap =>
        -- the kernel takes the block from its own part of the address space
        if vmStart < vmEnd ∧ vmEnd ≤ space.taskSize ∧ ∀ address ∈ allocPages, space.pageOffset ≤ address then
          some (pagingMmap state vmStart vmEnd kmalloc allocPages remap).1
        else none
    | .fault vma address allocPage remap kmalloc =>
        let mapped (data : PrivateData) := data.mapping.block.isSome
        -- a prepaged mapping is mapped as a whole, so it takes no faults
        if vma.vmStart ≤ address ∧ address < vma.vmEnd ∧
            ((state.privateData.get vma.vmPrivateData).any mapped = false) ∧
            (allocPage = true → state.pages < state.freed.length + frames) then
          state.call vma fun data => (doFault state vma.vmPrivateData data allocPage remap kmalloc).1
        else none
    | .vmaOpen vma kept further =>
        if Opens space state.vmas vma kept further then
          state.call vma fun data =>
            { pagingVmaOpen state vma.vmPrivateData data with vmas := further :: kept :: state.vmas.erase vma }
        else none
    | .vmaClose vma => state.call vma fun data =>
        let closed := pagingVmaClose state vma data
        if closed.crashed then closed else { closed with vmas := state.vmas.erase vma }

/-- The module is loaded with some value of `demand_paging`. -/
def paging (space : AddressSpace) : Machine State PagingEvent where
  start state := ∃ demandPaging, state = { demandPaging }
  step := State.step space

end KernelStudio.Paging
