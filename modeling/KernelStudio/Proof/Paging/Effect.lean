/-
This file lists what a call of the kernel can do to the paging module.
Each invariant of the module follows from this list and does not unfold the operations again.
-/

import KernelStudio.Construction.Paging
import KernelStudio.Library.Sharing
import Mathlib.Order.Bounds.Basic

namespace KernelStudio.Paging

open Transition Sharing

/-- The record of a new mapping. -/
def State.record (state : State) (vmStart vmEnd : Nat) (block : Option Block) : Mapping :=
  { demandPaging := state.demandPaging, length := vmEnd - vmStart, block }

/-- The calls that use the private data of an area. -/
inductive Uses (vma : Vma) : PagingEvent → Prop where
  | fault (address : Nat) (allocPage : Bool) (remap : Int) (kmalloc : Bool) :
      Uses vma (.fault vma address allocPage remap kmalloc)
  | vmaOpen (kept further : Vma) : Uses vma (.vmaOpen vma kept further)
  | vmaClose : Uses vma (.vmaClose vma)

/-- Each constructor is one outcome of a call, with what the call has tested. -/
inductive Effect (space : AddressSpace) (state : State) : PagingEvent → State → Prop where
  | write (value : BitVec 32) : Effect space state (.write value) { state with demandPaging := value }
  | nullData {vmStart vmEnd : Nat} {allocPages : Option Nat} {remap : Int} :
      Effect space state (.mmap vmStart vmEnd false allocPages remap) { state with crashed := true }
  | refused {vmStart vmEnd : Nat} {allocPages : Option Nat} {remap : Int} (block : Option Block) :
      state.demandPaging = 0 → allocPages = none ∨ remap ≠ 0 →
      Effect space state (.mmap vmStart vmEnd true allocPages remap)
        { state with privateData := state.privateData.insert { mapping := state.record vmStart vmEnd block } }
  | prepaged {vmStart vmEnd : Nat} (address : Nat) (vma : Vma) :
      vma = ⟨vmStart, vmEnd, state.privateData.size⟩ → state.demandPaging = 0 → vma.Placed space →
      space.pageOffset ≤ address →
      Effect space state (.mmap vmStart vmEnd true (some address) 0)
        { state with
          privateData := state.privateData.insert
            { mapping := state.record vmStart vmEnd (some ⟨address, orderOf vma⟩) }
          vmas := vma :: state.vmas }
  | mapped {vmStart vmEnd : Nat} {allocPages : Option Nat} {remap : Int} (vma : Vma) :
      vma = ⟨vmStart, vmEnd, state.privateData.size⟩ → state.demandPaging ≠ 0 → vma.Placed space →
      Effect space state (.mmap vmStart vmEnd true allocPages remap)
        { state with
          privateData := state.privateData.insert
            { ptrToPagelist := some [], mapping := state.record vmStart vmEnd none }
          vmas := vma :: state.vmas }
  | dangling {event : PagingEvent} (vma : Vma) : Uses vma event → vma ∈ state.vmas →
      state.privateData.get vma.vmPrivateData = none → Effect space state event { state with crashed := true }
  | noPage {vma : Vma} {address : Nat} {remap : Int} {kmalloc : Bool} :
      Effect space state (.fault vma address false remap kmalloc) state
  | remapFails {vma : Vma} {address : Nat} {kmalloc : Bool} (data : PrivateData) : vma ∈ state.vmas →
      state.privateData.get vma.vmPrivateData = some data → data.mapping.block = none →
      state.pages < state.freed.length + frames →
      Effect space state (.fault vma address true (-1) kmalloc)
        { state with
          pages := state.pages + 1
          privateData := state.privateData.set vma.vmPrivateData { data with mapping := { data.mapping with
            obtained := state.pages :: data.mapping.obtained, failedRemaps := data.mapping.failedRemaps + 1 } } }
  | recorded {vma : Vma} {address : Nat} {remap : Int} (data : PrivateData) (list : List Page) :
      vma ∈ state.vmas → state.privateData.get vma.vmPrivateData = some data → data.ptrToPagelist = some list →
      remap ≠ -1 → state.pages < state.freed.length + frames →
      Effect space state (.fault vma address true remap true)
        { state with
          pages := state.pages + 1
          allocNumber := state.allocNumber + 1
          privateData := state.privateData.set vma.vmPrivateData { data with
            ptrToPagelist := some (state.pages :: list)
            mapping := { data.mapping with obtained := state.pages :: data.mapping.obtained } } }
  | unrecorded {vma : Vma} {address : Nat} {remap : Int} {kmalloc : Bool} (data : PrivateData) :
      vma ∈ state.vmas → state.privateData.get vma.vmPrivateData = some data → data.mapping.block = none →
      kmalloc = false ∨ data.ptrToPagelist = none →
      Effect space state (.fault vma address true remap kmalloc)
        { state with
          pages := state.pages + 1
          allocNumber := state.allocNumber + 1
          privateData := state.privateData.set vma.vmPrivateData { data with
            mapping := { data.mapping with obtained := state.pages :: data.mapping.obtained } }
          crashed := true }
  | opened {vma kept further : Vma} (data : PrivateData) : vma ∈ state.vmas →
      state.privateData.get vma.vmPrivateData = some data → Opens space state.vmas vma kept further →
      Effect space state (.vmaOpen vma kept further)
        { state with
          privateData := state.privateData.set vma.vmPrivateData { data with reference := data.reference + 1 }
          vmas := further :: kept :: state.vmas.erase vma }
  | closed {vma : Vma} (data : PrivateData) : vma ∈ state.vmas →
      state.privateData.get vma.vmPrivateData = some data → data.reference ≠ 1 →
      Effect space state (.vmaClose vma)
        { state with
          privateData := state.privateData.set vma.vmPrivateData { data with reference := data.reference - 1 }
          vmas := state.vmas.erase vma }
  | lost {vma : Vma} (data : PrivateData) : vma ∈ state.vmas →
      state.privateData.get vma.vmPrivateData = some data → data.reference = 1 → state.demandPaging ≠ 0 →
      data.ptrToPagelist = none →
      Effect space state (.vmaClose vma)
        { state with teardowns := state.teardowns ++ [⟨data.mapping, .walk none⟩], crashed := true }
  | walked {vma : Vma} (data : PrivateData) (list : List Page) : vma ∈ state.vmas →
      state.privateData.get vma.vmPrivateData = some data → data.reference = 1 → state.demandPaging ≠ 0 →
      data.ptrToPagelist = some list →
      Effect space state (.vmaClose vma)
        { state with
          teardowns := state.teardowns ++ [⟨data.mapping, .walk (some list)⟩]
          freed := state.freed ++ list
          freeNumber := state.freeNumber + BitVec.ofNat 32 list.length
          privateData := state.privateData.erase vma.vmPrivateData
          kfreed := vma.vmPrivateData :: state.kfreed
          vmas := state.vmas.erase vma }
  | freed {vma : Vma} (data : PrivateData) : vma ∈ state.vmas →
      state.privateData.get vma.vmPrivateData = some data → data.reference = 1 → state.demandPaging = 0 →
      Effect space state (.vmaClose vma)
        { state with
          teardowns := state.teardowns ++ [⟨data.mapping, .freePages vma.vmStart (orderOf vma)⟩]
          freedBlocks := ⟨vma.vmStart, orderOf vma⟩ :: state.freedBlocks
          privateData := state.privateData.erase vma.vmPrivateData
          kfreed := vma.vmPrivateData :: state.kfreed
          vmas := state.vmas.erase vma }

variable {space : AddressSpace} {state next : State}

/-- A call for an area uses its private data, or they are gone. -/
theorem call_cases {vma : Vma} {operation : PrivateData → State} (taken : state.call vma operation = some next) :
    vma ∈ state.vmas ∧ ((∃ data, state.privateData.get vma.vmPrivateData = some data ∧ next = operation data) ∨
      (state.privateData.get vma.vmPrivateData = none ∧ next = { state with crashed := true })) := by
  simp only [State.call] at taken
  split at taken
  · next known =>
      refine ⟨known, ?_⟩
      split at taken
      · next data live => exact .inl ⟨data, live, (Option.some.inj taken).symm⟩
      · next gone => exact .inr ⟨gone, (Option.some.inj taken).symm⟩
  · contradiction

theorem effect_mmap {vmStart vmEnd : Nat} {kmalloc : Bool} {allocPages : Option Nat} {remap : Int}
    (placed : vmStart < vmEnd ∧ vmEnd ≤ space.taskSize)
    (kernel : ∀ address ∈ allocPages, space.pageOffset ≤ address) :
    Effect space state (.mmap vmStart vmEnd kmalloc allocPages remap)
      (pagingMmap state vmStart vmEnd kmalloc allocPages remap).1 := by
  cases kmalloc with
  | false => exact .nullData
  | true =>
      by_cases demand : state.demandPaging = 0
      · rw [pagingMmap, if_pos rfl, if_pos demand]
        cases allocPages with
        | none => exact .refused none demand (.inl rfl)
        | some address =>
            by_cases success : remap = 0
            · subst success
              exact .prepaged address _ rfl demand placed (kernel address rfl)
            · rw [doPrepaging, if_pos success]
              exact .refused (some ⟨address, _⟩) demand (.inr success)
      · rw [pagingMmap, if_pos rfl, if_neg demand]
        exact .mapped _ rfl demand placed

theorem effect_fault {vma : Vma} {data : PrivateData} {address : Nat} {allocPage kmalloc : Bool} {remap : Int}
    (known : vma ∈ state.vmas) (live : state.privateData.get vma.vmPrivateData = some data)
    (unmapped : data.mapping.block = none) (memory : allocPage = true → state.pages < state.freed.length + frames) :
    Effect space state (.fault vma address allocPage remap kmalloc)
      (doFault state vma.vmPrivateData data allocPage remap kmalloc).1 := by
  cases allocPage with
  | false => exact .noPage
  | true =>
      rw [doFault, if_pos rfl]
      by_cases fails : remap = -1
      · subst fails
        exact .remapFails data known live unmapped (memory rfl)
      · rw [if_neg fails]
        cases kmalloc with
        | false => exact .unrecorded data known live unmapped (.inl rfl)
        | true =>
            obtain ⟨reference, list, mapping⟩ := data
            cases list with
            | none => exact .unrecorded _ known live unmapped (.inr rfl)
            | some pages => exact .recorded _ pages known live rfl fails (memory rfl)

theorem effect_close {vma : Vma} {data : PrivateData} (running : state.crashed = false)
    (known : vma ∈ state.vmas) (live : state.privateData.get vma.vmPrivateData = some data) :
    Effect space state (.vmaClose vma) (if (pagingVmaClose state vma data).crashed then pagingVmaClose state vma data
      else { pagingVmaClose state vma data with vmas := state.vmas.erase vma }) := by
  have last : data.reference - 1 = 0 ↔ data.reference = 1 := by bv_omega
  by_cases one : data.reference = 1
  · by_cases demand : state.demandPaging = 0
    · rw [pagingVmaClose, if_pos (last.mpr one), if_neg (not_not.mpr demand), if_neg (by simp [running])]
      exact .freed data known live one demand
    · rw [pagingVmaClose, if_pos (last.mpr one), if_pos demand]
      cases list : data.ptrToPagelist with
      | none => exact .lost data known live one demand list
      | some pages =>
          rw [if_neg (by simp [running])]
          exact .walked data pages known live one demand list
  · rw [pagingVmaClose, if_neg (mt last.mp one), if_neg (by simp [running])]
    exact .closed data known live one

/-- Each step of the module has one of the effects. -/
theorem step_effect {event : PagingEvent} (taken : state.step space event = some next) :
    state.crashed = false ∧ Effect space state event next := by
  unfold State.step at taken
  split at taken
  · contradiction
  · next running =>
      refine ⟨Bool.eq_false_of_not_eq_true running, ?_⟩
      cases event with
      | write value => exact Option.some.inj taken ▸ .write value
      | mmap vmStart vmEnd kmalloc allocPages remap =>
          obtain ⟨⟨nonempty, user, kernel⟩, same⟩ := Option.ite_none_right_eq_some.mp taken
          exact Option.some.inj same ▸ effect_mmap ⟨nonempty, user⟩ kernel
      | fault vma address allocPage remap kmalloc =>
          obtain ⟨⟨_, _, unmapped, memory⟩, called⟩ := Option.ite_none_right_eq_some.mp taken
          obtain ⟨known, ⟨data, live, rfl⟩ | ⟨gone, rfl⟩⟩ := call_cases called
          · exact effect_fault known live (by simpa [live] using unmapped) memory
          · exact .dangling vma (.fault ..) known gone
      | vmaOpen vma kept further =>
          obtain ⟨opens, called⟩ := Option.ite_none_right_eq_some.mp taken
          obtain ⟨known, ⟨data, live, rfl⟩ | ⟨gone, rfl⟩⟩ := call_cases called
          · exact .opened data known live opens
          · exact .dangling vma (.vmaOpen ..) known gone
      | vmaClose vma =>
          obtain ⟨known, ⟨data, live, rfl⟩ | ⟨gone, rfl⟩⟩ := call_cases taken
          · exact effect_close (Bool.eq_false_of_not_eq_true running) known live
          · exact .dangling vma .vmaClose known gone

/-- All calls of the kernel's allocators and of `remap_pfn_range` succeed, and the parameter keeps its value. -/
def PagingEvent.Succeeds (value : BitVec 32) : PagingEvent → Prop
  | .write other => other = value
  | .mmap _ _ kmalloc allocPages remap => kmalloc = true ∧ allocPages.isSome = true ∧ remap = 0
  | .fault _ _ allocPage remap kmalloc => allocPage = true ∧ remap = 0 ∧ kmalloc = true
  | .vmaOpen .. | .vmaClose _ => True

/-- The parameter `demand_paging` has this value all the time, and all calls succeed. -/
def steady (value : BitVec 32) : Guard State PagingEvent := fun state event =>
  state.demandPaging = value ∧ event.Succeeds value

instance (value : BitVec 32) (event : PagingEvent) : Decidable (event.Succeeds value) :=
  match event with
  | .write _ => inferInstanceAs (Decidable (_ = _))
  | .mmap .. | .fault .. => inferInstanceAs (Decidable (_ ∧ _ ∧ _))
  | .vmaOpen .. | .vmaClose _ => isTrue trivial

instance (value : BitVec 32) (state : State) (event : PagingEvent) : Decidable (steady value state event) :=
  inferInstanceAs (Decidable (_ ∧ _))

end KernelStudio.Paging
