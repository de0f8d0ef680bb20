/-
This file proves which calls of `paging_mmap` leave nothing behind when they fail and a usable mapping when they succeed.
-/

import KernelStudio.Construction.Paging

namespace KernelStudio.Paging

/-- A block that some private data have obtained and that was not freed. -/
def State.Holds (state : State) (block : Block) : Prop :=
  (∃ key data, state.privateData.get key = some data ∧ data.mapping.block = some block) ∧ block ∉ state.freedBlocks

/-- A failed call leaves no object and no block of its own. A successful call has set up an area whose private data
are live, referenced once and have an initialised page list. -/
structure CleanMmap (state : State) (vmStart vmEnd : Nat) (next : State) (result : Int) : Prop where
  failed : result ≠ 0 →
    (∀ key, (next.privateData.get key).isSome → (state.privateData.get key).isSome) ∧
      ∀ block, next.Holds block → state.Holds block
  mapped : result = 0 → ∃ vma data list, next.vmas = vma :: state.vmas ∧ vma.vmStart = vmStart ∧ vma.vmEnd = vmEnd ∧
    next.privateData.get vma.vmPrivateData = some data ∧ data.reference = 1 ∧ data.ptrToPagelist = some list

variable {state : State} {vmStart vmEnd : Nat} {allocPages : Option Nat} {remap : Int}

/-- A call in demand mode sets up its mapping. -/
theorem clean_demand (demand : state.demandPaging ≠ 0) :
    CleanMmap state vmStart vmEnd (pagingMmap state vmStart vmEnd true allocPages remap).1
      (pagingMmap state vmStart vmEnd true allocPages remap).2 := by
  simp only [pagingMmap, if_true, if_neg demand]
  refine ⟨fun failed => absurd rfl failed, fun _ => ⟨_, _, [], rfl, rfl, rfl, if_pos rfl, rfl, rfl⟩⟩

/-- Every call in prepaging mode stores its private data without an initialised list, and points to them when it
succeeds. -/
theorem prepaging_stores (prepaging : state.demandPaging = 0) (vmStart vmEnd : Nat) (allocPages : Option Nat)
    (remap : Int) :
    ∃ data, (pagingMmap state vmStart vmEnd true allocPages remap).1.privateData = state.privateData.insert data ∧
      data.ptrToPagelist = none ∧
      ((pagingMmap state vmStart vmEnd true allocPages remap).2 = 0 →
        (pagingMmap state vmStart vmEnd true allocPages remap).1.vmas =
          ⟨vmStart, vmEnd, state.privateData.size⟩ :: state.vmas) := by
  rcases prepaged : doPrepaging ⟨vmStart, vmEnd, state.privateData.size⟩ allocPages remap with ⟨_ | _ | _, block⟩ <;>
    simp only [pagingMmap, if_true, if_pos prepaging, prepaged]
  case oom => exact ⟨_, rfl, rfl, fun succeeded => absurd succeeded (by decide)⟩
  case sigbus => exact ⟨_, rfl, rfl, fun succeeded => absurd succeeded (by decide)⟩
  case nopage => exact ⟨_, rfl, rfl, fun _ => trivial⟩

/-- No call in prepaging mode is clean: it fails and keeps its private data, or their list is not initialised. -/
theorem unclean_prepaging (prepaging : state.demandPaging = 0) :
    ¬ CleanMmap state vmStart vmEnd (pagingMmap state vmStart vmEnd true allocPages remap).1
      (pagingMmap state vmStart vmEnd true allocPages remap).2 := by
  intro clean
  obtain ⟨stored, object, raw, area⟩ := prepaging_stores prepaging vmStart vmEnd allocPages remap
  by_cases succeeded : (pagingMmap state vmStart vmEnd true allocPages remap).2 = 0
  · obtain ⟨vma, data, list, vmas, _, _, live, _, usable⟩ := clean.mapped succeeded
    obtain rfl : vma = ⟨vmStart, vmEnd, state.privateData.size⟩ :=
      (List.cons.inj (vmas.symm.trans (area succeeded))).1
    rw [object, Store.get_insert, if_pos rfl, Option.some.injEq] at live
    rw [← live, raw] at usable
    cases usable
  · have kept := (clean.failed succeeded).1 state.privateData.size
    rw [object, Store.get_insert, if_pos rfl, state.privateData.bounded _ (Nat.le_refl _)] at kept
    exact absurd (kept rfl) (by decide)

/-- A call with private data returns. -/
theorem mmap_returns (running : state.crashed = false) (vmStart vmEnd : Nat) (allocPages : Option Nat) (remap : Int) :
    (pagingMmap state vmStart vmEnd true allocPages remap).1.crashed = false := by
  by_cases prepaging : state.demandPaging = 0
  · rcases prepaged : doPrepaging ⟨vmStart, vmEnd, state.privateData.size⟩ allocPages remap with ⟨_ | _ | _, block⟩ <;>
      simpa only [pagingMmap, if_true, if_pos prepaging, prepaged] using running
  · simpa only [pagingMmap, if_true, if_neg prepaging] using running

/-- A call of `paging_mmap` returns exactly when `kmalloc` succeeds, and it is clean exactly in demand mode. -/
theorem clean_mmap_iff (running : state.crashed = false) (vmStart vmEnd : Nat) (kmalloc : Bool)
    (allocPages : Option Nat) (remap : Int) :
    let call := pagingMmap state vmStart vmEnd kmalloc allocPages remap
    (call.1.crashed = false ↔ kmalloc = true) ∧
      ((call.1.crashed = false ∧ CleanMmap state vmStart vmEnd call.1 call.2) ↔
        state.demandPaging ≠ 0 ∧ kmalloc = true) ∧
      ((call.1.crashed = false → CleanMmap state vmStart vmEnd call.1 call.2) ↔
        state.demandPaging ≠ 0 ∨ kmalloc = false) := by
  cases kmalloc with
  | false => simp [pagingMmap]
  | true =>
      have returns := mmap_returns running vmStart vmEnd allocPages remap
      have clean : CleanMmap state vmStart vmEnd (pagingMmap state vmStart vmEnd true allocPages remap).1
          (pagingMmap state vmStart vmEnd true allocPages remap).2 ↔ state.demandPaging ≠ 0 :=
        ⟨fun clean prepaging => unclean_prepaging prepaging clean, clean_demand⟩
      simp only [returns, clean, true_and, and_true, true_implies, Bool.true_eq_false, or_false, and_self]

/-- A demand-paged area of one page. -/
theorem clean_mmap_page :
    (pagingMmap {} 0x1000 0x2000 true none 0).1.crashed = false ∧
      CleanMmap {} 0x1000 0x2000 (pagingMmap {} 0x1000 0x2000 true none 0).1
        (pagingMmap {} 0x1000 0x2000 true none 0).2 :=
  (clean_mmap_iff rfl 0x1000 0x2000 true none 0).2.1.2 ⟨by decide, rfl⟩

/-- When `remap_pfn_range` returns `-ENOMEM`, the private data and the block of the failed call stay allocated. -/
theorem private_data_kept :
    ¬ ∀ state : State, state.crashed = false → ∀ vmStart vmEnd kmalloc allocPages remap,
      (pagingMmap state vmStart vmEnd kmalloc allocPages remap).1.crashed = false →
        CleanMmap state vmStart vmEnd (pagingMmap state vmStart vmEnd kmalloc allocPages remap).1
          (pagingMmap state vmStart vmEnd kmalloc allocPages remap).2 := by
  intro clean
  obtain ⟨_, blocks⟩ := (clean { demandPaging := 0 } rfl 0x1000 0x2000 true (some 0xC0100000) (-12) rfl).failed (by decide)
  obtain ⟨⟨key, data, known, _⟩, _⟩ := blocks ⟨0xC0100000, 0⟩ ⟨⟨0, _, rfl, rfl⟩, by decide⟩
  exact absurd known (by simp)

end KernelStudio.Paging
