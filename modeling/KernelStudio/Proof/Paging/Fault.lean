/-
This file proves which outcomes of the three calls of `do_fault` leave the mapping consistent.
The statements of `do_fault` refine the fault of the paging machine.
-/

import KernelStudio.Construction.Paging.Fault

namespace KernelStudio.Paging.Fault

variable {memory after : Memory} {faultAddress : BitVec 32} {calls : Calls} {stage : Stage}

/-- A fault that succeeds has mapped and recorded its page, a fault that fails has changed nothing, and no fault uses
the null pointer. -/
structure Complete (memory : Memory) (faultAddress : BitVec 32) (after : Memory) (stage : Stage) : Prop where
  succeeds : stage = .returned .nopage → ∃ page, page ∉ memory.live ∧
    after.mapped = (pageStart faultAddress, page) :: memory.mapped ∧
    after.ptrToPagelist = page :: memory.ptrToPagelist ∧ after.ptrToPagelist.count page = 1 ∧
    after.allocNumber = memory.allocNumber + 1
  fails : ∀ fault, stage = .returned fault → fault ≠ .nopage →
    (∀ page ∈ after.live, page ∈ memory.live) ∧ after.ptrToPagelist = memory.ptrToPagelist ∧
      after.allocNumber = memory.allocNumber
  safe : stage ≠ .oops

/-- The memory once `alloc_page` has returned a page. -/
def Memory.obtained (memory : Memory) (faultAddress : BitVec 32) : Memory :=
  { memory with
    pages := memory.pages + 1
    live := memory.pages :: memory.live
    obtainedFor := Function.update memory.obtainedFor memory.pages (some (pageStart faultAddress)) }

theorem doFault_oom (failed : calls.allocPage = false) :
    doFault memory faultAddress calls = (memory, .returned .oom) := by
  simp [doFault, step, failed]

theorem doFault_sigbus (obtained : calls.allocPage = true) (failed : calls.remapPfnRange = -1) :
    doFault memory faultAddress calls = (memory.obtained faultAddress, .returned .sigbus) := by
  simp [doFault, step, obtained, failed, Memory.obtained]

/-- The memory once `remap_pfn_range` has returned no `-1` and the page is counted. -/
def Memory.counted (memory : Memory) (faultAddress : BitVec 32) (remapPfnRange : Int) : Memory :=
  { memory.obtained faultAddress with
    mapped := if remapPfnRange = 0 then (pageStart faultAddress, memory.pages) :: memory.mapped else memory.mapped
    allocNumber := memory.allocNumber + 1 }

theorem doFault_oops (obtained : calls.allocPage = true) (remapped : calls.remapPfnRange ≠ -1)
    (failed : calls.kmalloc = false) :
    doFault memory faultAddress calls = (memory.counted faultAddress calls.remapPfnRange, .oops) := by
  by_cases zero : calls.remapPfnRange = 0
  · simp [doFault, step, obtained, failed, zero, Memory.counted, Memory.obtained]
  · simp [doFault, step, obtained, failed, zero, remapped, Memory.counted, Memory.obtained]

theorem doFault_nopage (obtained : calls.allocPage = true) (remapped : calls.remapPfnRange ≠ -1)
    (recorded : calls.kmalloc = true) :
    doFault memory faultAddress calls = ({ memory.counted faultAddress calls.remapPfnRange with
      ptrToPagelist := memory.pages :: memory.ptrToPagelist }, .returned .nopage) := by
  by_cases zero : calls.remapPfnRange = 0
  · simp [doFault, step, obtained, recorded, zero, Memory.counted, Memory.obtained]
  · simp [doFault, step, obtained, recorded, zero, remapped, Memory.counted, Memory.obtained]

/-- The next page is not in use. -/
theorem Memory.WellFormed.fresh (wellFormed : memory.WellFormed) :
    memory.pages ∉ memory.live ∧ memory.pages ∉ memory.ptrToPagelist := by
  have unknown : memory.pages ∉ memory.live := fun used => Nat.lt_irrefl _ (wellFormed.known _ used)
  exact ⟨unknown, fun listed => unknown (wellFormed.listed _ listed)⟩

/-- Each statement keeps the memory well formed, provided that the page it records is allocated. -/
theorem step_wellFormed (wellFormed : memory.WellFormed)
    (held : ∀ aPage, stage = .record aPage → aPage ∈ memory.live) :
    (step faultAddress calls (memory, stage)).1.WellFormed := by
  cases stage with
  | allocPage =>
      by_cases obtained : calls.allocPage = true
      · simp only [step, obtained, if_true]
        refine ⟨fun page used => ?_, fun page listed => List.mem_cons_of_mem _ (wellFormed.listed page listed)⟩
        rcases List.mem_cons.1 used with rfl | earlier
        · exact Nat.lt_succ_self _
        · exact Nat.lt_succ_of_lt (wellFormed.known page earlier)
      · simp only [step, if_neg obtained]
        exact wellFormed
  | remapPfnRange aPage =>
      simp only [step]
      split_ifs
      · exact wellFormed
      · exact ⟨wellFormed.known, wellFormed.listed⟩
      · exact wellFormed
  | record aPage =>
      simp only [step]
      split_ifs
      · refine ⟨wellFormed.known, fun page listed => ?_⟩
        rcases List.mem_cons.1 listed with rfl | earlier
        · exact held page rfl
        · exact wellFormed.listed page earlier
      · exact ⟨wellFormed.known, wellFormed.listed⟩
  | returned fault => exact wellFormed
  | oops => exact wellFormed

/-- A fault succeeds or leaves no trace exactly when no page is free, or when the remap returns zero and the cell is
allocated. -/
theorem complete_iff (wellFormed : memory.WellFormed) (faultAddress : BitVec 32) (calls : Calls) :
    Complete memory faultAddress (doFault memory faultAddress calls).1 (doFault memory faultAddress calls).2 ↔
      calls.allocPage = false ∨ calls.remapPfnRange = 0 ∧ calls.kmalloc = true := by
  obtain ⟨unused, unlisted⟩ := wellFormed.fresh
  cases obtained : calls.allocPage with
  | false =>
      rw [doFault_oom obtained]
      simp only [true_or, iff_true]
      exact ⟨fun other => by simp at other, fun _ _ _ => ⟨fun _ used => used, rfl, rfl⟩, by simp⟩
  | true =>
      simp only [Bool.true_eq_false, false_or]
      by_cases sigbus : calls.remapPfnRange = -1
      · rw [doFault_sigbus obtained sigbus]
        constructor
        · intro complete
          have leaked := (complete.fails .sigbus rfl (by decide)).1 memory.pages (List.mem_cons_self ..)
          exact absurd leaked unused
        · rintro ⟨zero, _⟩
          rw [zero] at sigbus
          exact absurd sigbus (by decide)
      · cases recorded : calls.kmalloc with
        | false =>
            rw [doFault_oops obtained sigbus recorded]
            simp only [Bool.false_eq_true, and_false, iff_false]
            exact fun complete => complete.safe rfl
        | true =>
            rw [doFault_nopage obtained sigbus recorded]
            simp only [and_true]
            constructor
            · intro complete
              by_contra nonzero
              obtain ⟨page, _, mapped, _⟩ := complete.succeeds rfl
              simp only [Memory.counted, if_neg nonzero] at mapped
              exact absurd (congrArg List.length mapped) (by simp)
            · intro zero
              refine ⟨fun _ => ⟨memory.pages, unused, ?_, rfl, ?_, rfl⟩, fun fault returned other => ?_, by simp⟩
              · simp only [Memory.counted, if_pos zero]
              · rw [List.count_cons_self, List.count_eq_zero_of_not_mem unlisted]
              · simp only [Stage.returned.injEq] at returned
                exact absurd returned.symm other

/-- A fault of a new mapping with calls that succeed. -/
theorem complete_first :
    Complete {} 0x1234 (doFault {} 0x1234 ⟨true, 0, true⟩).1 (doFault {} 0x1234 ⟨true, 0, true⟩).2 :=
  (complete_iff ⟨by simp, by simp⟩ 0x1234 ⟨true, 0, true⟩).2 (.inr ⟨rfl, rfl⟩)

/-- When `remap_pfn_range` returns `-ENOMEM`, the fault ends as if it had mapped its page. -/
theorem page_kept : ¬ ∀ memory : Memory, memory.WellFormed → ∀ faultAddress calls,
    Complete memory faultAddress (doFault memory faultAddress calls).1 (doFault memory faultAddress calls).2 := by
  intro complete
  obtain ⟨page, _, mapped, _⟩ := (complete {} ⟨by simp, by simp⟩ 0x1000 ⟨true, -12, true⟩).succeeds rfl
  have unmapped : (doFault {} 0x1000 ⟨true, -12, true⟩).1.mapped = [] := by decide
  exact absurd (mapped.symm.trans unmapped) (List.cons_ne_nil _ _)

/-- The pages of a mapping in the paging machine are those of this memory. -/
structure Memory.Shows (memory : Memory) (state : Paging.State) (key : Nat) : Prop where
  pages : state.pages = memory.pages
  allocNumber : state.allocNumber = memory.allocNumber
  list : (state.privateData.get key).map PrivateData.ptrToPagelist = some (some memory.ptrToPagelist)

/-- The statements of `do_fault` refine the fault of the paging machine. -/
theorem doFault_refines {state : Paging.State} {key : Nat} {data : PrivateData}
    (stored : state.privateData.get key = some data) (related : memory.Shows state key)
    (running : state.crashed = false)
    (faultAddress : BitVec 32) (calls : Calls) :
    let coarse := Paging.doFault state key data calls.allocPage calls.remapPfnRange calls.kmalloc
    (doFault memory faultAddress calls).1.Shows coarse.1 key ∧
      (doFault memory faultAddress calls).2 = if coarse.1.crashed then .oops else .returned coarse.2 := by
  obtain ⟨pages, allocNumber, list⟩ := related
  have initialised : data.ptrToPagelist = some memory.ptrToPagelist := by
    simpa only [stored, Option.map_some, Option.some.injEq] using list
  cases obtained : calls.allocPage with
  | false =>
      simp only [doFault_oom obtained, Paging.doFault, running, Bool.false_eq_true, if_false]
      exact ⟨⟨pages, allocNumber, list⟩, trivial⟩
  | true =>
      by_cases sigbus : calls.remapPfnRange = -1
      · simp only [doFault_sigbus obtained sigbus, Paging.doFault, sigbus, running, if_true, Bool.false_eq_true,
          if_false]
        refine ⟨⟨congrArg (· + 1) pages, allocNumber, ?_⟩, trivial⟩
        simp [Store.get_set stored, initialised, Memory.obtained]
      · cases recorded : calls.kmalloc with
        | false =>
            simp only [doFault_oops obtained sigbus recorded, Paging.doFault, if_neg sigbus, initialised, if_true]
            refine ⟨⟨congrArg (· + 1) pages, congrArg (· + 1) allocNumber, ?_⟩, trivial⟩
            simp [Store.get_set stored, Memory.counted, Memory.obtained]
        | true =>
            simp only [doFault_nopage obtained sigbus recorded, Paging.doFault, if_neg sigbus, initialised, if_true,
              running, Bool.false_eq_true, if_false]
            refine ⟨⟨congrArg (· + 1) pages, congrArg (· + 1) allocNumber, ?_⟩, trivial⟩
            simp [Store.get_set stored, pages]

/-- A fault of an area in the paging machine. -/
def faultEvent (vma : Vma) (fault : Nat × Calls) : PagingEvent :=
  .fault vma fault.1 fault.2.allocPage fault.2.remapPfnRange fault.2.kmalloc

/-- The statements of one fault after another, with the end of each. -/
def doFaults : Memory → List (Nat × Calls) → Memory × List Stage
  | memory, [] => (memory, [])
  | memory, (address, calls) :: rest =>
      let (after, stage) := doFault memory (BitVec.ofNat 32 address) calls
      let (last, stages) := doFaults after rest
      (last, stage :: stages)

/-- A fault that the paging machine takes is that of `do_fault` for the private data of the area. -/
theorem step_fault {space : AddressSpace} {state next : Paging.State} {vma : Vma} {fault : Nat × Calls}
    {data : PrivateData} (stored : state.privateData.get vma.vmPrivateData = some data)
    (taken : (paging space).step state (faultEvent vma fault) = some next) :
    next = (Paging.doFault state vma.vmPrivateData data fault.2.allocPage fault.2.remapPfnRange fault.2.kmalloc).1 := by
  change state.step space (faultEvent vma fault) = some next at taken
  simp only [Paging.State.step, faultEvent, State.call, stored] at taken
  split at taken
  · contradiction
  · split at taken
    · split at taken
      · exact (Option.some.inj taken).symm
      · contradiction
    · contradiction

/-- A machine that has crashed takes no fault. -/
theorem execute_crashed {space : AddressSpace} {state final : Paging.State} {vma : Vma} {faults : List (Nat × Calls)}
    (crashed : state.crashed = true)
    (executed : (paging space).execute state (faults.map (faultEvent vma)) = some final) :
    faults = [] ∧ final = state := by
  cases faults with
  | nil =>
      simp only [List.map_nil, Transition.Machine.execute, Option.some.injEq] at executed
      exact ⟨rfl, executed.symm⟩
  | cons fault rest =>
      have stuck : (paging space).step state (faultEvent vma fault) = none := by
        change state.step space (faultEvent vma fault) = none
        simp only [Paging.State.step, crashed, if_true]
      simp [Transition.Machine.execute, stuck] at executed

/-- The faults that the paging machine takes are simulated by their statements, and it has crashed exactly when the
statements of a fault have used the null pointer. -/
theorem faults_simulated {space : AddressSpace} {vma : Vma} {memory : Memory} {state final : Paging.State}
    (faults : List (Nat × Calls)) (related : memory.Shows state vma.vmPrivateData) (running : state.crashed = false)
    (executed : (paging space).execute state (faults.map (faultEvent vma)) = some final) :
    (doFaults memory faults).1.Shows final vma.vmPrivateData ∧
      (final.crashed = true ↔ .oops ∈ (doFaults memory faults).2) := by
  induction faults generalizing memory state with
  | nil =>
      simp only [List.map_nil, Transition.Machine.execute, Option.some.injEq] at executed
      subst executed
      exact ⟨related, by simp [doFaults, running]⟩
  | cons fault rest ih =>
      obtain ⟨data, stored, _⟩ := Option.map_eq_some_iff.mp related.list
      rw [List.map_cons, Transition.Machine.execute] at executed
      obtain ⟨next, taken, remaining⟩ := Option.bind_eq_some_iff.mp executed
      obtain rfl := step_fault stored taken
      obtain ⟨address, calls⟩ := fault
      obtain ⟨after, ended⟩ := doFault_refines stored related running (BitVec.ofNat 32 address) calls
      simp only [doFaults, List.mem_cons]
      cases outcome : (Paging.doFault state vma.vmPrivateData data calls.allocPage calls.remapPfnRange
          calls.kmalloc).1.crashed with
      | true =>
          obtain ⟨rfl, rfl⟩ := execute_crashed outcome remaining
          rw [outcome] at ended
          exact ⟨after, by simp [doFaults, outcome, ended]⟩
      | false =>
          rw [outcome] at ended
          obtain ⟨later, crashes⟩ := ih after outcome remaining
          exact ⟨later, by simp [crashes, ended]⟩

/-- The first fault of a mapping records its page, and the cell of the second one is not allocated. -/
theorem faults_simulated_pair : ∃ final : Paging.State, final.allocNumber = 2 ∧ final.crashed = true ∧
    (final.privateData.get 0).map PrivateData.ptrToPagelist = some (some [0]) := by
  let mapped := (pagingMmap {} 0x1000 0x3000 true none 0).1
  let faults : List (Nat × Calls) := [(0x1234, ⟨true, 0, true⟩), (0x2345, ⟨true, 0, false⟩)]
  have taken : ((paging arm).execute mapped (faults.map (faultEvent ⟨0x1000, 0x3000, 0⟩))).isSome = true := by
    decide +kernel
  obtain ⟨final, executed⟩ := Option.isSome_iff_exists.mp taken
  have related : Memory.Shows {} mapped 0 := ⟨rfl, rfl, rfl⟩
  obtain ⟨shown, crashes⟩ := faults_simulated faults related rfl executed
  exact ⟨final, shown.allocNumber, crashes.mpr (by decide +kernel), shown.list⟩

end KernelStudio.Paging.Fault
