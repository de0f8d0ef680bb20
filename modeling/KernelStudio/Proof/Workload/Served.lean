/-
This file proves that the paging module, loaded with `demand_paging = 1`, serves each program that keeps to its arrays:
one page is taken for each page that the program uses, and the end of the program returns all of them. The last close
of an area reads links of freed cells. The machine goes through the whole list there, as `pagingVmaClose_releases` shows
for an allocator that leaves freed cells alone until the call returns.
-/

import KernelStudio.Proof.Paging.Accounting
import KernelStudio.Proof.Workload.Pages
import Mathlib.Data.Finset.Card

namespace KernelStudio.Workload

open Paging Transition

/-- The data of a mapping with one area, in the mode of demand paging. -/
def Mapped (state : State) (area : Nat) : Prop :=
  ∃ data list, state.privateData.get area = some data ∧ data.reference = 1 ∧ data.ptrToPagelist = some list ∧
    data.mapping.block = none

/-- The module has served a process up to this point. -/
structure Serving (state : State) (process : Process) : Prop where
  demand : state.demandPaging = 1
  running : state.crashed = false
  vmas : state.vmas = process.areas.reverse
  size : state.privateData.size = process.areas.length
  keyed : process.areas.map Vma.vmPrivateData = List.range process.areas.length
  mapped : ∀ area < process.areas.length, Mapped state area
  freed : state.freed = []
  pages : state.pages = process.present.card

variable {space : AddressSpace} {places : Nat → Nat} {state next : State} {process : Process}

/-- The steps that a served event takes. -/
def Takes (space : AddressSpace) (state : State) (events : List PagingEvent) (next : State) : Prop :=
  (paging space).execute state events = some next ∧
    ((paging space).Reaches (steady 1) state → (paging space).Reaches (steady 1) next)

theorem Takes.nil (state : State) : Takes space state [] state := ⟨rfl, id⟩

theorem Takes.single {event : PagingEvent} (admitted : steady 1 state event)
    (taken : state.step space event = some next) : Takes space state [event] next := by
  constructor
  · have step : (paging space).step state event = some next := taken
    rw [Machine.execute, step]
    rfl
  · exact fun reached => .step event reached admitted taken

theorem Takes.append {events later : List PagingEvent} {final : State} (first : Takes space state events next)
    (second : Takes space next later final) : Takes space state (events ++ later) final :=
  ⟨(Machine.execute_append events later first.1).trans second.1, fun reached => second.2 (first.2 reached)⟩

theorem Serving.key (serving : Serving state process) {area : Nat} {vma : Vma}
    (found : process.areas[area]? = some vma) : area < process.areas.length ∧ vma.vmPrivateData = area := by
  have inside : area < process.areas.length := (List.getElem?_eq_some_iff.mp found).1
  have same : (process.areas.map Vma.vmPrivateData)[area]? = some area := by
    rw [serving.keyed, List.getElem?_range inside]
  rw [List.getElem?_map, found, Option.map_some, Option.some.injEq] at same
  exact ⟨inside, same⟩

/-- A granted call of `mmap` adds an area with an empty page list. -/
theorem Serving.mmapMalloc (serving : Serving state process) {bytes : Nat} (positive : 0 < bytes)
    (user : (places process.areas.length + pageNum bytes) * pageSize ≤ space.taskSize) :
    ∃ next, Takes space state (process.run space places (.mmapMalloc bytes)).2 next ∧
      Serving next (process.run space places (.mmapMalloc bytes)).1 := by
  have pages : 0 < pageNum bytes * pageSize := by
    unfold pageNum pageSize
    split <;> omega
  rw [Nat.add_mul] at user
  let vma : Vma := ⟨places process.areas.length * pageSize,
    places process.areas.length * pageSize + pageNum bytes * pageSize, process.areas.length⟩
  let mapping : Mapping := { demandPaging := state.demandPaging, length := vma.vmEnd - vma.vmStart }
  let next : State := { state with
    privateData := state.privateData.insert { ptrToPagelist := some [], mapping }
    vmas := vma :: state.vmas }
  have demand : state.demandPaging ≠ 0 := by rw [serving.demand]; decide
  refine ⟨next, Takes.single ⟨serving.demand, rfl, rfl, rfl⟩ ?_, ?_⟩
  · have fits : vma.vmStart < vma.vmEnd ∧ vma.vmEnd ≤ space.taskSize ∧
        ∀ address ∈ some space.pageOffset, space.pageOffset ≤ address :=
      ⟨Nat.lt_add_of_pos_right pages, user, by simp⟩
    simp only [State.step, serving.running, Bool.false_eq_true, if_false, if_pos fits, pagingMmap, if_true,
      if_neg demand, serving.size, next, vma, mapping]
  · exact
      { demand := serving.demand
        running := serving.running
        vmas := by simp [next, vma, serving.vmas, Process.run]
        size := by simp [next, serving.size, Process.run]
        keyed := by
          rw [Process.run, List.map_append, serving.keyed, List.length_append, List.length_singleton, List.range_succ]
          rfl
        mapped := by
          intro area inside
          simp only [Process.run, List.length_append, List.length_singleton] at inside
          by_cases new : area = process.areas.length
          · exact ⟨_, [], by simp only [next]; rw [Store.get_insert, if_pos (new.trans serving.size.symm)], rfl, rfl, rfl⟩
          · obtain ⟨data, list, live, rest⟩ := serving.mapped area (by omega)
            refine ⟨data, list, ?_, rest⟩
            simp only [next]
            rw [Store.get_insert, if_neg (by rw [serving.size]; exact new), live]
        freed := serving.freed
        pages := serving.pages }

/-- A fault on a page without an entry takes a page and records it. -/
theorem Serving.fault (serving : Serving state process) {access : Access} (fresh : access.page ∉ process.present)
    {vma : Vma} (found : process.areas[access.area]? = some vma)
    (inside : vma.vmStart + sizeofDouble * access.index < vma.vmEnd) (memory : process.present.card < frames) :
    ∃ next, Takes space state [.fault vma (vma.vmStart + sizeofDouble * access.index) true 0 true] next ∧
      Serving next { process with present := insert access.page process.present } := by
  obtain ⟨short, key⟩ := serving.key found
  obtain ⟨data, list, live, once, filled, unmapped⟩ := serving.mapped access.area short
  have known : vma ∈ state.vmas := by
    rw [serving.vmas, List.mem_reverse]
    exact List.mem_of_getElem? found
  let mapping := { data.mapping with obtained := state.pages :: data.mapping.obtained }
  let recorded := { data with ptrToPagelist := some (state.pages :: list), mapping }
  let next : State := { state with
    pages := state.pages + 1
    allocNumber := state.allocNumber + 1
    privateData := state.privateData.set vma.vmPrivateData recorded }
  refine ⟨next, Takes.single ⟨serving.demand, rfl, rfl, rfl⟩ ?_, ?_⟩
  · have admitted : vma.vmStart ≤ vma.vmStart + sizeofDouble * access.index ∧
        vma.vmStart + sizeofDouble * access.index < vma.vmEnd ∧
        ((state.privateData.get vma.vmPrivateData).any fun data => data.mapping.block.isSome) = false ∧
        (true = true → state.pages < state.freed.length + frames) := by
      refine ⟨Nat.le_add_right _ _, inside, ?_, fun _ => ?_⟩
      · rw [key, live, Option.any_some, unmapped]
        rfl
      · rw [serving.pages]
        exact Nat.lt_of_lt_of_le memory (Nat.le_add_left _ _)
    rw [State.step, if_neg (Bool.eq_false_iff.mp serving.running)]
    refine (if_pos admitted).trans ?_
    rw [State.call, if_pos known, key, live]
    simp only [doFault, if_true, filled, next, recorded, mapping, key]
    rfl
  · exact
      { demand := serving.demand
        running := serving.running
        vmas := serving.vmas
        size := serving.size
        keyed := serving.keyed
        mapped := by
          intro area other
          simp only [Mapped, next]
          rw [Store.get_set (key ▸ live), key]
          by_cases same : area = access.area
          · rw [if_pos same]
            exact ⟨recorded, _, rfl, once, rfl, unmapped⟩
          · rw [if_neg same]
            exact serving.mapped area other
        freed := serving.freed
        pages := by rw [Finset.card_insert_of_notMem fresh, ← serving.pages] }

/-- The lengths of the areas of a process. -/
def Process.lengths (process : Process) : List Nat := process.areas.map fun vma => vma.vmEnd - vma.vmStart

/-- An access to an array finds its area. -/
theorem Process.find {access : Access} (inside : access.Inside process.lengths) :
    ∃ vma, process.areas[access.area]? = some vma ∧ vma.vmStart + sizeofDouble * access.index < vma.vmEnd := by
  rw [Access.Inside, Process.lengths, List.getD_eq_getElem?_getD, List.getElem?_map] at inside
  unfold sizeofDouble at inside ⊢
  cases found : process.areas[access.area]? with
  | none => simp [found] at inside
  | some vma =>
      rw [found, Option.map_some, Option.getD_some] at inside
      exact ⟨vma, rfl, by omega⟩

/-- An access to an array needs a page that the process has or that a fault gives to it. -/
theorem Serving.access (serving : Serving state process) {access : Access} (inside : access.Inside process.lengths)
    (memory : (insert access.page process.present).card ≤ frames) :
    ∃ next, Takes space state (process.run space places (.access access)).2 next ∧
      Serving next (process.run space places (.access access)).1 ∧
      (process.run space places (.access access)).1 =
        { process with present := insert access.page process.present } := by
  obtain ⟨vma, found, short⟩ := process.find inside
  have served : process.run space places (.access access) =
      if access.page ∈ process.present then (process, [])
      else ({ process with present := insert access.page process.present },
        [.fault vma (vma.vmStart + sizeofDouble * access.index) true 0 true]) := by
    rw [Process.run, found]
  by_cases present : access.page ∈ process.present
  · rw [served, if_pos present]
    exact ⟨state, Takes.nil state, serving, by rw [Finset.insert_eq_of_mem present]⟩
  · rw [served, if_neg present]
    rw [Finset.card_insert_of_notMem present] at memory
    obtain ⟨next, taken, after⟩ := serving.fault present found short memory
    exact ⟨next, taken, after, rfl⟩

/-- Areas whose data are used by them alone. -/
structure Closable (state : State) : Prop where
  demand : state.demandPaging = 1
  running : state.crashed = false
  apart : (state.vmas.map Vma.vmPrivateData).Nodup
  mapped : ∀ vma ∈ state.vmas, Mapped state vma.vmPrivateData

/-- The close of an area returns its pages and leaves the other areas. -/
theorem Closable.close (closable : Closable state) {vma : Vma} {rest : List Vma} (vmas : state.vmas = vma :: rest) :
    ∃ next, Takes space state [.vmaClose vma] next ∧ next.vmas = rest ∧ next.pages = state.pages ∧ Closable next := by
  have known : vma ∈ state.vmas := vmas ▸ List.mem_cons_self
  obtain ⟨data, list, live, once, filled, unmapped⟩ := closable.mapped vma known
  have demand : state.demandPaging ≠ 0 := by rw [closable.demand]; decide
  have apart := closable.apart
  rw [vmas, List.map_cons, List.nodup_cons] at apart
  let next : State := { state with
    vmas := rest
    teardowns := state.teardowns ++ [⟨data.mapping, .walk data.ptrToPagelist⟩]
    freed := state.freed ++ list
    freeNumber := state.freeNumber + BitVec.ofNat 32 list.length
    privateData := state.privateData.erase vma.vmPrivateData
    kfreed := vma.vmPrivateData :: state.kfreed }
  refine ⟨next, Takes.single ⟨closable.demand, trivial⟩ ?_, rfl, rfl, ?_⟩
  · have last : data.reference - 1 = 0 := by rw [once]; decide
    have remaining : state.vmas.erase vma = rest := by rw [vmas, List.erase_cons_head]
    simp only [State.step, closable.running, Bool.false_eq_true, if_false, State.call, if_pos known, live,
      pagingVmaClose, if_pos last, if_pos demand, filled, remaining, next]
  · exact
      { demand := closable.demand
        running := closable.running
        apart := apart.2
        mapped := by
          intro other still
          obtain ⟨data, list, live, rest⟩ := closable.mapped other (vmas ▸ List.mem_cons_of_mem vma still)
          refine ⟨data, list, ?_, rest⟩
          have different : other.vmPrivateData ≠ vma.vmPrivateData := fun same =>
            apart.1 (same ▸ List.mem_map_of_mem still)
          simp only [next]
          rw [Store.get_erase, if_neg different, live] }

/-- The end of a process closes all areas. -/
theorem Closable.closeAll (closable : Closable state) :
    ∃ next, Takes space state (state.vmas.map .vmaClose) next ∧ next.vmas = [] ∧ next.pages = state.pages := by
  generalize vmas : state.vmas = areas
  induction areas generalizing state with
  | nil => exact ⟨state, Takes.nil state, vmas, rfl⟩
  | cons vma rest ih =>
      obtain ⟨middle, closed, remaining, pages, still⟩ := closable.close vmas
      obtain ⟨next, taken, none, same⟩ := ih still remaining
      exact ⟨next, closed.append taken, none, same.trans pages⟩

theorem Serving.closable (serving : Serving state process) : Closable state where
  demand := serving.demand
  running := serving.running
  apart := by
    rw [serving.vmas, List.map_reverse, List.nodup_reverse]
    rw [serving.keyed]
    exact List.nodup_range
  mapped := by
    intro vma known
    rw [serving.vmas, List.mem_reverse] at known
    obtain ⟨area, found⟩ := List.getElem?_of_mem known
    obtain ⟨short, key⟩ := serving.key found
    exact key ▸ serving.mapped area short

/-- The pages of a program are those of its first access and of the rest. -/
theorem touched_access (access : Access) (rest : List Operation) :
    touched (.access access :: rest) = insert access.page (touched rest) := by
  simp [touched]

/-- The module serves the rest of a program and closes its areas. -/
theorem Serving.events (serving : Serving state process) {program : List Operation}
    (safe : Safe (fun _ => true) process.lengths program)
    (granted : ∀ area bytes, (requests program)[area]? = some bytes → 0 < bytes ∧
      (places (process.areas.length + area) + pageNum bytes) * pageSize ≤ space.taskSize)
    (memory : (process.present ∪ touched program).card ≤ frames) :
    ∃ next, Takes space state (process.events space places program) next ∧ next.vmas = [] ∧
      next.pages = (process.present ∪ touched program).card := by
  induction program generalizing state process with
  | nil =>
      obtain ⟨next, taken, none, pages⟩ := serving.closable.closeAll
      rw [serving.vmas] at taken
      exact ⟨next, taken, none, by simp [pages, serving.pages, touched]⟩
  | cons operation rest ih =>
      cases operation with
      | mmapMalloc bytes =>
          obtain ⟨positive, user⟩ := granted 0 bytes rfl
          obtain ⟨middle, begun, after⟩ := serving.mmapMalloc positive user
          have longer : ((process.run space places (.mmapMalloc bytes)).1).lengths =
              process.lengths ++ [mmapLength true bytes] := by
            simp [Process.run, Process.lengths, mmapLength, Nat.ne_of_gt positive]
          have later (area other : Nat) (found : (requests rest)[area]? = some other) : 0 < other ∧
              (places (process.areas.length + 1 + area) + pageNum other) * pageSize ≤ space.taskSize := by
            rw [Nat.add_assoc, Nat.add_comm 1 area]
            exact granted (area + 1) other found
          obtain ⟨next, taken, none, pages⟩ := ih after (longer ▸ safe) (by simpa [Process.run] using later) memory
          exact ⟨next, begun.append taken, none, pages⟩
      | access access =>
          rw [safe_access] at safe
          rw [touched_access, Finset.union_insert, ← Finset.insert_union] at memory ⊢
          obtain ⟨middle, begun, after, same⟩ := serving.access safe.1
            ((Finset.card_le_card Finset.subset_union_left).trans memory)
          rw [same] at after
          obtain ⟨next, taken, none, pages⟩ := ih after safe.2 granted memory
          exact ⟨next, begun.append (same ▸ taken), none, pages⟩

/-- The accounts of the module are right in each steady run. -/
theorem accounted (reached : (paging space).Reaches (steady 1) state) : Accounted state := by
  have demand : Demand state := by
    refine reached.invariant Demand ?_ ?_
    · rintro _ ⟨demandPaging, rfl⟩
      exact demand_initial demandPaging
    · intro state event next before demand admitted taken
      obtain ⟨_, effect⟩ := step_effect taken
      exact demand_effect (shared_reached before demand.running) demand admitted effect
  exact demand.accounted (shared_reached reached demand.running)

theorem serving_initial : Serving { demandPaging := 1 } {} where
  demand := rfl
  running := rfl
  vmas := rfl
  size := rfl
  keyed := rfl
  mapped := nofun
  freed := rfl
  pages := rfl

/-- With demand paging, the module serves each program whose requests are granted and that keeps to its arrays, as long
as the frames suffice. It takes one page for each page that the program uses, and after the end of the program each
page was freed once. -/
theorem program_served (space : AddressSpace) (places : Nat → Nat) {program : List Operation}
    (safe : Safe (fun _ => true) [] program) (granted : Granted space places program)
    (memory : (touched program).card ≤ frames) :
    ∃ state, (paging space).execute { demandPaging := 1 } (Process.events space places {} program) = some state ∧
      state.vmas = [] ∧ state.pages = (touched program).card ∧ state.allocNumber = state.freeNumber ∧
      (∀ page < state.pages, state.freed.count page = 1) ∧ state.crashed = false := by
  obtain ⟨state, ⟨executed, reaches⟩, none, pages⟩ := serving_initial.events safe
    (by simpa [Granted] using granted) (by simpa using memory)
  have accounted := accounted (reaches (.start ⟨1, rfl⟩))
  obtain ⟨counters, freed⟩ := accounted.finished none
  exact ⟨state, executed, none, by simpa using pages, counters, freed, accounted.running⟩

/-- The copy of a whole matrix takes two times the pages of the matrix. -/
theorem program_served_copy : ∃ state,
    (paging arm).execute { demandPaging := 1 }
      (Process.events arm (fun area => 16 + dataSize * area) {} (floydWarshall dataSize)) = some state ∧
      state.pages = 2 * dataSize ∧ state.vmas = [] ∧ ∀ page < state.pages, state.freed.count page = 1 := by
  have pages : (touched (floydWarshall dataSize)).card = 2 * dataSize := by
    rw [card_touched (uses_floydWarshall (Nat.le_refl _))]
    decide
  have granted : Granted arm (fun area => 16 + dataSize * area) (floydWarshall dataSize) := by
    intro area bytes found
    rw [requests_floydWarshall (Nat.le_refl _), List.getElem?_replicate] at found
    obtain ⟨two, same⟩ := Option.ite_none_right_eq_some.mp found
    have first : area = 0 ∨ area = 1 := by omega
    cases same
    rcases first with rfl | rfl <;> decide
  have safe : Safe (fun _ => true) [] (floydWarshall dataSize) := floydWarshall_safe (Nat.le_refl dataSize)
  have memory : (touched (floydWarshall dataSize)).card ≤ frames := by
    rw [pages]
    decide
  obtain ⟨state, executed, none, taken, _, freed, _⟩ := program_served arm _ safe granted memory
  exact ⟨state, executed, taken.trans pages, none, freed⟩

end KernelStudio.Workload
