/-
This file proves when concurrent faults give each address one page, for any number of threads.
The threads are separate as long as no fault enters `do_fault` for a page that another fault holds or has recorded.
-/

import KernelStudio.Proof.Paging.Fault
import Mathlib.Data.List.Nodup

namespace KernelStudio.Paging.Fault

open Transition

/-- The next call is before the page is mapped. -/
def Stage.unmapped : Stage → Bool
  | .allocPage | .remapPfnRange _ => true
  | _ => false

/-- The page that a call holds and has not recorded. -/
def Stage.holds : Stage → Option Page
  | .remapPfnRange aPage | .record aPage => some aPage
  | _ => none

/-- A thread calls `remap_pfn_range` only for an address that is not mapped, and the recorded pages were obtained for
different addresses. -/
structure OnePage {n : Nat} (state : State n) : Prop where
  unmapped : ∀ t call aPage, state.thread t = some call → call.stage = .remapPfnRange aPage →
    state.memory.maps (pageStart call.faultAddress) = false
  single : (state.memory.ptrToPagelist.map state.memory.obtainedFor).Nodup

/-- A fault enters `do_fault` for a page that no other fault is inside for, and for which no page is recorded. -/
def Alone {n : Nat} (state : State n) : Event n → Prop
  | .fault _ faultAddress =>
      (∀ t, ∀ call ∈ state.thread t, call.stage.inside = true →
        pageStart call.faultAddress ≠ pageStart faultAddress) ∧
      ∀ aPage ∈ state.memory.ptrToPagelist, state.memory.obtainedFor aPage ≠ some (pageStart faultAddress)
  | .statement _ _ => True

instance {n : Nat} (state : State n) (event : Event n) : Decidable (Alone state event) :=
  match event with
  | .fault _ _ => inferInstanceAs (Decidable (_ ∧ _))
  | .statement _ _ => inferInstanceAs (Decidable True)

variable {memory : Memory} {call other : Call} {calls : Calls}

theorem Stage.inside_of_unmapped {stage : Stage} (unmapped : stage.unmapped = true) : stage.inside = true := by
  cases stage <;> simp_all [Stage.unmapped, Stage.inside]

theorem Stage.inside_of_holds {stage : Stage} {aPage : Page} (holds : stage.holds = some aPage) :
    stage.inside = true := by
  cases stage <;> simp_all [Stage.holds, Stage.inside]

/-- What a call relies on: its address is not mapped before it is remapped, no page is recorded for it, and the page
that it holds was obtained for it. -/
structure Call.Relies (call : Call) (memory : Memory) : Prop where
  unmapped : call.stage.unmapped = true → memory.maps (pageStart call.faultAddress) = false
  unrecorded : call.stage.inside = true →
    ∀ aPage ∈ memory.ptrToPagelist, memory.obtainedFor aPage ≠ some (pageStart call.faultAddress)
  held : ∀ aPage, call.stage.holds = some aPage →
    aPage < memory.pages ∧ memory.obtainedFor aPage = some (pageStart call.faultAddress)

/-- A call that has ended relies on nothing. -/
theorem Call.Relies.ended (ended : call.stage.inside = false) : call.Relies memory := by
  have outside : ¬ call.stage.inside = true := by simp [ended]
  exact ⟨fun unmapped => absurd (Stage.inside_of_unmapped unmapped) outside, fun inside => absurd inside outside,
    fun _ holds => absurd (Stage.inside_of_holds holds) outside⟩

/-- The recorded pages were obtained for different addresses. -/
structure Memory.Single (memory : Memory) : Prop where
  known : ∀ aPage ∈ memory.ptrToPagelist, aPage < memory.pages
  single : (memory.ptrToPagelist.map memory.obtainedFor).Nodup

/-- The next page differs from the pages that were returned before. -/
theorem obtained_other {aPage : Page} (known : aPage < memory.pages) (address : Option (BitVec 32)) :
    Function.update memory.obtainedFor memory.pages address aPage = memory.obtainedFor aPage :=
  Function.update_of_ne (Nat.ne_of_lt known) ..

@[simp] theorem maps_cons (entry : BitVec 32 × Page) (page : BitVec 32) :
    { memory with mapped := entry :: memory.mapped }.maps page = (entry.1 == page || memory.maps page) := rfl

/-- The statements of a call keep what a call for another page relies on. -/
theorem Call.Relies.frame (relies : other.Relies memory) (single : memory.Single) (own : call.Relies memory)
    (apart : other.stage.inside = true → pageStart other.faultAddress ≠ pageStart call.faultAddress) :
    other.Relies (step call.faultAddress calls (memory, call.stage)).1 := by
  cases stage : call.stage with
  | allocPage =>
      simp only [step]
      split_ifs
      · refine ⟨relies.unmapped, fun inside aPage listed => ?_, fun aPage held => ?_⟩
        · dsimp only
          rw [obtained_other (single.known aPage listed)]
          exact relies.unrecorded inside aPage listed
        · obtain ⟨known, obtained⟩ := relies.held aPage held
          exact ⟨Nat.lt_succ_of_lt known, (obtained_other known _).trans obtained⟩
      · exact relies
  | remapPfnRange aPage =>
      simp only [step]
      split_ifs
      · exact relies
      · refine ⟨fun unmapped => ?_, relies.unrecorded, relies.held⟩
        have different := apart (Stage.inside_of_unmapped unmapped)
        rw [maps_cons, relies.unmapped unmapped, Bool.or_false, beq_eq_false_iff_ne]
        exact different.symm
      · exact relies
  | record aPage =>
      simp only [step]
      split_ifs
      · refine ⟨relies.unmapped, fun inside page listed => ?_, relies.held⟩
        rcases List.mem_cons.1 listed with rfl | earlier
        · have obtained := (own.held page (by rw [stage]; rfl)).2
          intro same
          exact apart inside (Option.some.inj (same.symm.trans obtained))
        · exact relies.unrecorded inside page earlier
      · exact ⟨relies.unmapped, relies.unrecorded, relies.held⟩
  | returned fault => exact relies
  | oops => exact relies

/-- The statements of a call establish what its next statements rely on. -/
theorem Call.Relies.step (relies : call.Relies memory) (single : memory.Single) :
    Call.Relies { call with stage := (step call.faultAddress calls (memory, call.stage)).2 }
      (Fault.step call.faultAddress calls (memory, call.stage)).1 := by
  cases stage : call.stage with
  | allocPage =>
      simp only [Fault.step]
      split_ifs
      · have unmapped := relies.unmapped (by rw [stage]; rfl)
        have unrecorded := relies.unrecorded (by rw [stage]; rfl)
        refine ⟨fun _ => unmapped, fun _ aPage listed => ?_, fun aPage held => ?_⟩
        · dsimp only
          rw [obtained_other (single.known aPage listed)]
          exact unrecorded aPage listed
        · obtain rfl := Option.some.inj held
          exact ⟨Nat.lt_succ_self _, Function.update_self ..⟩
      · exact .ended rfl
  | remapPfnRange aPage =>
      have unrecorded := relies.unrecorded (by rw [stage]; rfl)
      have held := relies.held aPage (by rw [stage]; rfl)
      simp only [Fault.step]
      split_ifs
      · exact .ended rfl
      · exact ⟨fun outside => absurd outside (by simp [Stage.unmapped]), fun _ => unrecorded,
          fun page same => Option.some.inj same ▸ held⟩
      · exact ⟨fun outside => absurd outside (by simp [Stage.unmapped]), fun _ => unrecorded,
          fun page same => Option.some.inj same ▸ held⟩
  | record aPage =>
      simp only [Fault.step]
      split_ifs
      · exact .ended rfl
      · exact .ended rfl
  | returned fault => exact .ended rfl
  | oops => exact .ended rfl

/-- The statements of a call record a page for an address that has none. -/
theorem Memory.Single.step (single : memory.Single) (relies : call.Relies memory) :
    (Fault.step call.faultAddress calls (memory, call.stage)).1.Single := by
  cases stage : call.stage with
  | allocPage =>
      simp only [Fault.step]
      split_ifs
      · refine ⟨fun aPage listed => Nat.lt_succ_of_lt (single.known aPage listed), ?_⟩
        have same : memory.ptrToPagelist.map (Function.update memory.obtainedFor memory.pages
            (some (pageStart call.faultAddress))) = memory.ptrToPagelist.map memory.obtainedFor :=
          List.map_congr_left fun aPage listed => obtained_other (single.known aPage listed) _
        exact same ▸ single.single
      · exact single
  | remapPfnRange aPage =>
      simp only [Fault.step]
      split_ifs
      · exact single
      · exact ⟨single.known, single.single⟩
      · exact single
  | record aPage =>
      obtain ⟨known, obtained⟩ := relies.held aPage (by rw [stage]; rfl)
      have unrecorded := relies.unrecorded (by rw [stage]; rfl)
      simp only [Fault.step]
      split_ifs
      · refine ⟨fun page listed => ?_, ?_⟩
        · rcases List.mem_cons.1 listed with rfl | earlier
          · exact known
          · exact single.known page earlier
        · refine List.nodup_cons.2 ⟨fun listed => ?_, single.single⟩
          obtain ⟨page, earlier, same⟩ := List.mem_map.1 listed
          exact unrecorded page earlier (same.trans obtained)
      · exact ⟨single.known, single.single⟩
  | returned fault => exact single
  | oops => exact single

section Runs

variable {n : Nat} {state next : State n} {t : Fin n}

/-- The state after a statement of a call. -/
def State.after (state : State n) (t : Fin n) (call : Call) (calls : Calls) : State n :=
  ⟨(Fault.step call.faultAddress calls (state.memory, call.stage)).1, Function.update state.thread t
    (some { call with stage := (Fault.step call.faultAddress calls (state.memory, call.stage)).2 })⟩

/-- A statement of a thread is one of its call. -/
theorem step_statement (found : state.thread t = some call) (inside : call.stage.inside = true) (calls : Calls) :
    state.step (.statement t calls) = some (state.after t call calls) := by
  simp only [State.step, found, if_pos inside]
  rfl

theorem statement_cases (taken : state.step (.statement t calls) = some next) :
    ∃ call, state.thread t = some call ∧ call.stage.inside = true ∧ next = state.after t call calls := by
  cases found : state.thread t with
  | none => simp [State.step, found] at taken
  | some call =>
      by_cases inside : call.stage.inside = true
      · rw [step_statement found inside, Option.some.injEq] at taken
        exact ⟨call, rfl, inside, taken.symm⟩
      · simp [State.step, found, inside] at taken

theorem fault_cases {faultAddress : BitVec 32} (taken : state.step (.fault t faultAddress) = some next) :
    state.busy t = false ∧ state.memory.maps (pageStart faultAddress) = false ∧
      next = { state with thread := Function.update state.thread t (some ⟨faultAddress, .allocPage⟩) } := by
  simp only [State.step, Option.ite_none_right_eq_some, Option.some.injEq] at taken
  exact ⟨taken.1.1, taken.1.2, taken.2.symm⟩

/-- A thread has the call that was stored last. -/
theorem thread_update {stored : Call} {u : Fin n} (found : call ∈ Function.update state.thread t (some stored) u) :
    u = t ∧ call = stored ∨ u ≠ t ∧ call ∈ state.thread u := by
  by_cases own : u = t
  · subst own
    rw [Function.update_self] at found
    exact .inl ⟨rfl, (Option.some.inj found).symm⟩
  · rw [Function.update_of_ne own] at found
    exact .inr ⟨own, found⟩

/-- The memory is well formed, and each page that a call holds is allocated. -/
structure Allocated (state : State n) : Prop where
  memory : state.memory.WellFormed
  held : ∀ t, ∀ call ∈ state.thread t, ∀ aPage ∈ call.stage.holds, aPage ∈ state.memory.live

/-- No statement frees a page. -/
theorem step_live {faultAddress : BitVec 32} {stage : Stage} {page : Page} (live : page ∈ memory.live) :
    page ∈ (step faultAddress calls (memory, stage)).1.live := by
  cases stage <;> simp only [step]
  case allocPage =>
    split_ifs
    · exact List.mem_cons_of_mem _ live
    · exact live
  case remapPfnRange | record => split_ifs <;> exact live
  all_goals exact live

/-- The page that a call holds after a statement is allocated. -/
theorem step_held {faultAddress : BitVec 32} {stage : Stage}
    (held : ∀ aPage ∈ stage.holds, aPage ∈ memory.live) :
    ∀ aPage ∈ (step faultAddress calls (memory, stage)).2.holds,
      aPage ∈ (step faultAddress calls (memory, stage)).1.live := by
  intro aPage holds
  cases stage <;> simp only [step] at holds ⊢
  case allocPage =>
    split_ifs at holds ⊢
    · obtain rfl := Option.some.inj holds
      exact List.mem_cons_self ..
    · contradiction
  case remapPfnRange page =>
    split_ifs at holds ⊢
    · contradiction
    · exact held aPage holds
    · exact held aPage holds
  case record page => split_ifs at holds <;> contradiction
  all_goals contradiction

/-- Concurrent faults keep the memory well formed. -/
theorem allocated_reached {guard : Guard (State n) (Event n)} (reached : (faulting n).Reaches guard state) :
    Allocated state := by
  refine reached.invariant Allocated ?_ ?_
  · rintro _ rfl
    exact ⟨⟨by simp, by simp⟩, by simp⟩
  · intro current event following _ allocated _ taken
    cases event with
    | fault t faultAddress =>
        obtain ⟨_, _, rfl⟩ := fault_cases taken
        refine ⟨allocated.memory, fun u call found aPage holds => ?_⟩
        rcases thread_update found with ⟨_, rfl⟩ | ⟨_, earlier⟩
        · contradiction
        · exact allocated.held u call earlier aPage holds
    | statement t calls =>
        obtain ⟨own, found, _, rfl⟩ := statement_cases taken
        have held := allocated.held t own found
        refine ⟨step_wellFormed allocated.memory fun aPage stage => held aPage (by rw [stage]; rfl), ?_⟩
        intro u call updated aPage holds
        rcases thread_update updated with ⟨_, rfl⟩ | ⟨_, earlier⟩
        · exact step_held held aPage holds
        · exact step_live (allocated.held u call earlier aPage holds)

/-- No two threads are inside `do_fault` for one page. -/
structure Separate (state : State n) : Prop where
  memory : state.memory.Single
  calls : ∀ t, ∀ call ∈ state.thread t, call.Relies state.memory
  apart : ∀ t u call other, call ∈ state.thread t → other ∈ state.thread u → call.stage.inside = true →
    other.stage.inside = true → pageStart call.faultAddress = pageStart other.faultAddress → t = u

/-- A fault that is alone keeps the threads separate. -/
theorem Separate.fault {faultAddress : BitVec 32} (separate : Separate state)
    (alone : Alone state (.fault t faultAddress)) (taken : state.step (.fault t faultAddress) = some next) :
    Separate next := by
  obtain ⟨_, unmapped, rfl⟩ := fault_cases taken
  obtain ⟨others, unrecorded⟩ := alone
  refine ⟨separate.memory, fun u call found => ?_, fun u v call other first second inside also same => ?_⟩
  · rcases thread_update found with ⟨_, rfl⟩ | ⟨_, earlier⟩
    · exact ⟨fun _ => unmapped, fun _ => unrecorded, fun _ none => absurd none (by simp [Stage.holds])⟩
    · exact separate.calls u call earlier
  · rcases thread_update first with ⟨rfl, rfl⟩ | ⟨_, earlier⟩
    · rcases thread_update second with ⟨rfl, _⟩ | ⟨_, others'⟩
      · rfl
      · exact absurd same.symm (others v other others' also)
    · rcases thread_update second with ⟨rfl, rfl⟩ | ⟨_, earlier'⟩
      · exact absurd same (others u call earlier inside)
      · exact separate.apart u v call other earlier earlier' inside also same

/-- A statement keeps the threads separate. -/
theorem Separate.statement (separate : Separate state) (taken : state.step (.statement t calls) = some next) :
    Separate next := by
  obtain ⟨own, found, inside, rfl⟩ := statement_cases taken
  have relies := separate.calls t own found
  refine ⟨separate.memory.step relies, fun u call updated => ?_, fun u v call other first second busy also same => ?_⟩
  · rcases thread_update updated with ⟨_, rfl⟩ | ⟨different, earlier⟩
    · exact relies.step separate.memory
    · refine (separate.calls u call earlier).frame separate.memory relies fun busy same => different ?_
      exact separate.apart u t call own earlier found busy inside same
  · rcases thread_update first with ⟨rfl, rfl⟩ | ⟨_, earlier⟩
    · rcases thread_update second with ⟨rfl, _⟩ | ⟨_, earlier'⟩
      · rfl
      · exact separate.apart u v own other found earlier' inside also same
    · rcases thread_update second with ⟨rfl, rfl⟩ | ⟨_, earlier'⟩
      · exact separate.apart u v call own earlier found busy inside same
      · exact separate.apart u v call other earlier earlier' busy also same

/-- The threads of a run are separate, provided that each fault is alone. -/
theorem separate_reached (reached : (faulting n).Reaches Alone state) : Separate state := by
  refine reached.invariant Separate ?_ ?_
  · rintro _ rfl
    exact ⟨⟨by simp, by simp⟩, by simp, by simp⟩
  · intro current event following _ separate alone taken
    cases event with
    | fault t faultAddress => exact separate.fault alone taken
    | statement t calls => exact separate.statement taken

/-- In each run whose faults are alone, each address has one page. -/
theorem one_page_reached (reached : (faulting n).Reaches Alone state) : OnePage state := by
  have separate := separate_reached reached
  refine ⟨fun t call aPage found stage => ?_, separate.memory.single⟩
  exact (separate.calls t call found).unmapped (by rw [stage]; rfl)

/-- Calls that succeed. -/
def succeeding : Calls := ⟨true, 0, true⟩

/-- A run after which some address has two pages. -/
def Breaks (state : State n) : Prop :=
  ∃ events final, (faulting n).execute state events = some final ∧ ¬ OnePage final

theorem Breaks.before {event : Event n} (breaks : Breaks next) (taken : state.step event = some next) :
    Breaks state := by
  obtain ⟨events, final, executed, two⟩ := breaks
  refine ⟨event :: events, final, ?_, two⟩
  simpa only [Machine.execute, faulting, taken, Option.bind_some] using executed

/-- A fault that allocates its page while another one remaps the same page finds its address mapped. -/
theorem remap_breaks {u : Fin n} {faultAddress address : BitVec 32} {aPage : Page} (different : t ≠ u)
    (entered : state.thread t = some ⟨faultAddress, .allocPage⟩)
    (found : state.thread u = some ⟨address, .remapPfnRange aPage⟩)
    (same : pageStart address = pageStart faultAddress) :
    Breaks state := by
  let first := state.after t ⟨faultAddress, .allocPage⟩ succeeding
  let second := first.after u ⟨address, .remapPfnRange aPage⟩ succeeding
  have firstTaken : state.step (.statement t succeeding) = some first := step_statement entered rfl succeeding
  have kept : first.thread u = some ⟨address, .remapPfnRange aPage⟩ :=
    (Function.update_of_ne different.symm ..).trans found
  have secondTaken : first.step (.statement u succeeding) = some second := step_statement kept rfl succeeding
  refine ⟨[.statement t succeeding, .statement u succeeding], second, ?_, fun one => ?_⟩
  · simp only [Machine.execute, faulting, firstTaken, secondTaken, Option.bind_some]
  · have waiting : second.thread t = some ⟨faultAddress, .remapPfnRange state.memory.pages⟩ :=
      (Function.update_of_ne different ..).trans (Function.update_self ..)
    have unmapped := one.unmapped t _ _ waiting rfl
    have mapped : second.memory.maps (pageStart faultAddress) = true := by
      show (pageStart address == pageStart faultAddress || first.memory.maps (pageStart faultAddress)) = true
      rw [same, beq_self_eq_true, Bool.true_or]
    exact absurd (mapped.symm.trans unmapped) (by decide)

/-- A fault for a page that is recorded records a second one. -/
theorem record_breaks {faultAddress : BitVec 32} {aPage : Page}
    (entered : state.thread t = some ⟨faultAddress, .allocPage⟩) (known : aPage < state.memory.pages)
    (listed : aPage ∈ state.memory.ptrToPagelist)
    (obtained : state.memory.obtainedFor aPage = some (pageStart faultAddress)) :
    Breaks state := by
  let first := state.after t ⟨faultAddress, .allocPage⟩ succeeding
  let second := first.after t ⟨faultAddress, .remapPfnRange state.memory.pages⟩ succeeding
  let third := second.after t ⟨faultAddress, .record state.memory.pages⟩ succeeding
  have firstTaken : state.step (.statement t succeeding) = some first := step_statement entered rfl succeeding
  have secondTaken : first.step (.statement t succeeding) = some second :=
    step_statement (Function.update_self t _ _) rfl succeeding
  have thirdTaken : second.step (.statement t succeeding) = some third :=
    step_statement (Function.update_self ..) rfl succeeding
  refine ⟨List.replicate 3 (.statement t succeeding), third, ?_, fun one => ?_⟩
  · simp only [List.replicate, Machine.execute, faulting, firstTaken, secondTaken, thirdTaken, Option.bind_some]
  · have again : third.memory.obtainedFor state.memory.pages = third.memory.obtainedFor aPage := by
      show Function.update state.memory.obtainedFor state.memory.pages (some (pageStart faultAddress))
          state.memory.pages =
        Function.update state.memory.obtainedFor state.memory.pages (some (pageStart faultAddress)) aPage
      rw [Function.update_self, obtained_other known, obtained]
    have distinct : ((state.memory.pages :: state.memory.ptrToPagelist).map third.memory.obtainedFor).Nodup :=
      one.single
    exact (List.nodup_cons.1 distinct).1 (again ▸ List.mem_map_of_mem listed)

/-- The condition is exact: after a fault that is not alone, some continuation gives an address two pages. -/
theorem overlap_breaks {faultAddress : BitVec 32} (reached : (faulting n).Reaches Alone state)
    (taken : state.step (.fault t faultAddress) = some next) (overlap : ¬ Alone state (.fault t faultAddress)) :
    Breaks next := by
  have separate := separate_reached reached
  obtain ⟨idle, _, fault⟩ := fault_cases taken
  have memory : next.memory = state.memory := by rw [fault]
  have entered : next.thread t = some ⟨faultAddress, .allocPage⟩ := by
    rw [fault]
    exact Function.update_self ..
  by_cases recorded : ∃ aPage ∈ state.memory.ptrToPagelist,
      state.memory.obtainedFor aPage = some (pageStart faultAddress)
  · obtain ⟨aPage, listed, obtained⟩ := recorded
    rw [← memory] at listed obtained
    exact record_breaks entered (memory ▸ separate.memory.known aPage (memory ▸ listed)) listed obtained
  · have held : ∃ u, ∃ call ∈ state.thread u, call.stage.inside = true ∧
        pageStart call.faultAddress = pageStart faultAddress := by
      by_contra free
      push Not at free recorded
      exact overlap ⟨free, recorded⟩
    obtain ⟨u, ⟨address, stage⟩, found, inside, same⟩ := held
    have different : t ≠ u := by
      rintro rfl
      simp only [State.busy, Option.mem_def.1 found, Option.any_some] at idle
      exact absurd (inside.symm.trans idle) (by decide)
    have kept : next.thread u = some ⟨address, stage⟩ := by
      rw [fault]
      exact (Function.update_of_ne different.symm ..).trans found
    have waits (calls : Calls) : (next.after u ⟨address, stage⟩ calls).thread t = some ⟨faultAddress, .allocPage⟩ :=
      (Function.update_of_ne different ..).trans entered
    have moves := step_statement kept inside succeeding
    -- the other call is led to the statement after which both calls use the page
    cases stage with
    | allocPage => exact (remap_breaks different (waits succeeding) (Function.update_self ..) same).before moves
    | remapPfnRange aPage => exact remap_breaks different entered kept same
    | record aPage =>
        obtain ⟨known, obtained⟩ := (separate.calls u _ found).held aPage rfl
        rw [← memory] at known obtained
        have breaks := record_breaks (waits succeeding) known (List.mem_cons_self ..)
          (obtained.trans (congrArg some same))
        exact breaks.before moves
    | returned fault => exact absurd inside (by simp [Stage.inside])
    | oops => exact absurd inside (by simp [Stage.inside])

/-- Two threads fault on two pages, one after the other, and their statements alternate. -/
def twoPages : List (Event 2) :=
  [.fault 0 0x1000, .fault 1 0x2000, .statement 0 succeeding, .statement 1 succeeding, .statement 0 succeeding,
    .statement 1 succeeding, .statement 1 succeeding, .statement 0 succeeding]

theorem one_page_two :
    ∃ state : State 2, (faulting 2).Reaches Alone state ∧ OnePage state ∧ state.memory.ptrToPagelist = [0, 1] := by
  have admitted : (faulting 2).admits Alone {} twoPages = true := by decide +kernel
  have executed : ((faulting 2).execute {} twoPages).map (fun state => state.memory.ptrToPagelist) = some [0, 1] := by
    decide +kernel
  obtain ⟨state, reached, shown⟩ := Machine.admits_shows rfl twoPages admitted _ executed
  exact ⟨state, reached, one_page_reached reached, shown⟩

/-- Two threads fault on one page before either has mapped it. -/
def oneTwice : List (Event 2) :=
  [.fault 0 0x1000, .fault 1 0x1234, .statement 0 succeeding, .statement 1 succeeding, .statement 0 succeeding]

theorem remapped_twice : ¬ ∀ n (state : State n), (faulting n).Reachable state → OnePage state := by
  intro one
  have executed : ((faulting 2).execute {} oneTwice).map
      (fun state => (state.thread 1, state.memory.maps 0x1000)) =
        some (some ⟨0x1234, .remapPfnRange 1⟩, true) := by
    decide +kernel
  obtain ⟨state, reached, shown⟩ := Machine.execute_shows rfl oneTwice _ executed
  simp only [Prod.mk.injEq] at shown
  have unmapped := (one 2 state reached).unmapped 1 _ 1 shown.1 rfl
  have start : pageStart 0x1234 = 0x1000 := by decide
  rw [start, shown.2] at unmapped
  exact absurd unmapped (by decide)

end Runs

end KernelStudio.Paging.Fault
