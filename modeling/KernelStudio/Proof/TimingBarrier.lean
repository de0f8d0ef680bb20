/-
This file proves what the barrier experiment reports: the latest arrival and, in some order, the four second stamps.
Each second stamp is taken before its own thread has entered `wait`.
-/

import KernelStudio.Construction.TimingBarrier
import KernelStudio.Library.Barrier
import KernelStudio.Library.Exchange
import Mathlib.Algebra.Order.BigOperators.Group.Finset
import Mathlib.Order.Bounds.Basic

namespace KernelStudio.TimingBarrier

open Transition

section Exit

/-- The first stamps. -/
def arrivals (tsArray : Nat → Int) : Set Int := {stamp | ∃ t : Fin 4, stamp = tsArray (t.val * 2)}

/-- The second stamps in the order of the threads. -/
def departures (tsArray : Nat → Int) : List Int := (List.finRange 4).map fun t => tsArray (t.val * 2 + 1)

/-- A loop that keeps the larger value ends with the largest one. -/
theorem foldl_latest (value : Nat → Int) (indices : List Nat) (start : Int) :
    IsGreatest {stamp | stamp = start ∨ ∃ i ∈ indices, stamp = value i}
      (indices.foldl (fun latest i => if value i > latest then value i else latest) start) := by
  induction indices generalizing start with
  | nil => exact ⟨.inl rfl, fun stamp member => by simp_all⟩
  | cons i rest inductionHypothesis =>
      obtain ⟨member, upper⟩ := inductionHypothesis (if value i > start then value i else start)
      constructor
      · rcases member with same | ⟨later, inside, same⟩
        · rw [List.foldl_cons, same]
          split_ifs
          · exact .inr ⟨i, List.mem_cons_self, rfl⟩
          · exact .inl rfl
        · exact .inr ⟨later, List.mem_cons_of_mem _ inside, same⟩
      · have first : (if value i > start then value i else start) ≤ _ := upper (.inl rfl)
        rintro stamp (rfl | ⟨later, inside, rfl⟩)
        · refine le_trans ?_ first
          split_ifs <;> omega
        · rcases List.mem_cons.1 inside with rfl | further
          · refine le_trans ?_ first
            split_ifs <;> omega
          · exact upper (.inr ⟨later, further, rfl⟩)

theorem lastArrival_greatest (tsArray : Nat → Int) : IsGreatest (arrivals tsArray) (lastArrival tsArray) := by
  obtain ⟨member, upper⟩ := foldl_latest (fun i => tsArray (i * 2)) (List.range 4) (tsArray 0)
  constructor
  · rcases member with same | ⟨i, inside, same⟩
    · exact ⟨0, same⟩
    · exact ⟨⟨i, List.mem_range.1 inside⟩, same⟩
  · rintro stamp ⟨t, rfl⟩
    exact upper (.inr ⟨t.val, List.mem_range.2 t.isLt, rfl⟩)

/-- The indices behind the first one. -/
theorem mem_later {k : Nat} : k ∈ [1, 2, 3, 4] ↔ 1 ≤ k ∧ k ≤ 4 := by
  simp only [List.mem_cons, List.not_mem_nil, or_false]
  omega

/-- A round of the inner loop rearranges the entries behind the first one. -/
theorem exchange_perm {i j : Nat} (outer : i ∈ [1, 2, 3, 4]) (inner : j ∈ [1, 2, 3, 4]) (array : Nat → Int) :
    ([1, 2, 3, 4].map (exchange i array j)).Perm ([1, 2, 3, 4].map array) ∧
      ∀ k ∉ [1, 2, 3, 4], exchange i array j k = array k := by
  unfold exchange
  dsimp only
  split_ifs
  · rw [Exchange.swapped_eq_update]
    refine ⟨Exchange.swapped_perm (by decide) outer inner array, fun k outside => ?_⟩
    have other : k ≠ i ∧ k ≠ j := ⟨fun same => outside (same ▸ outer), fun same => outside (same ▸ inner)⟩
    exact congrArg array (Equiv.swap_apply_of_ne_of_ne other.1 other.2)
  · exact ⟨List.Perm.refl _, fun _ _ => rfl⟩

theorem exchanges_perm {i : Nat} (outer : i ∈ [1, 2, 3, 4]) (array : Nat → Int) :
    ([1, 2, 3, 4].map (exchanges array i)).Perm ([1, 2, 3, 4].map array) ∧
      ∀ k ∉ [1, 2, 3, 4], exchanges array i k = array k := by
  refine Exchange.foldl_perm (exchange i) _ (fun j inner => ?_) array
  have bounds := List.mem_range'_1.1 inner
  have top := mem_later.1 outer
  exact exchange_perm outer (mem_later.2 (by omega))

/-- The loops of `timing_exit` report the latest arrival and the second stamps in some order. -/
theorem exitArray_report (tsArray : Nat → Int) : IsGreatest (arrivals tsArray) (exitArray tsArray 0) ∧
    ([1, 2, 3, 4].map (exitArray tsArray)).Perm (departures tsArray) := by
  obtain ⟨perm, kept⟩ := Exchange.foldl_perm exchanges [4, 3, 2, 1] (fun i outer => by
    have inside : i ∈ [1, 2, 3, 4] := mem_later.2 (by simp at outer; omega)
    exact exchanges_perm inside) (loaded tsArray)
  constructor
  · have first : exitArray tsArray 0 = lastArrival tsArray := kept 0 (by decide)
    exact first ▸ lastArrival_greatest tsArray
  · exact perm

end Exit

/-- The report is in order: each second stamp was taken when all threads had entered `wait`, none is before a first
stamp, and the printed differences are those between the last arrival and the departures in their order. -/
structure InOrder (state : State) : Prop where
  gathered : ∀ t, state.departed t ≠ some false
  later : ∀ t u, state.departed t ≠ none → state.pc u ≠ .firstStamp →
    state.tsArray (u.val * 2) ≤ state.tsArray (t.val * 2 + 1)
  sorted : ∀ array, state.array = some array → ∃ last sequence, IsGreatest (arrivals state.tsArray) last ∧
    sequence.Perm (departures state.tsArray) ∧ sequence.Pairwise (· ≤ ·) ∧
      array 0 = last ∧ [1, 2, 3, 4].map array = sequence ∧ printed array = sequence.map (ktimeUsDelta last)

/-- The thread has decremented the counter. -/
def Pc.arrived : Pc → Bool
  | .atomicRead | .returned => true
  | _ => false

/-- What the steps of a run keep. The counter counts the threads that have not arrived, so no thread returns before all
have. -/
structure Kept (state : State) : Prop where
  early : ∀ t, state.departed t ≠ some true
  taken : ∀ t, (state.pc t).entered = true → state.departed t ≠ none
  counted : state.counter = Barrier.missing fun t => (state.pc t).arrived
  barrier : ∀ t, state.pc t = .returned → ∀ u, (state.pc u).arrived = true
  report : ∀ array, state.array = some array → array = exitArray state.tsArray ∧ ∀ t, state.pc t = .returned

variable {state next : State} {t : Fin 4}

/-- The loops of `timing_exit` have not run as long as some thread is running. -/
theorem Kept.running (kept : Kept state) (running : state.pc t ≠ .returned) : state.array = none := by
  cases found : state.array with
  | none => rfl
  | some array => exact absurd ((kept.report array found).2 t) running

/-- A statement before the barrier changes the stamps only. -/
theorem Kept.advance (kept : Kept state) {pc : Pc} (out : (state.pc t).arrived = false) (stays : pc.arrived = false)
    {tsArray : Nat → Int} {departed : Fin 4 → Option Bool} (early : ∀ u, departed u ≠ some true)
    (taken : ∀ u, (Function.update state.pc t pc u).entered = true → departed u ≠ none) :
    Kept { state with tsArray, departed, pc := Function.update state.pc t pc } := by
  have running : state.pc t ≠ .returned := by
    intro returned
    rw [returned] at out
    exact absurd out (by decide)
  have same (u : Fin 4) : (Function.update state.pc t pc u).arrived = (state.pc u).arrived := by
    by_cases own : u = t
    · rw [own, Function.update_self, stays, out]
    · rw [Function.update_of_ne own]
  refine ⟨early, taken, ?_, fun u returned => ?_, fun array found => ?_⟩
  · simp only [same]
    exact kept.counted
  · have arrived : (state.pc t).arrived = true := by
      apply kept.barrier u
      dsimp only at returned
      by_cases own : u = t
      · rw [own, Function.update_self] at returned
        rw [returned] at stays
        exact absurd stays (by decide)
      · rwa [Function.update_of_ne own] at returned
    exact absurd (out.symm.trans arrived) (by decide)
  · rw [kept.running running] at found
    cases found

/-- The decrement is an arrival. -/
theorem Kept.decrement (kept : Kept state) (position : state.pc t = .atomicSub) :
    Kept ({ state with counter := state.counter - 1 }.goto t .atomicRead) := by
  have running : state.pc t ≠ .returned := by
    rw [position]
    decide
  refine ⟨kept.early, fun u entered => ?_, ?_, fun u returned => ?_, fun array found => ?_⟩
  · by_cases own : u = t
    · exact own ▸ kept.taken t (by rw [position]; rfl)
    · simp only [State.goto, Function.update_of_ne own] at entered
      exact kept.taken u entered
  · have arrival : Barrier.missing (fun u => (state.pc u).arrived) =
        Barrier.missing (fun u => (Function.update state.pc t .atomicRead u).arrived) + 1 := by
      apply Barrier.missing_arrive (i := t)
      · rw [position]
        rfl
      · rw [Function.update_self]
        rfl
      · exact fun u other => by rw [Function.update_of_ne other]
    have counted := kept.counted
    simp only [State.goto]
    omega
  · have other : u ≠ t := by
      rintro rfl
      simp [State.goto] at returned
    simp only [State.goto, Function.update_of_ne other] at returned
    have arrived := kept.barrier u returned t
    rw [position] at arrived
    exact absurd arrived (by decide)
  · have none : state.array = some array := found
    rw [kept.running running] at none
    cases none

/-- A thread that reads zero finds all threads at the barrier. -/
theorem Kept.read (kept : Kept state) (position : state.pc t = .atomicRead) (zero : state.counter = 0) :
    Kept (state.goto t .returned) := by
  have running : state.pc t ≠ .returned := by
    rw [position]
    decide
  have all : ∀ u, (state.pc u).arrived = true := by
    have counted := kept.counted
    exact Barrier.missing_eq_zero_iff.1 (by omega)
  have same (u : Fin 4) : (Function.update state.pc t .returned u).arrived = (state.pc u).arrived := by
    by_cases own : u = t
    · rw [own, Function.update_self, all t]
      rfl
    · rw [Function.update_of_ne own]
  refine ⟨kept.early, fun u entered => ?_, ?_, fun u _ v => ?_, fun array found => ?_⟩
  · by_cases own : u = t
    · exact own ▸ kept.taken t (by rw [position]; rfl)
    · simp only [State.goto, Function.update_of_ne own] at entered
      exact kept.taken u entered
  · simp only [State.goto, same]
    exact kept.counted
  · exact (same v).trans (all v)
  · have none : state.array = some array := found
    rw [kept.running running] at none
    cases none

theorem kept_thread (kept : Kept state) (taken : threadFn state t = some next) : Kept next := by
  unfold threadFn at taken
  split at taken
  next position =>
    obtain rfl := Option.some.inj taken
    refine kept.advance (by rw [position]; rfl) rfl kept.early fun u entered => ?_
    by_cases own : u = t
    · rw [own, Function.update_self] at entered
      exact absurd entered (by decide)
    · exact kept.taken u (by rwa [Function.update_of_ne own] at entered)
  next position =>
    obtain rfl := Option.some.inj taken
    refine kept.advance (by rw [position]; rfl) rfl kept.early fun u entered => ?_
    by_cases own : u = t
    · rw [own, Function.update_self] at entered
      exact absurd entered (by decide)
    · exact kept.taken u (by rwa [Function.update_of_ne own] at entered)
  next position =>
    obtain rfl := Option.some.inj taken
    -- the thread itself has not entered `wait`
    have before : decide (∀ u, (state.pc u).entered = true) = false := by
      refine decide_eq_false fun all => ?_
      have entered := all t
      rw [position] at entered
      exact absurd entered (by decide)
    rw [before]
    have early (u : Fin 4) : Function.update state.departed t (some false) u ≠ some true := by
      by_cases own : u = t
      · rw [own, Function.update_self]
        decide
      · rw [Function.update_of_ne own]
        exact kept.early u
    have stamped (u : Fin 4) (entered : (Function.update state.pc t .atomicSub u).entered = true) :
        Function.update state.departed t (some false) u ≠ none := by
      by_cases own : u = t
      · rw [own, Function.update_self]
        decide
      · rw [Function.update_of_ne own] at entered ⊢
        exact kept.taken u entered
    exact kept.advance (by rw [position]; rfl) rfl early stamped
  next position =>
    obtain rfl := Option.some.inj taken
    exact kept.decrement position
  next position =>
    obtain rfl := Option.some.inj taken
    split_ifs with zero
    · exact kept.read position zero
    · exact kept
  next => cases taken

/-- The loops of `timing_exit` keep everything else. -/
theorem kept_exit (kept : Kept state) (taken : timingExit state = some next) : Kept next := by
  unfold timingExit at taken
  split_ifs at taken with ready
  obtain rfl := Option.some.inj taken
  refine ⟨kept.early, kept.taken, kept.counted, kept.barrier, fun array found => ?_⟩
  exact ⟨(Option.some.inj found).symm, ready.2⟩

theorem kept_reached (reached : timing.Reachable state) : Kept state := by
  refine reached.invariant Kept ?_ ?_
  · rintro _ ⟨now, rfl⟩
    have missing : Barrier.missing (fun _ : Fin 4 => Pc.firstStamp.arrived) = 4 := by decide
    refine ⟨fun _ => by simp, fun _ entered => ?_, congrArg Nat.cast missing.symm, fun _ returned => ?_,
      fun _ none => nomatch none⟩
    · have outside : Pc.firstStamp.entered = true := entered
      exact absurd outside (by decide)
    · have running : Pc.firstStamp = .returned := returned
      exact absurd running (by decide)
  · intro current event following _ kept _ taken
    cases event with
    | thread t => exact kept_thread kept taken
    | tick duration =>
        obtain rfl := Option.some.inj taken
        exact ⟨kept.early, kept.taken, kept.counted, kept.barrier, kept.report⟩
    | exit => exact kept_exit kept taken

/-- No thread returns from `wait` before all threads have entered it. -/
theorem wait_returns (reached : timing.Reachable state) (returned : state.pc t = .returned) (u : Fin 4) :
    (state.pc u).entered = true := by
  have arrived := (kept_reached reached).barrier t returned u
  cases position : state.pc u <;> rw [position] at arrived <;> first | rfl | exact absurd arrived (by decide)

/-- No run in which a thread has taken its second stamp is in order, and each report consists of the latest arrival and
the second stamps in some order. -/
theorem departures_out_of_order (reached : timing.Reachable state) :
    ((∃ t, state.departed t ≠ none) → ¬ InOrder state) ∧
      ∀ array, state.array = some array → ¬ InOrder state ∧ IsGreatest (arrivals state.tsArray) (array 0) ∧
        ([1, 2, 3, 4].map array).Perm (departures state.tsArray) := by
  have kept := kept_reached reached
  have early : (∃ t, state.departed t ≠ none) → ¬ InOrder state := by
    rintro ⟨t, taken⟩ inOrder
    cases departed : state.departed t with
    | none => exact taken departed
    | some all =>
        cases all with
        | false => exact inOrder.gathered t departed
        | true => exact kept.early t departed
  refine ⟨early, fun array found => ?_⟩
  obtain ⟨rfl, returned⟩ := kept.report array found
  exact ⟨early ⟨0, kept.taken 0 (by rw [returned 0]; rfl)⟩, exitArray_report state.tsArray⟩

/-- The statements of a thread up to its second stamp. -/
def stamps (t : Fin 4) : List Event := List.replicate 3 (.thread t)

/-- The threads run one after another, the last one first. -/
def backwards : List Event :=
  stamps 3 ++ .tick 1 :: stamps 2 ++ .tick 1 :: stamps 1 ++ .tick 1 :: stamps 0 ++
    (List.finRange 4).map .thread ++ (List.finRange 4).map .thread ++ [.exit]

/-- The run takes its last first stamp at 3 and reports the second stamps 0, 1, 3 and 2 in this order. -/
theorem execute_backwards : ∃ state array, timing.Reachable state ∧ state.departed 3 = some false ∧
    state.array = some array ∧ [0, 1, 2, 3, 4].map array = [3, 0, 1, 3, 2] := by
  have initial : timing.start { now := 0 } := ⟨0, rfl⟩
  have executed : (timing.execute { now := 0 } backwards).map
      (fun state => (state.departed 3, state.array.map fun array => [0, 1, 2, 3, 4].map array)) =
        some (some false, some [3, 0, 1, 3, 2]) := by
    decide +kernel
  obtain ⟨state, reached, shown⟩ := Machine.execute_shows initial backwards _ executed
  simp only [Prod.mk.injEq, Option.map_eq_some_iff] at shown
  obtain ⟨departed, array, found, values⟩ := shown
  exact ⟨state, array, reached, departed, found, values⟩

theorem departures_backwards : ∃ state array, timing.Reachable state ∧ state.array = some array ∧ ¬ InOrder state ∧
    IsGreatest (arrivals state.tsArray) (array 0) ∧ ([1, 2, 3, 4].map array).Perm (departures state.tsArray) := by
  obtain ⟨state, array, reached, _, found, _⟩ := execute_backwards
  exact ⟨state, array, reached, found, (departures_out_of_order reached).2 array found⟩

/-- The second stamp of the fourth thread is taken before the other threads have started, and the report is not even
sorted. -/
theorem report_unsorted : ¬ ∀ state, timing.Reachable state → InOrder state := by
  intro inOrder
  obtain ⟨state, _, reached, departed, _⟩ := execute_backwards
  exact (inOrder state reached).gathered 3 departed

/-- The statements that a thread has in front of it. -/
def Pc.remaining : Pc → Nat
  | .firstStamp => 5
  | .printk => 4
  | .secondStamp => 3
  | .atomicSub => 2
  | .atomicRead => 1
  | .returned => 0

def State.remaining (state : State) : Nat := ∑ t, (state.pc t).remaining

theorem remaining_lt (fewer : (next.pc t).remaining < (state.pc t).remaining)
    (others : ∀ u, u ≠ t → next.pc u = state.pc u) : next.remaining < state.remaining := by
  refine Finset.sum_lt_sum (fun u _ => ?_) ⟨t, Finset.mem_univ t, fewer⟩
  by_cases own : u = t
  · exact own ▸ fewer.le
  · rw [others u own]

/-- As long as some thread has not returned, some thread has a statement that brings it forward. -/
theorem Kept.advance_thread (kept : Kept state) (left : ¬ ∀ t, state.pc t = .returned) :
    ∃ t next, threadFn state t = some next ∧ next.remaining < state.remaining := by
  by_cases outside : ∃ t, (state.pc t).arrived = false
  · obtain ⟨t, early⟩ := outside
    cases position : state.pc t with
    | atomicRead | returned =>
        rw [position] at early
        exact absurd early (by decide)
    | _ =>
        refine ⟨t, _, by rw [threadFn, position], remaining_lt (t := t) ?_ fun u other => ?_⟩
        · simp [State.goto, position, Pc.remaining]
        · simp [State.goto, other]
  · -- all threads have arrived, so that the counter is zero and each of them reads it
    have arrived (u : Fin 4) : (state.pc u).arrived = true := by
      simpa using fun early => outside ⟨u, early⟩
    have zero : state.counter = 0 := by
      rw [kept.counted, Barrier.missing_eq_zero_iff.2 arrived]
      rfl
    obtain ⟨t, running⟩ := not_forall.mp left
    have position : state.pc t = .atomicRead := by
      have inside := arrived t
      cases found : state.pc t <;> rw [found] at inside running <;> first | rfl | contradiction
    refine ⟨t, state.goto t .returned, by rw [threadFn, position]; exact congrArg some (if_pos zero),
      remaining_lt (t := t) ?_ fun u other => ?_⟩
    · simp [State.goto, position, Pc.remaining]
    · simp [State.goto, other]

/-- In each reached state, no thread has returned from `wait` before all threads have entered it, and the threads can
still return together by their own statements. -/
theorem barrier_passed (reached : timing.Reachable state) :
    (∀ t, state.pc t = .returned → ∀ u, (state.pc u).entered = true) ∧
      ∃ events final, events.length ≤ 20 ∧ (∀ event ∈ events, ∃ t, event = .thread t) ∧
        timing.execute state events = some final ∧ ∀ t, final.pc t = .returned := by
  refine ⟨fun t returned => wait_returns reached returned, ?_⟩
  have advance (current : State) (kept : Kept current) (left : ¬ ∀ t, current.pc t = .returned) :
      ∃ event next, (∃ t, event = Event.thread t) ∧ timing.step current event = some next ∧ Kept next ∧
        next.remaining < current.remaining := by
    obtain ⟨t, next, taken, fewer⟩ := kept.advance_thread left
    exact ⟨.thread t, next, ⟨t, rfl⟩, taken, kept_thread kept taken, fewer⟩
  obtain ⟨events, final, short, threads, executed, _, returned⟩ :=
    Machine.exists_execute advance (kept_reached reached)
  refine ⟨events, final, short.trans ?_, threads, executed, returned⟩
  calc state.remaining ≤ ∑ _ : Fin 4, 5 := Finset.sum_le_sum fun t _ => by cases state.pc t <;> decide
    _ = 20 := rfl

/-- The fourth thread waits for the others, which have not started. -/
theorem barrier_passed_waiting : ∃ state events final, timing.Reachable state ∧ state.pc 3 = .atomicRead ∧
    state.counter = 3 ∧ timing.execute state events = some final ∧ final.pc 3 = .returned := by
  have initial : timing.start { now := 0 } := ⟨0, rfl⟩
  have executed : (timing.execute { now := 0 } (stamps 3 ++ stamps 3)).map
      (fun state => (state.pc 3, state.counter)) = some (.atomicRead, 3) := by decide +kernel
  obtain ⟨state, reached, shown⟩ := Machine.execute_shows initial _ _ executed
  simp only [Prod.mk.injEq] at shown
  obtain ⟨events, final, _, _, finished, returned⟩ := (barrier_passed reached).2
  exact ⟨state, events, final, reached, shown.1, shown.2, finished, returned 3⟩

end KernelStudio.TimingBarrier
