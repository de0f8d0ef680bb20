/-
This file follows the unload of the calibrate mode. The unload does not wait for the calibrate threads, so it is safe
exactly when they have finished before it prints and frees.
-/

import KernelStudio.Proof.EndToEnd.Calibrate

namespace KernelStudio.EndToEnd

open Transition

/-- The start timer will not wake a thread any more. -/
def CalTimer.spent : CalTimer → Bool
  | .off | .done => true
  | .armed _ => false
  | .running k => coreNum ≤ k

namespace CalibrateMode

/-- The thread will not dereference `cur` unless it is woken again. -/
def Thread.quiet (cur : Thread) : Bool :=
  match cur.pc with
  | .setCurrentState | .schedule .interruptible | .schedule .asleep | .exited => true
  | .schedule .running | .coreNum => cur.core = coreNum
  | _ => false

def State.Settled (state : State) : Prop :=
  state.calTimer.spent = true ∧ ∀ c < coreNum, (state.thread c).quiet = true

/-- A subtask is printed after its search, and the first `kfree` is called when no thread needs `sub_ptr`. -/
def State.unloadReady (plan : Plan) (state : State) : ExitPc → Prop
  | .subtasks i => i < plan.header.subtaskTot → (state.result i).isSome = true
  | .kfreeSentinel => state.Settled
  | _ => True

/-- The unload does not overtake the calibration. -/
def unloadAfter (plan : Plan) (state : State) : Event → Prop
  | .exit => state.unloadReady plan state.exit
  | _ => True

section

variable (plan : Plan) (state : State)

instance : (exit : ExitPc) → Decidable (state.unloadReady plan exit)
  | .subtasks _ => inferInstanceAs (Decidable (_ → _ = _))
  | .kfreeSentinel => inferInstanceAs (Decidable (_ = _ ∧ ∀ c < coreNum, _ = _))
  | .notStarted | .tasks _ | .kfreeSubPtr | .cancelCal | .returned => isTrue trivial

instance : (event : Event) → Decidable (unloadAfter plan state event)
  | .exit => inferInstanceAs (Decidable (state.unloadReady plan state.exit))
  | .init | .cal | .thread _ | .tick _ => isTrue trivial

end

/-- After a `kfree` no thread dereferences `cur` and the timer wakes none, and the printed loop counts are results. -/
structure TornDown (state : State) : Prop where
  unused : state.exit.freed = true → ∀ c, (state.thread c).pc.dereferences = false
  silent : state.exit.freed = true → ∀ k < coreNum, state.calTimer ≠ .running k
  printed : ∀ i subtask, .subtask i subtask ∈ state.lines → state.result i = some subtask.loopCount

variable {plan : Plan} {c now : Nat} {cur later : Thread} {write : Write} {state next : State}

/-- A thread that needs `sub_ptr` no more stays so. -/
theorem Move.quiet (move : Move plan cur later write) (quiet : cur.quiet = true) : later.quiet = true := by
  unfold Thread.quiet at quiet
  cases move with
  | search later write before _ _ _ _ =>
      cases pc : cur.pc <;> simp_all [Pc.searching]
  | mark | sleep | empty | leave => rfl
  | woken pc =>
      rw [pc] at quiet
      exact quiet
  | enter pc inside =>
      rw [pc] at quiet
      exact absurd (of_decide_eq_true quiet) inside
  | begin pc | core pc | work pc | final pc | printk pc | next pc =>
      rw [pc] at quiet
      contradiction

theorem quiet_dereferences (quiet : cur.quiet = true) : cur.pc.dereferences = false := by
  unfold Thread.quiet at quiet
  cases pc : cur.pc <;> simp_all [Pc.dereferences]

/-- This invariant holds along an unload that does not overtake the calibration. -/
structure Unloading (state : State) : Prop where
  settled : state.exit.freed = true → state.Settled
  printed : ∀ i subtask, .subtask i subtask ∈ state.lines → state.result i = some subtask.loopCount

theorem unloading_loaded (plan : Plan) (now : Nat) : Unloading (.loaded plan now) where
  settled freed := by simp [State.loaded, ExitPc.freed] at freed
  printed _ _ listed := by simp [State.loaded] at listed

theorem unloading_init (started : Started state) (unloading : Unloading state)
    (taken : step plan state .init = some next) : Unloading next := by
  have before := init_before_exit started.loaded taken
  have kept : next.exit = state.exit ∧ next.lines = state.lines ∧ next.result = state.result := by
    rcases step_init taken with ⟨i, _, _, rfl⟩ | ⟨i, _, _, rfl⟩ | ⟨i, _, rfl⟩ | ⟨_, rfl⟩ <;> exact ⟨rfl, rfl, rfl⟩
  obtain ⟨exit, lines, result⟩ := kept
  refine ⟨fun freed => ?_, ?_⟩
  · rw [exit, before] at freed
    contradiction
  · rw [lines, result]
    exact unloading.printed

theorem unloading_thread (calibrated : Calibrated plan state) (unloading : Unloading state)
    (taken : step plan state (.thread c) = some next) : Unloading next := by
  have result (i value : Nat) (known : state.result i = some value) : next.result i = some value :=
    calibrated.result_thread taken known
  obtain ⟨later, write, move, rfl⟩ := step_thread taken
  obtain ⟨_, exit, calTimer, lines⟩ :=
    write_frame (state.set c later) (plan.subtaskAt (state.thread c).cur) write
  refine ⟨fun freed => ?_, fun i subtask listed => ?_⟩
  · rw [exit] at freed
    obtain ⟨spent, quiet⟩ := unloading.settled freed
    refine ⟨calTimer ▸ spent, fun other inside => ?_⟩
    rw [thread_write]
    by_cases own : other = c
    · rw [own, set_self]
      exact move.quiet (quiet c (own ▸ inside))
    · rw [set_other _ _ own]
      exact quiet other inside
  · rw [lines] at listed
    exact result i _ (unloading.printed i subtask listed)

/-- After the first `kfree` the handler of the start timer can only return. -/
theorem unloading_cal (unloading : Unloading state) (taken : step plan state .cal = some next) : Unloading next := by
  rcases step_cal taken with ⟨expiry, position, rfl⟩ | ⟨k, position, more, rfl⟩ | ⟨k, _, _, rfl⟩
  · refine ⟨fun freed => ?_, unloading.printed⟩
    have spent := (unloading.settled freed).1
    rw [position] at spent
    contradiction
  · refine ⟨fun freed => ?_, unloading.printed⟩
    have spent := (unloading.settled freed).1
    rw [position] at spent
    exact absurd (of_decide_eq_true spent) (Nat.not_le_of_lt more)
  · exact ⟨fun freed => ⟨rfl, (unloading.settled freed).2⟩, unloading.printed⟩

theorem unloading_exit (calibrated : Calibrated plan state) (unloading : Unloading state)
    (ready : state.unloadReady plan state.exit) (taken : step plan state .exit = some next) : Unloading next := by
  have printed := unloading.printed
  rcases step_exit taken with ⟨_, _, rfl⟩ | ⟨k, position, rfl⟩ | ⟨k, position, rfl⟩ |
    ⟨i, position, inside, rfl⟩ | ⟨i, position, _, rfl⟩ | ⟨position, rfl⟩ | ⟨position, rfl⟩ | ⟨position, rfl⟩
  · exact ⟨(absurd · Bool.false_ne_true), printed⟩
  · refine ⟨(absurd · Bool.false_ne_true), fun i subtask listed => printed i subtask ?_⟩
    simpa using listed
  · exact ⟨(absurd · Bool.false_ne_true), printed⟩
  · rw [position] at ready
    refine ⟨(absurd · Bool.false_ne_true), fun j subtask listed => ?_⟩
    rcases List.mem_append.mp listed with before | new
    · exact printed j subtask before
    · -- the line shows the present loop count, which is the result of the search
      simp only [List.mem_singleton, FinLine.subtask.injEq] at new
      obtain ⟨rfl, rfl⟩ := new
      obtain ⟨value, known⟩ := Option.isSome_iff_exists.mp (ready inside)
      change state.result j = some (state.loopCount j)
      rw [known, calibrated.stored j value known]
  · exact ⟨(absurd · Bool.false_ne_true), printed⟩
  · rw [position] at ready
    exact ⟨fun _ => ready, printed⟩
  · exact ⟨fun _ => unloading.settled (by rw [position]; rfl), printed⟩
  · have settled := unloading.settled (by rw [position]; rfl)
    exact ⟨fun _ => ⟨rfl, settled.2⟩, printed⟩

/-- A run whose unload does not overtake the calibration keeps the invariant. -/
theorem unloading_reached (indexed : plan.Indexed) (reached : plan.calibrateMode.Reaches (unloadAfter plan) state) :
    Unloading state := by
  refine reached.invariant Unloading ?_ ?_
  · rintro _ ⟨now, rfl⟩
    exact unloading_loaded plan now
  · intro current event following before unloading admitted taken
    have calibrated := calibrated_reached indexed before
    change step plan current event = some following at taken
    cases event with
    | init => exact unloading_init (started_reached before) unloading taken
    | exit => exact unloading_exit calibrated unloading admitted taken
    | cal => exact unloading_cal unloading taken
    | thread c => exact unloading_thread calibrated unloading taken
    | tick duration =>
        obtain rfl := Option.some.inj taken
        exact ⟨unloading.settled, unloading.printed⟩

/-- The unload frees what no thread uses and prints results when it does not overtake the calibration. -/
theorem calibrate_teardown_safe (sort : KernelSort) (table : Table) {state : State}
    (reached : (table.plan sort).calibrateMode.Reaches (unloadAfter (table.plan sort)) state) : TornDown state := by
  have indexed := Header.plan_indexed sort table.toHeader
  have calibrated := calibrated_reached indexed reached
  have unloading := unloading_reached indexed reached
  refine ⟨fun freed c => ?_, fun freed k more running => ?_, unloading.printed⟩
  · by_cases inside : c < coreNum
    · exact quiet_dereferences ((unloading.settled freed).2 c inside)
    · rw [calibrated.unborn c (calibrated.born.trans (Nat.le_of_not_lt inside))]
      rfl
  · have spent := (unloading.settled freed).1
    rw [running] at spent
    exact absurd (of_decide_eq_true spent) (Nat.not_le_of_lt more)

/-- The unload of the pair comes after the two searches of its core. -/
def calibrateEvents : List Event := List.flatten
  [List.replicate 8 .init, [.tick 100000000],
    List.replicate 4 (.thread 0), List.replicate 4 (.thread 1), List.replicate 4 (.thread 2),
    List.replicate 5 .cal, List.replicate 2 (.thread 1), List.replicate 2 (.thread 2),
    List.replicate 329 (.thread 0), List.replicate 9 .exit]

/-- The unload of the pair prints the results of both searches. -/
theorem calibrate_teardown_safe_pair : ∃ state : State, state.exit = .returned ∧ state.result 0 = some 100000000 ∧
    state.result 1 = some 100000000 ∧ TornDown state := by
  let plan := pairTable.plan insertionSort
  have initial : plan.calibrateMode.start (.loaded plan 0) := ⟨0, rfl⟩
  have admitted : plan.calibrateMode.admits (unloadAfter plan) (.loaded plan 0) calibrateEvents = true := by
    decide +kernel
  have executed : ((plan.calibrateMode.execute (.loaded plan 0) calibrateEvents).map fun state =>
      (state.exit, state.result 0, state.result 1)) = some (.returned, some 100000000, some 100000000) := by
    decide +kernel
  obtain ⟨state, reached, shown⟩ := Machine.admits_shows initial calibrateEvents admitted _ executed
  simp only [Prod.mk.injEq] at shown
  obtain ⟨returned, first, second⟩ := shown
  exact ⟨state, returned, first, second, calibrate_teardown_safe insertionSort pairTable reached⟩

/-- The module is unloaded as soon as `E2E_init` has returned. -/
def earlyUnloadEvents : List Event :=
  List.replicate 8 .init ++ List.replicate 9 .exit ++ [.thread 0]

/-- A thread dereferences the freed `sub_ptr`, and the printed loop counts are those of the header. -/
theorem calibrate_teardown_unsafe : ∃ state, (pairTable.plan insertionSort).calibrateMode.Reachable state ∧
    state.exit.freed = true ∧ (state.thread 0).pc.dereferences = true ∧
    .subtask 0 ((pairTable.plan insertionSort).header.subtask 0) ∈ state.lines ∧ state.result 0 = none ∧
    ¬ TornDown state := by
  let plan := pairTable.plan insertionSort
  have initial : plan.calibrateMode.start (.loaded plan 0) := ⟨0, rfl⟩
  have executed : ((plan.calibrateMode.execute (.loaded plan 0) earlyUnloadEvents).map fun state =>
      (state.exit.freed, (state.thread 0).pc.dereferences,
        decide (.subtask 0 (plan.header.subtask 0) ∈ state.lines), state.result 0)) =
      some (true, true, true, none) := by decide +kernel
  obtain ⟨state, reached, shown⟩ := Machine.execute_shows initial earlyUnloadEvents _ executed
  simp only [Prod.mk.injEq, decide_eq_true_eq] at shown
  obtain ⟨freed, used, printed, result⟩ := shown
  refine ⟨state, reached, freed, used, printed, result, fun tornDown => ?_⟩
  have unused := tornDown.unused freed 0
  rw [used] at unused
  contradiction

/-- The number of statements before the next use of `cur` in a thread that needs it. -/
def Pc.distance : Pc → Nat
  | .schedule _ | .bounds => 2
  | .kthread | .coreNum | .whileBounds | .startT | .endT | .next => 1
  | _ => 0

/-- A woken thread that is not quiet comes to its next use of `cur`. -/
def Thread.Needs (cur : Thread) : Prop := cur.quiet = false ∧ cur.pc ≠ .unborn ∧ cur.pc ≠ .created

theorem Thread.Needs.approach (needs : cur.Needs) (before : cur.pc.dereferences = false) (plan : Plan) (now : Nat) :
    ∃ later write, calibrate plan now cur = some (later, write) ∧ later.Needs ∧
      later.pc.distance < cur.pc.distance := by
  obtain ⟨loud, born, woken⟩ := needs
  unfold Thread.quiet at loud
  cases pc : cur.pc with
  | unborn => exact absurd pc born
  | created => exact absurd pc woken
  | setCurrentState | exited => simp [pc] at loud
  | core | whileCore | setScheduler | mid | subtaskFunc | compare | maxCnt | printk =>
      simp [pc, Pc.dereferences] at before
  | kthread | bounds | startT | endT | next =>
      refine ⟨_, _, by simp only [calibrate, pc]; rfl, ?_, ?_⟩
      · simp [Needs, quiet]
      · simp [Pc.distance]
  | schedule mark =>
      cases mark with
      | interruptible | asleep => simp [pc] at loud
      | running =>
          refine ⟨_, _, by simp only [calibrate, pc]; rfl, ?_, ?_⟩
          · simpa [Needs, quiet, pc] using loud
          · simp [Pc.distance]
  | coreNum =>
      have inside : cur.core ≠ EndToEnd.coreNum := by simpa [pc] using loud
      refine ⟨_, _, by simp only [calibrate, pc, if_neg inside]; rfl, ?_, ?_⟩
      · simp [Needs, quiet]
      · simp [Pc.distance]
  | whileBounds =>
      refine ⟨_, _, by simp only [calibrate, pc]; rfl, ?_, ?_⟩
      all_goals by_cases more : cur.minCnt < cur.maxCnt
      · simp [Needs, quiet, more]
      · simp [Needs, quiet, more]
      · simp [Pc.distance, more]
      · simp [Pc.distance, more]

/-- The statements of one thread alone lead to its next use of `cur`. -/
theorem Thread.Needs.reach (plan : Plan) {c : Nat} {state : State} (needs : (state.thread c).Needs) :
    ∃ events final, plan.calibrateMode.execute state events = some final ∧ final.exit = state.exit ∧
      (final.thread c).pc.dereferences = true := by
  induction distance : (state.thread c).pc.distance using Nat.strong_induction_on generalizing state with
  | h bound ih =>
      cases used : (state.thread c).pc.dereferences with
      | true => exact ⟨[], state, rfl, rfl, used⟩
      | false =>
          obtain ⟨later, write, statement, needs, nearer⟩ := needs.approach used plan state.now
          let next := (state.set c later).write (plan.subtaskAt (state.thread c).cur) write
          have taken : plan.calibrateMode.step state (.thread c) = some next := by
            change (calibrate plan state.now (state.thread c)).map _ = _
            rw [statement]
            rfl
          have mine : next.thread c = later := by rw [thread_write, set_self]
          rw [← mine] at needs nearer
          obtain ⟨events, final, executed, exit, used⟩ := ih _ (distance ▸ nearer) needs rfl
          refine ⟨.thread c :: events, final, ?_, exit.trans (write_frame _ _ _).2.1, used⟩
          rw [Machine.execute, taken]
          exact executed

/-- A start timer that is not spent can come to a wake-up. -/
theorem timer_wakes (plan : Plan) (early : state.calTimer.spent ≠ true) : ∃ events final k,
    plan.calibrateMode.execute state events = some final ∧ final.exit = state.exit ∧ k < coreNum ∧
      final.calTimer = .running k := by
  cases position : state.calTimer with
  | off | done => simp [position, CalTimer.spent] at early
  | running k =>
      rw [position] at early
      have more : k < coreNum := Nat.lt_of_not_le fun last => early (decide_eq_true last)
      exact ⟨[], state, k, rfl, rfl, more, position⟩
  | armed expiry =>
      let later : State := { state with now := state.now + expiry }
      have fires : calStep later = some { later with calTimer := .running 0 } := by
        simp [calStep, later, position]
      refine ⟨[.tick expiry, .cal], { later with calTimer := .running 0 }, 0, ?_, rfl, by decide, rfl⟩
      change ((calStep later).bind fun next => some next) = _
      rw [fires]
      rfl

/-- The condition is exact: after an unload step that breaks it, some run violates the teardown. -/
theorem unload_breaks (reached : plan.calibrateMode.Reachable state) (broken : ¬ state.unloadReady plan state.exit)
    (taken : step plan state .exit = some next) :
    ∃ events final, plan.calibrateMode.execute next events = some final ∧ ¬ TornDown final := by
  have started := started_reached reached
  rcases step_exit taken with ⟨position, _, rfl⟩ | ⟨k, position, rfl⟩ | ⟨k, position, rfl⟩ |
    ⟨i, position, inside, rfl⟩ | ⟨i, position, all, rfl⟩ | ⟨position, rfl⟩ | ⟨position, rfl⟩ | ⟨position, rfl⟩
  all_goals rw [position] at broken
  · exact absurd trivial broken
  · exact absurd trivial broken
  · exact absurd trivial broken
  · -- the line that has just been printed is wrong
    refine ⟨[], _, rfl, fun tornDown => broken fun _ => ?_⟩
    have result := tornDown.printed i _ (List.mem_append_right state.lines (List.mem_singleton_self _))
    change state.result i = _ at result
    rw [result, Option.isSome_some]
  · exact absurd (fun inside => absurd inside all) broken
  · have loaded := started.loaded (by simp [position])
    obtain early | ⟨c, inside, loud⟩ : state.calTimer.spent ≠ true ∨
        ∃ c < coreNum, (state.thread c).quiet = false := by
      simpa [State.unloadReady, State.Settled, imp_iff_not_or] using broken
    · -- the timer has still to wake the thread of some core
      let freed : State := { state with exit := .kfreeSubPtr }
      have early : freed.calTimer.spent ≠ true := early
      obtain ⟨events, final, k, executed, exit, more, running⟩ := timer_wakes plan early
      exact ⟨events, final, executed, fun tornDown => tornDown.silent (by rw [exit]; rfl) k more running⟩
    · have born := started.born c (by rw [loaded]; exact inside)
      have woken := started.woken c (by rw [loaded]; exact inside)
      let freed : State := { state with exit := .kfreeSubPtr }
      have needs : (freed.thread c).Needs := ⟨loud, born, woken⟩
      obtain ⟨events, final, executed, exit, used⟩ := needs.reach plan
      refine ⟨events, final, executed, fun tornDown => ?_⟩
      have unused := tornDown.unused (by rw [exit]; rfl) c
      rw [used] at unused
      contradiction
  · exact absurd trivial broken
  · exact absurd trivial broken

end CalibrateMode

end KernelStudio.EndToEnd
