/-
This file follows the one token that keeps a first subtask periodic:
it is an armed timer, a delivered wake-up or the job that will re-arm the timer.
-/

import KernelStudio.Proof.EndToEnd.Precedence

namespace KernelStudio.EndToEnd

open Transition

/-- The job has been released and its timer has not been re-armed yet. -/
def Pc.executing : Pc → Nat
  | .subtaskFunc | .ts | .ddl | .missedDdl | .rearm => 1
  | _ => 0

@[simp] theorem Pc.executing_wake (pc : Pc) : pc.wake.executing = pc.executing := by cases pc <;> rfl

/-- The tokens that lead to the next release of a first subtask. -/
def Sub.supply (cur : Sub) : Nat := cur.armed + cur.pc.woken + cur.pc.executing

/-- The handler of the start timer has woken the first subtask of this task. -/
def CalTimer.passed : CalTimer → Nat → Bool
  | .running m, k => k < m
  | .done, _ => true
  | .off, _ | .armed _, _ => false

/-- The start timer expires only when each thread is asleep. -/
def Header.asleepAtStart (header : Header) (state : State) (event : Event) : Prop :=
  event = .cal → state.calTimer.waiting = true →
    ∀ i < header.subtaskTot, (state.sub i).pc = .schedule .asleep

/-- The timer of a first subtask fires only when its thread is marked or asleep. -/
def Header.timerFindsSleeper (header : Header) (state : State) (event : Event) : Prop :=
  ∀ i < header.subtaskTot, event = .fire i → (header.subtask i).subtaskId = 0 →
    state.absorbs (.wake i) = false

/-- The runs in which the start finds each thread asleep and so does each timer of a first subtask. -/
def Header.undisturbed (header : Header) (state : State) (event : Event) : Prop :=
  header.asleepAtStart state event ∧ header.timerFindsSleeper state event

section

variable (header : Header) (state : State) (event : Event)

instance : Decidable (header.asleepAtStart state event) :=
  inferInstanceAs (Decidable (_ → _ → ∀ i < header.subtaskTot, _))

instance : Decidable (header.timerFindsSleeper state event) :=
  inferInstanceAs (Decidable (∀ i < header.subtaskTot, _ → _ → _))

instance : Decidable (header.undisturbed state event) := inferInstanceAs (Decidable (_ ∧ _))

end

/-- The supply of a first subtask is one token once the start timer has passed it. -/
structure Supplied (header : Header) (k : Nat) (state : State) : Prop where
  token : state.calTimer.passed k = true → (state.sub (header.task k).subtaskStartIdx).supply = 1
  waits : state.calTimer.waiting = false → state.calTimer.passed k = false →
    (state.sub (header.task k).subtaskStartIdx).pc = .schedule .asleep ∧
      (state.sub (header.task k).subtaskStartIdx).timer = none

variable {header : Header} {state next : State}

/-- A sleeping thread executes no statement. -/
theorem Statement.awake {i : Nat} {cur : Sub} {signal : Signal}
    (statement : Statement header state i cur signal) : (state.sub i).pc ≠ .schedule .asleep := by
  cases statement
  case exit position _ => rcases position with position | position <;> simp [position]
  all_goals simp_all

/-- No other thread calls for a first subtask. -/
theorem Statement.first_untouched {guard : Guard State Event} (wf : header.WellFormed)
    (reached : header.runMode.Reaches guard state) {i f : Nat} {cur : Sub} {signal : Signal}
    (statement : Statement header state i cur signal) (inside : i < header.subtaskTot)
    (first : (header.subtask f).subtaskId = 0) (other : f ≠ i) : signal.aims f = false := by
  by_contra aimed
  rcases statement.aims (by simpa using aimed) with ⟨self, _⟩ | ⟨direct, notifying⟩
  · exact other self
  · have pair := wf.consecutive inside (notifying_reached reached notifying)
    have next := pair.next
    rw [← wf.successorIdx_eq inside, ← direct, first] at next
    omega

/-- A statement of a first subtask never adds a token and never drops the last one. -/
theorem Statement.supply {i : Nat} {cur : Sub} {signal : Signal}
    (statement : Statement header state i cur signal) (ready : TimerReady header state)
    (stays : (state.sub i).shouldStop = false) (first : (header.subtask i).subtaskId = 0)
    (later : header.successorIdx i ≠ i) :
    (signal.apply i cur).supply ≤ (state.sub i).supply ∧
      (1 ≤ (state.sub i).supply → 1 ≤ (signal.apply i cur).supply) := by
  have fresh := ready.fresh i
  cases statement
  case exit stopped => simp [stays] at stopped
  case hrtimerInit position =>
    have idle := (fresh (by rw [position]; rfl)).2
    have empty : (state.sub i).supply = 0 := by
      rw [Sub.supply, Sub.armed_none _ idle, position]
      rfl
    rw [empty]
    exact ⟨Nat.le_refl 0, id⟩
  case rearmFirst position _ _ more =>
    have executing : (state.sub i).pc.executing = 1 := by rw [position]; rfl
    rw [Signal.apply_start_self, Sub.supply, Sub.armed_some _ (Sub.hrtimerStart_timer _ _), Sub.hrtimerStart_pc,
      Sub.supply, executing]
    rcases more with ⟨_, rfl⟩ | ⟨_, rfl⟩ <;> simp [Pc.woken, Pc.executing]
  case rearmLater nonzero _ _ => exact absurd first nonzero
  case wakeSuccessor position =>
    rw [Signal.apply_of_not_aims (Signal.wake_misses later)]
    simp [Sub.supply, Sub.armed, position, Pc.woken, Pc.executing]
  case startSuccessor position =>
    rw [Signal.apply_of_not_aims (Signal.start_misses later _)]
    simp [Sub.supply, Sub.armed, position, Pc.woken, Pc.executing]
  all_goals simp_all [Signal.apply, Sub.supply, Sub.armed, Pc.woken, Pc.executing]

/-- The handler of the start timer passes the tasks in order. -/
theorem CalTimer.passed_waiting {calTimer : CalTimer} (waiting : calTimer.waiting = true) (k : Nat) :
    calTimer.passed k = false := by
  cases calTimer <;> first | rfl | contradiction

/-- A step of the start timer passes a task by waking its first subtask, or leaves the task alone. -/
theorem step_cal_first (wf : header.WellFormed) {k : Nat} (inside : k < header.taskTot)
    (taken : header.step state .cal = some next) :
    (state.calTimer.waiting = false ∧ state.calTimer.passed k = false ∧ next.calTimer.passed k = true ∧
      next.sub (header.task k).subtaskStartIdx = (state.sub (header.task k).subtaskStartIdx).wakeUpProcess) ∨
    (next.calTimer.passed k = state.calTimer.passed k ∧
      next.sub (header.task k).subtaskStartIdx = state.sub (header.task k).subtaskStartIdx) := by
  rcases step_cal taken with ⟨_, position, _, rfl⟩ | ⟨m, position, known, rfl⟩ | ⟨m, position, outside, rfl⟩
  · exact .inr ⟨by simp [position, CalTimer.passed], rfl⟩
  · by_cases same : k = m
    · subst same
      exact .inl ⟨by rw [position]; rfl, by simp [position, CalTimer.passed], by simp [CalTimer.passed],
        by simp⟩
    · have missed : (Signal.wake (header.task m).subtaskStartIdx).aims (header.task k).subtaskStartIdx = false := by
        refine Signal.wake_misses fun equal => same ?_
        rw [← (wf.first inside).2.1, ← equal, (wf.first known).2.1]
      refine .inr ⟨?_, by simp [Signal.apply_of_not_aims missed]⟩
      simp only [State.signal_calTimer, position, CalTimer.passed, decide_eq_decide]
      omega
  · refine .inr ⟨?_, rfl⟩
    simp only [position, CalTimer.passed]
    exact (decide_eq_true (by omega)).symm

/-- The start timer supplies the first token of each task. -/
theorem supplied_cal (wf : header.WellFormed) (startup : Startup header state) {k : Nat}
    (inside : k < header.taskTot) (supplied : Supplied header k state)
    (asleep : header.asleepAtStart state .cal) (taken : header.step state .cal = some next) :
    Supplied header k next := by
  rcases step_cal_first wf inside taken with ⟨ended, left, passed, woken⟩ | ⟨same, record⟩
  · obtain ⟨sleeps, idle⟩ := supplied.waits ended left
    refine ⟨fun _ => ?_, fun _ again => by simp [passed] at again⟩
    rw [woken, Sub.supply, Sub.armed_none _ ((Sub.wakeUpProcess_timer _).trans idle),
      Sub.wakeUpProcess_pc, sleeps]
    rfl
  · refine ⟨fun passed => ?_, fun _ left => ?_⟩
    · rw [record]
      exact supplied.token (same ▸ passed)
    · rw [record]
      by_cases waiting : state.calTimer.waiting = true
      · exact ⟨asleep rfl waiting _ (wf.first inside).1, (startup.quiet waiting _).timer⟩
      · exact supplied.waits (by simpa using waiting) (same ▸ left)

/-- A timer that finds its thread asleep turns the token into a wake-up. -/
theorem supplied_fire (wf : header.WellFormed) (startup : Startup header state)
    (ready : TimerReady header state) {k i : Nat} (inside : k < header.taskTot)
    (supplied : Supplied header k state) (finds : header.timerFindsSleeper state (.fire i))
    (taken : header.step state (.fire i) = some next) : Supplied header k next := by
  obtain ⟨expiry, armed, _, rfl⟩ := step_fire taken
  have released : state.calTimer.waiting = false := by
    by_contra waiting
    rw [(startup.quiet (by simpa using waiting) i).timer] at armed
    contradiction
  obtain ⟨known, _, first⟩ := wf.first inside
  by_cases own : (header.task k).subtaskStartIdx = i
  · subst own
    have effective := of_decide_eq_false (finds _ known rfl first)
    have started : (state.sub (header.task k).subtaskStartIdx).pc ≠ .created := by
      intro created
      rw [(ready.fresh _ (by rw [created]; rfl)).2] at armed
      contradiction
    obtain ⟨_, woken⟩ := Pc.woken_of_wake_ne started effective
    refine ⟨fun passed => ?_, fun _ left => ?_⟩
    · have token := supplied.token passed
      rw [Sub.supply, Sub.armed_some _ armed] at token
      simp only [State.set_sub, Function.update_self, Sub.supply, Sub.wakeUpProcess_pc, Sub.removeHrtimer_pc,
        woken, Pc.executing_wake]
      rw [Sub.armed_none _ (by simp)]
      omega
    · rw [(supplied.waits released left).2] at armed
      contradiction
  · refine ⟨fun passed => ?_, fun waiting left => ?_⟩
    · simpa [own] using supplied.token passed
    · simpa [own] using supplied.waits waiting left

/-- A thread passes its own token on and takes no token from another first subtask. -/
theorem supplied_thread {guard : Guard State Event} (wf : header.WellFormed)
    (reached : header.runMode.Reaches guard state) (before : state.exit = .notStarted) {k i : Nat}
    (inside : k < header.taskTot) (supplied : Supplied header k state)
    (taken : header.step state (.thread i) = some next) : Supplied header k next := by
  have startup := startup_reached reached before
  have ready := timerReady_reached reached before
  obtain ⟨cur, signal, statement, -, rfl⟩ := step_thread taken
  obtain ⟨_, _, first⟩ := wf.first inside
  have actor := startup.inside statement.started.1
  have records := step_thread_sub state i cur signal (header.task k).subtaskStartIdx
  by_cases own : (header.task k).subtaskStartIdx = i
  · subst own
    rw [if_pos rfl] at records
    have later := wf.successorIdx_eq actor
    refine ⟨fun passed => ?_, fun waiting left => ?_⟩
    · have token := supplied.token (by simpa using passed)
      have kept := statement.supply ready (startup.alive _).1 first (by omega)
      rw [records]
      omega
    · exact absurd (supplied.waits (by simpa using waiting) (by simpa using left)).1 statement.awake
  · have missed := statement.first_untouched wf reached actor first own
    rw [if_neg own, Signal.apply_of_not_aims missed] at records
    refine ⟨fun passed => ?_, fun waiting left => ?_⟩
    · rw [records]
      exact supplied.token (by simpa using passed)
    · rw [records]
      exact supplied.waits (by simpa using waiting) (by simpa using left)

/-- The supply holds in every undisturbed run before the unload. -/
theorem supplied_reached (wf : header.WellFormed) {k : Nat} (inside : k < header.taskTot)
    (reached : header.runMode.Reaches header.undisturbed state) (before : state.exit = .notStarted) :
    Supplied header k state := by
  refine runMode_invariant (Supplied header k) ?_ ?_ reached before
  · exact fun now => ⟨fun passed => by contradiction, fun waiting => by contradiction⟩
  · intro current event following visited early supplied admitted running taken
    have startup := startup_reached visited early
    have ready := timerReady_reached visited early
    cases event with
    | init =>
        have waiting := (step_init_quiet startup taken).2.1
        refine ⟨fun passed => ?_, fun ended => ?_⟩
        · rw [CalTimer.passed_waiting waiting] at passed
          contradiction
        · rw [waiting] at ended
          contradiction
    | exit => exact absurd rfl running
    | cal => exact supplied_cal wf startup inside supplied admitted.1 taken
    | fire i => exact supplied_fire wf startup ready inside supplied admitted.2 taken
    | thread i => exact supplied_thread wf visited early inside supplied taken
    | tick duration =>
        rw [step_tick taken]
        exact ⟨supplied.token, supplied.waits⟩

/-- The thread of a first subtask is executing its job, or a wake-up is delivered, or its timer is armed. -/
def Sub.Released (cur : Sub) : Prop :=
  cur.pc.executing = 1 ∨ cur.pc.woken = 1 ∨ cur.timer.isSome = true

/-- While each timer of a first subtask finds its thread marked or asleep, the release chain of each
task goes on, and no first subtask sleeps without an armed timer. -/
theorem release_chain_alive (table : Table) {k : Nat} (inside : k < table.taskTot) {state : State}
    (reached : table.runMode.Reaches table.undisturbed state) (before : state.exit = .notStarted)
    (passed : state.calTimer.passed k = true) :
    (state.sub (table.task k).subtaskStartIdx).Released ∧
      ¬ ((state.sub (table.task k).subtaskStartIdx).pc = .schedule .asleep ∧
        (state.sub (table.task k).subtaskStartIdx).timer = none) := by
  have token := (supplied_reached table.wellFormed inside reached before).token passed
  refine ⟨?_, ?_⟩
  · by_contra lost
    simp only [Sub.Released, not_or] at lost
    rw [Sub.supply, Sub.armed, if_neg lost.2.2] at token
    omega
  · rintro ⟨sleeps, idle⟩
    rw [Sub.supply, Sub.armed_none _ idle, sleeps] at token
    contradiction

/-- The chain of the pair is alive after its first jobs. -/
theorem release_chain_alive_pair :
    ∃ state : State, (state.sub 0).releases.length = 1 ∧
      (state.sub (pairTable.task 0).subtaskStartIdx).Released := by
  have initial : pairTable.runMode.start (.loaded 0) := ⟨0, rfl⟩
  have admitted : pairTable.runMode.admits pairTable.undisturbed (.loaded 0) pairEvents = true := by
    decide +kernel
  have executed : ((pairTable.runMode.execute (.loaded 0) pairEvents).map fun state =>
      ((state.sub 0).releases.length, state.exit, state.calTimer.passed 0)) = some (1, .notStarted, true) := by
    decide +kernel
  obtain ⟨state, reached, shown⟩ := Machine.admits_shows initial pairEvents admitted _ executed
  simp only [Prod.mk.injEq] at shown
  exact ⟨state, shown.1, (release_chain_alive pairTable (by decide) reached shown.2.1 shown.2.2).1⟩

/-- The first job takes longer than the period, so its timer fires while the thread is still awake. -/
def longJobEvents : List Event :=
  pairTable.boot ++ List.replicate 2 (.thread 0) ++ [.tick 3000000] ++ List.replicate 5 (.thread 0) ++
    [.fire 0] ++ List.replicate 6 (.thread 0)

/-- Each thread sleeps when the start timer expires, and yet a first subtask falls asleep for good. -/
theorem release_chain_dies :
    ∃ state, pairTable.runMode.Reaches pairTable.asleepAtStart state ∧ state.exit = .notStarted ∧
      state.calTimer.passed 0 = true ∧
      (state.sub (pairTable.task 0).subtaskStartIdx).pc = .schedule .asleep ∧
      (state.sub (pairTable.task 0).subtaskStartIdx).timer = none ∧
      ¬ (state.sub (pairTable.task 0).subtaskStartIdx).Released := by
  have initial : pairTable.runMode.start (.loaded 0) := ⟨0, rfl⟩
  have admitted : pairTable.runMode.admits pairTable.asleepAtStart (.loaded 0) longJobEvents = true := by
    decide +kernel
  have executed : ((pairTable.runMode.execute (.loaded 0) longJobEvents).map fun state =>
      (state.exit, state.calTimer.passed 0, (state.sub 0).pc, (state.sub 0).timer)) =
      some (.notStarted, true, .schedule .asleep, none) := by decide +kernel
  obtain ⟨state, reached, shown⟩ := Machine.admits_shows initial longJobEvents admitted _ executed
  simp only [Prod.mk.injEq] at shown
  obtain ⟨before, passed, sleeps, idle⟩ := shown
  refine ⟨state, reached, before, passed, sleeps, idle, ?_⟩
  change ¬ (state.sub 0).Released
  simp [Sub.Released, sleeps, idle, Pc.executing, Pc.woken]

end KernelStudio.EndToEnd
