/-
This file proves that each call of the run mode acts on a timer and on a thread that are ready for it.
A thread sets its handler at the end of its set-up, and a timer is started after that only.
-/

import KernelStudio.Proof.EndToEnd.Precedence

namespace KernelStudio.EndToEnd

open Transition

/-- The thread has initialised its timer and has set the handler. -/
structure Sub.SetUp (cur : Sub) : Prop where
  past : cur.pc.fresh = false
  handler : cur.handler = true

/-- The handler is set from the end of the set-up on. -/
def Handled (state : State) : Prop := ∀ i, (state.sub i).pc.fresh = false → (state.sub i).handler = true

variable {header : Header} {state next : State}

/-- A call leaves the handlers alone. -/
theorem Signal.apply_handler (signal : Signal) (i : Nat) (cur : Sub) :
    (signal.apply i cur).handler = cur.handler := by
  cases signal <;> simp only [Signal.apply]
  all_goals split <;> rfl

/-- A thread leaves its set-up by the statement that sets the handler. -/
theorem Statement.handled {i : Nat} {cur : Sub} {signal : Signal}
    (statement : Statement header state i cur signal) (stays : (state.sub i).shouldStop = false)
    (handled : (state.sub i).pc.fresh = false → (state.sub i).handler = true) :
    cur.pc.fresh = false → cur.handler = true := by
  intro past
  cases statement
  case kthread | hrtimerInit => contradiction
  case timerFunction => rfl
  case exit stopped => simp [stays] at stopped
  all_goals simp_all [Pc.fresh]

/-- A thread that is created starts its set-up, and the rest of the load leaves the handlers alone. -/
theorem handled_init (handled : Handled state)
    (taken : header.step state .init = some next) : Handled next := by
  intro i past
  rcases step_init taken with ⟨j, _, _, rfl⟩ | ⟨_, _, _, rfl⟩ | ⟨j, _, rfl⟩ | ⟨j, _, rfl⟩ | ⟨_, rfl⟩
  case inr.inr.inl =>
    by_cases same : i = j
    · subst same
      simp [Pc.fresh] at past
    · simp only [State.set_sub, Function.update_of_ne same] at past ⊢
      exact handled i past
  case inr.inr.inr.inl =>
    rw [State.signal_sub, Signal.apply_fresh] at past
    rw [State.signal_sub, Signal.apply_handler]
    exact handled i past
  case inl =>
    by_cases same : i = j
    · subst same
      simp only [State.set_sub, Function.update_self] at past ⊢
      exact handled i past
    · simp only [State.set_sub, Function.update_of_ne same] at past ⊢
      exact handled i past
  all_goals exact handled i past

/-- Each step before the unload keeps the handlers set. -/
theorem handled_step (startup : Startup header state) (handled : Handled state) {event : Event}
    (running : event ≠ .exit) (taken : header.step state event = some next) : Handled next := by
  cases event with
  | init => exact handled_init handled taken
  | exit => exact absurd rfl running
  | cal =>
      intro i past
      rcases step_cal taken with ⟨_, _, _, rfl⟩ | ⟨k, _, _, rfl⟩ | ⟨_, _, _, rfl⟩
      · exact handled i past
      · rw [State.signal_sub, Signal.apply_fresh] at past
        rw [State.signal_sub, Signal.apply_handler]
        exact handled i past
      · exact handled i past
  | fire j =>
      intro i past
      obtain ⟨_, _, _, rfl⟩ := step_fire taken
      by_cases same : i = j
      · subst same
        simp only [State.set_sub, Function.update_self, Sub.wakeUpProcess_pc, Sub.removeHrtimer_pc,
          Pc.wake_fresh] at past ⊢
        exact handled i past
      · simp only [State.set_sub, Function.update_of_ne same] at past ⊢
        exact handled i past
  | thread j =>
      intro i past
      obtain ⟨cur, signal, statement, -, rfl⟩ := step_thread taken
      rw [step_thread_sub, Signal.apply_fresh] at past
      rw [step_thread_sub, Signal.apply_handler]
      by_cases own : i = j
      · subst own
        rw [if_pos rfl] at past ⊢
        exact statement.handled (startup.alive i).1 (handled i) past
      · rw [if_neg own] at past ⊢
        exact handled i past
  | tick duration =>
      rw [step_tick taken]
      exact handled

/-- The handlers are set in every state before the unload. -/
theorem handled_reached {guard : Guard State Event} (reached : header.runMode.Reaches guard state)
    (before : state.exit = .notStarted) : Handled state := by
  refine runMode_invariant Handled (fun _ _ past => by contradiction) ?_ reached before
  intro current event following visited early handled _ running taken
  exact handled_step (startup_reached visited early) handled running taken

/-- A thread past its own set-up is set up. -/
theorem setUp_reached {guard : Guard State Event} (reached : header.runMode.Reaches guard state)
    (before : state.exit = .notStarted) {i : Nat} (past : (state.sub i).pc.fresh = false) : (state.sub i).SetUp :=
  ⟨past, handled_reached reached before i past⟩

/-- Each timer is started after its own thread has set it up, no timer is initialised while it is armed,
and each wake-up acts on a thread that has been created. -/
structure UsedWhenReady (header : Header) (state : State) : Prop where
  started : ∀ event target expiry, (header.step state event).isSome = true →
    header.call state event = .start target expiry → (state.sub target).SetUp
  initialised : ∀ i, (state.sub i).pc = .hrtimerInit → (state.sub i).timer = none
  woken : ∀ event target, (header.step state event).isSome = true →
    header.call state event = .wake target → target < header.subtaskTot ∧ (state.sub target).pc ≠ .unborn

/-- A statement starts the timer of its own thread, or of a successor whose release it has seen. -/
theorem Statement.starts {i : Nat} {cur : Sub} {target expiry : Nat}
    (statement : Statement header state i cur (.start target expiry)) (ready : TimerReady header state) :
    (state.sub target).pc.fresh = false := by
  cases statement
  case rearmFirst position _ _ _ =>
    rw [position]
    rfl
  case startSuccessor position =>
    -- the value zero would have meant that the successor is not set up yet
    have released := ready.guarded i position
    by_contra fresh
    exact released (ready.fresh _ (by simpa using fresh)).1

/-- No statement unmakes its thread. -/
theorem Statement.born {i : Nat} {cur : Sub} {signal : Signal}
    (statement : Statement header state i cur signal) : cur.pc ≠ .unborn := by
  cases statement
  case rearmFirst more | rearmLater more => rcases more with ⟨_, rfl⟩ | ⟨_, rfl⟩ <;> simp
  all_goals simp

/-- The load has created each thread that it has passed. -/
theorem born_reached {guard : Guard State Event} (reached : header.runMode.Reaches guard state) :
    ∀ i < state.init.born header, (state.sub i).pc ≠ .unborn := by
  refine reached.invariant (fun current => ∀ i < current.init.born header, (current.sub i).pc ≠ .unborn) ?_ ?_
  · rintro _ ⟨now, rfl⟩ i passed
    exact absurd passed (Nat.not_lt_zero i)
  · intro current event following _ born _ taken i passed
    change header.step current event = some following at taken
    by_cases loading : event = .init
    · subst loading
      rcases step_init taken with ⟨j, position, _, rfl⟩ | ⟨j, position, ended, rfl⟩ | ⟨j, position, rfl⟩ |
        ⟨j, position, rfl⟩ | ⟨position, rfl⟩
      all_goals rw [position] at born
      · by_cases same : i = j
        · exact absurd (same ▸ passed) (Nat.lt_irrefl j)
        · simpa [same] using born i passed
      · exact born i (Nat.lt_of_lt_of_le passed ended)
      · by_cases same : i = j
        · subst same
          simp
        · have earlier : i < j := Nat.lt_of_le_of_ne (Nat.le_of_lt_succ passed) same
          simpa [same] using born i earlier
      · rw [State.signal_sub, ne_eq, ((Signal.wake j).apply_alive i (current.sub i)).2.2]
        exact born i passed
      · exact born i passed
    · rw [step_init_same loading taken] at passed
      rcases step_sub loading taken i with ⟨_, same | woken⟩ | ⟨_, _, _, statement, _, same⟩
      · exact same ▸ born i passed
      · rw [woken, ne_eq, Pc.wake_eq_unborn]
        exact born i passed
      · exact same ▸ statement.born

/-- Once the start timer has expired, each thread of the table has been created. -/
theorem born_of_expired {guard : Guard State Event} (reached : header.runMode.Reaches guard state)
    (before : state.exit = .notStarted) (expired : state.calTimer.waiting = false) {i : Nat}
    (inside : i < header.subtaskTot) : (state.sub i).pc ≠ .unborn := by
  have loaded : state.init = .done := by
    by_contra loading
    rw [(startup_reached reached before).loading loading] at expired
    contradiction
  refine born_reached reached i ?_
  rw [loaded]
  exact inside

/-- Only a statement of a thread starts a timer. -/
theorem call_start {event : Event} {target expiry : Nat} (call : header.call state event = .start target expiry) :
    ∃ i cur, Statement header state i cur (.start target expiry) := by
  cases event with
  | thread i =>
      cases executed : header.run state i with
      | none => simp [Header.call, executed] at call
      | some result =>
          simp only [Header.call, executed] at call
          exact ⟨i, result.1, run_statement (call ▸ executed)⟩
  | init | exit =>
      simp only [Header.call] at call
      split at call <;> contradiction
  | cal =>
      simp only [Header.call] at call
      split at call
      · split at call <;> contradiction
      · contradiction
  | fire i => contradiction
  | tick duration => contradiction

/-- A thread wakes its successor only. -/
theorem Statement.wakes {i target : Nat} {cur : Sub} (statement : Statement header state i cur (.wake target)) :
    (state.sub i).pc = .wakeSuccessor ∧ target = header.successorIdx i := by
  cases statement
  case wakeSuccessor position => exact ⟨position, rfl⟩

/-- Each wake-up acts on a thread of the table that has been created. -/
theorem wake_born {guard : Guard State Event} (wf : header.WellFormed)
    (reached : header.runMode.Reaches guard state) (before : state.exit = .notStarted) {event : Event}
    (taken : header.step state event = some next) {target : Nat}
    (call : header.call state event = .wake target) :
    target < header.subtaskTot ∧ (state.sub target).pc ≠ .unborn := by
  have startup := startup_reached reached before
  have ready := timerReady_reached reached before
  have inTable (born : (state.sub target).pc ≠ .unborn) :
      target < header.subtaskTot ∧ (state.sub target).pc ≠ .unborn := ⟨startup.inside born, born⟩
  cases event with
  | init =>
      simp only [Header.call] at call
      split at call
      · rename_i i position
        obtain rfl := Signal.wake.inj call
        exact inTable (by simp [startup.waking i position])
      · contradiction
  | exit => simp [Header.call, before] at call
  | cal =>
      rcases step_cal taken with ⟨_, position, _⟩ | ⟨k, position, known, _⟩ | ⟨k, position, ended, _⟩
      · simp [Header.call, position] at call
      · simp only [Header.call, position, if_pos known, Signal.wake.injEq] at call
        have inside : target < header.subtaskTot := call ▸ (wf.first known).1
        exact inTable (born_of_expired reached before (by rw [position]; rfl) inside)
      · simp [Header.call, position, Nat.not_lt.mpr ended] at call
  | fire i =>
      obtain ⟨expiry, armed, _, _⟩ := step_fire taken
      obtain rfl := Signal.wake.inj call
      refine inTable fun unborn => ?_
      rw [(ready.fresh i (by rw [unborn]; rfl)).2] at armed
      contradiction
  | thread i =>
      obtain ⟨cur, signal, statement, same, _⟩ := step_thread taken
      obtain rfl := same.symm.trans call
      obtain ⟨position, rfl⟩ := statement.wakes
      have actor := startup.inside statement.started.1
      have pair := wf.consecutive actor (notifying_reached reached (by rw [position]; rfl))
      rw [← wf.successorIdx_eq actor] at pair
      have expired := startup.released_of_late (i := i) (by rw [position]; rfl)
      exact inTable (born_of_expired reached before expired pair.after)
  | tick duration => contradiction

/-- In every run before the unload, timers and threads are used only when they are ready. -/
theorem used_when_ready (table : Table) {state : State} (reached : table.runMode.Reachable state)
    (before : state.exit = .notStarted) : UsedWhenReady table.toHeader state := by
  have ready := timerReady_reached reached before
  refine ⟨fun event target expiry _ call => ?_, fun i position => ?_, fun event target enabled call => ?_⟩
  · obtain ⟨i, cur, statement⟩ := call_start call
    exact setUp_reached reached before (statement.starts ready)
  · exact (ready.fresh i (by rw [position]; rfl)).2
  · obtain ⟨next, taken⟩ := Option.isSome_iff_exists.mp enabled
    exact wake_born table.wellFormed reached before taken call

/-- The successor is released late, so the second job of its predecessor starts the successor's timer. -/
def startSuccessorEvents : List Event :=
  pairTable.boot ++ List.replicate 13 (.thread 0) ++ [.tick 1000000] ++ List.replicate 10 (.thread 1) ++
    [.tick 1000000, .fire 0] ++ List.replicate 9 (.thread 0)

/-- The timer of the successor has been set up when its predecessor starts it. -/
theorem used_when_ready_pair :
    ∃ state : State, pairTable.call state (.thread 0) = .start 1 103000000 ∧ (state.sub 1).SetUp := by
  have initial : pairTable.runMode.start (.loaded 0) := ⟨0, rfl⟩
  have executed : ((pairTable.runMode.execute (.loaded 0) startSuccessorEvents).map fun state =>
      (state.exit, (pairTable.step state (.thread 0)).isSome, pairTable.call state (.thread 0))) =
      some (.notStarted, true, .start 1 103000000) := by decide +kernel
  obtain ⟨state, reached, shown⟩ := Machine.execute_shows initial startSuccessorEvents _ executed
  simp only [Prod.mk.injEq] at shown
  obtain ⟨before, enabled, call⟩ := shown
  exact ⟨state, call, (used_when_ready pairTable reached before).started (.thread 0) 1 103000000 enabled call⟩

end KernelStudio.EndToEnd
