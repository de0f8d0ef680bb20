/-
This file proves that a timer is armed only after its own thread has initialised it.
The zero value of the last release time carries the argument from one thread to the other.
-/

import KernelStudio.Proof.EndToEnd.Startup

namespace KernelStudio.EndToEnd

open Transition

/-- These positions come before the thread has set up its own timer. -/
def Pc.fresh : Pc → Bool
  | .unborn | .created | .kthread | .hrtimerInit | .timerFunction => true
  | _ => false

/-- A fresh subtask has neither a release nor an armed timer, and a guarded start has seen a release. -/
structure TimerReady (header : Header) (state : State) : Prop where
  fresh : ∀ i, (state.sub i).pc.fresh = true →
    (state.sub i).lastReleaseTime = 0 ∧ (state.sub i).timer = none
  guarded : ∀ i, (state.sub i).pc = .startSuccessor →
    (state.sub (header.successorIdx i)).lastReleaseTime ≠ 0

variable {header : Header} {state next : State}

theorem Pc.wake_fresh (pc : Pc) : pc.wake.fresh = pc.fresh := by
  cases pc with
  | schedule taskState => cases taskState <;> rfl
  | _ => rfl

theorem Pc.wake_eq_startSuccessor {pc : Pc} : pc.wake = .startSuccessor ↔ pc = .startSuccessor := by
  cases pc <;> simp [Pc.wake]

/-- A quiet module is ready. -/
theorem timerReady_of_quiet (quiet : ∀ i, (state.sub i).Quiet) : TimerReady header state where
  fresh i _ := ⟨(quiet i).lastReleaseTime, (quiet i).timer⟩
  guarded i position := by
    have early := (quiet i).early
    simp [position, Pc.early] at early

/-- A call leaves the freshness of its target. -/
theorem Signal.apply_fresh (signal : Signal) (i : Nat) (cur : Sub) :
    (signal.apply i cur).pc.fresh = cur.pc.fresh := by
  cases signal <;> simp only [Signal.apply]
  all_goals split
  all_goals first | rfl | exact Pc.wake_fresh _

theorem Signal.apply_startSuccessor (signal : Signal) (i : Nat) (cur : Sub) :
    (signal.apply i cur).pc = .startSuccessor ↔ cur.pc = .startSuccessor := by
  cases signal <;> simp only [Signal.apply]
  all_goals split
  all_goals first | rfl | exact Pc.wake_eq_startSuccessor

/-- A wake-up alone keeps the timers ready. -/
theorem timerReady_wake (ready : TimerReady header state) (target : Nat) :
    TimerReady header (state.signal (.wake target)) where
  fresh i fresh := by
    simp only [State.signal_sub] at fresh ⊢
    rw [Signal.apply_fresh] at fresh
    obtain ⟨last, timer⟩ := ready.fresh i fresh
    refine ⟨((Signal.apply_work _ i _).lastReleaseTime).trans last, ?_⟩
    simp only [Signal.apply]
    split <;> exact timer
  guarded i position := by
    simp only [State.signal_sub, Signal.apply_startSuccessor] at position ⊢
    rw [(Signal.apply_work _ _ _).lastReleaseTime]
    exact ready.guarded i position

/-- One statement keeps a fresh record clean, and a release leaves a time that is not zero. -/
theorem Statement.fresh {i : Nat} {cur : Sub} {signal : Signal}
    (statement : Statement header state i cur signal) (ready : TimerReady header state)
    (positive : (state.sub i).pc = .lastReleaseTime → 0 < state.now) :
    (cur.pc.fresh = true → cur.lastReleaseTime = 0 ∧ cur.timer = none) ∧
      (cur.pc = .startSuccessor → (state.sub (header.successorIdx i)).lastReleaseTime ≠ 0) ∧
      ((state.sub i).lastReleaseTime ≠ 0 → cur.lastReleaseTime ≠ 0) := by
  have known := ready.fresh i
  cases statement
  case kthread position _ | hrtimerInit position | timerFunction position =>
    rw [position] at known
    simp [known rfl]
  case lastReleaseTime position => simp [Pc.fresh, Nat.ne_of_gt (positive position)]
  case guardEarly early => simp_all [Pc.fresh, releaseDue]
  case rearmFirst more | rearmLater more =>
    rcases more with ⟨_, rfl⟩ | ⟨_, rfl⟩ <;> simp [Pc.fresh]
  all_goals simp [Pc.fresh]

/-- A thread starts a timer only of a subtask that is no longer fresh. -/
theorem timerReady_thread (startup : Startup header state) (ready : TimerReady header state) {i : Nat}
    (taken : header.step state (.thread i) = some next) : TimerReady header next := by
  obtain ⟨cur, signal, statement, -, rfl⟩ := step_thread taken
  obtain ⟨clean, seen, stays⟩ := statement.fresh ready fun position =>
    startup.clock_of_late (i := i) (by simp [position, Pc.early])
  have kept (j : Nat) : (state.sub j).lastReleaseTime ≠ 0 →
      (((state.set i cur).signal signal).sub j).lastReleaseTime ≠ 0 := by
    rw [State.signal_sub, (Signal.apply_work _ _ _).lastReleaseTime]
    by_cases same : j = i
    · simpa [same] using stays
    · simp [same]
  have record (j : Nat) (fresh : ((state.set i cur).sub j).pc.fresh = true) :
      ((state.set i cur).sub j).lastReleaseTime = 0 ∧ ((state.set i cur).sub j).timer = none := by
    by_cases same : j = i
    · subst same
      simpa using clean (by simpa using fresh)
    · simp only [State.set_sub, Function.update_of_ne same] at fresh ⊢
      exact ready.fresh j fresh
  refine ⟨?_, ?_⟩
  · intro j fresh
    rw [State.signal_sub, Signal.apply_fresh] at fresh
    obtain ⟨last, timer⟩ := record j fresh
    rw [State.signal_sub, (Signal.apply_work _ _ _).lastReleaseTime]
    refine ⟨last, ?_⟩
    cases statement
    case wakeSuccessor =>
      simp only [Signal.apply]
      split <;> exact timer
    case rearmFirst more =>
      -- the thread that re-arms its own timer is past its set-up
      have other : j ≠ i := by
        intro same
        rcases more with ⟨_, rfl⟩ | ⟨_, rfl⟩ <;> simp [same, Pc.fresh] at fresh
      simpa [Signal.apply, other] using timer
    case startSuccessor position =>
      have other : j ≠ header.successorIdx i := by
        intro same
        have nonzero := kept j (same ▸ ready.guarded i position)
        rw [State.signal_sub, (Signal.apply_work _ _ _).lastReleaseTime] at nonzero
        exact nonzero last
      simpa [Signal.apply, other] using timer
    all_goals exact timer
  · intro j position
    rw [State.signal_sub, Signal.apply_startSuccessor] at position
    apply kept
    by_cases same : j = i
    · subst same
      exact seen (by simpa using position)
    · exact ready.guarded j (by simpa [same] using position)

/-- Each step before the unload keeps the timers ready. -/
theorem timerReady_step (startup : Startup header state) (ready : TimerReady header state) {event : Event}
    (running : event ≠ .exit) (taken : header.step state event = some next) : TimerReady header next := by
  cases event with
  | init => exact timerReady_of_quiet (step_init_quiet startup taken).2.2
  | exit => exact absurd rfl running
  | cal =>
      rcases step_cal taken with ⟨_, _, _, rfl⟩ | ⟨k, _, _, rfl⟩ | ⟨_, _, _, rfl⟩
      · exact ⟨ready.fresh, ready.guarded⟩
      · have same : TimerReady header { state with calTimer := .running (k + 1) } :=
          ⟨ready.fresh, ready.guarded⟩
        exact timerReady_wake same _
      · exact ⟨ready.fresh, ready.guarded⟩
  | fire i =>
      obtain ⟨expiry, armed, _, rfl⟩ := step_fire taken
      refine ⟨?_, ?_⟩
      all_goals intro j
      all_goals by_cases same : j = i
      · subst same
        intro fresh
        simp only [State.set_sub, Function.update_self, Sub.wakeUpProcess_pc, Sub.removeHrtimer_pc,
          Pc.wake_fresh] at fresh
        simp [(ready.fresh j fresh).2] at armed
      · simpa [same] using ready.fresh j
      all_goals intro position
      · subst same
        simp only [State.set_sub, Function.update_self, Sub.wakeUpProcess_pc, Sub.removeHrtimer_pc,
          Pc.wake_eq_startSuccessor] at position
        have released := ready.guarded j position
        by_cases self : header.successorIdx j = j
        · simpa [self, Sub.wakeUpProcess, Sub.removeHrtimer] using self ▸ released
        · simpa [self] using released
      · simp only [State.set_sub, Function.update_of_ne same] at position
        have released := ready.guarded j position
        by_cases self : header.successorIdx j = i
        · simpa [self, Sub.wakeUpProcess, Sub.removeHrtimer] using self ▸ released
        · simpa [self] using released
  | thread i => exact timerReady_thread startup ready taken
  | tick duration =>
      rw [step_tick taken]
      exact ⟨ready.fresh, ready.guarded⟩

/-- Timers are used only when ready in every state before the unload. -/
theorem timerReady_reached {guard : Guard State Event} (reached : header.runMode.Reaches guard state)
    (before : state.exit = .notStarted) : TimerReady header state :=
  runMode_invariant (TimerReady header) (fun now => timerReady_of_quiet (loaded_quiet now))
    (fun _ _ _ visited early ready _ running taken =>
      timerReady_step (startup_reached visited early) ready running taken) reached before

end KernelStudio.EndToEnd
