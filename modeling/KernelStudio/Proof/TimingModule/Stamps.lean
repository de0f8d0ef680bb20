/-
This file proves the order of the time stamps that the timing module has taken.
-/

import KernelStudio.Proof.TimingModule.Control

namespace KernelStudio.TimingModule

open Transition

variable {state next : State} {event : Event} {position : Fin 8} {value : Nat}

/-- A time stamp that does not go wrong is written to memory in use. -/
theorem record_of_sound (sound : (state.record position value).crash = none) :
    state.record position value = { state with tsArray := Function.update state.tsArray position value } := by
  unfold State.record at *
  split at sound
  · rfl
  · exact absurd sound nofun
  · exact absurd sound nofun
  · exact absurd sound nofun

/-- The order of the time stamps that have been taken. The others are zero. -/
structure Stamps (state : State) : Prop where
  past : ∀ position, state.tsArray position ≤ state.now
  stopped : state.stopped ≤ state.now
  firsts : state.init.stamped = true → state.tsArray 0 ≤ state.tsArray 1
  seconds : state.init = .done → state.tsArray 1 ≤ state.tsArray 2
  armed : ∀ expiry, state.ahrtimer = .armed expiry → state.tsArray 1 + delay ≤ expiry
  expired : state.ahrtimer = .tsArray → state.tsArray 1 + delay ≤ state.now
  fired : state.ahrtimer = .wake ∨ state.ahrtimer = .done → state.tsArray 1 + delay ≤ state.tsArray 3
  called : 4 ≤ state.thread.rank → state.tsArray 1 + delay ≤ state.tsArray 3
  fourth : 5 ≤ state.thread.rank → state.tsArray 3 ≤ state.tsArray 4
  stoppedLate : state.shouldStop = true → state.tsArray 2 ≤ state.stopped
  flagged : state.shouldStop = true → 4 ≤ state.thread.rank → state.tsArray 3 ≤ state.stopped
  fifth : 10 ≤ state.thread.rank → state.tsArray 4 ≤ state.tsArray 5 ∧ state.stopped ≤ state.tsArray 5
  childArmed : ∀ expiry, state.childtimer = .armed expiry → state.tsArray 5 + delay ≤ expiry
  childExpired : state.childtimer = .tsArray → state.tsArray 5 + delay ≤ state.now
  childFired : state.childtimer = .wake ∨ state.childtimer = .done → state.tsArray 5 + delay ≤ state.tsArray 6
  childWoken : 17 ≤ state.thread.rank → state.tsArray 5 + delay ≤ state.tsArray 6
  last : state.thread.rank = 19 → state.tsArray 6 ≤ state.tsArray 7
  untaken : state.thread.rank ≤ 9 → state.tsArray 5 = 0 ∧ state.tsArray 6 = 0 ∧ state.tsArray 7 = 0
  childless : state.thread.rank ≤ 13 → state.tsArray 6 = 0
  unfinished : state.thread.rank ≤ 18 → state.tsArray 7 = 0

/-- The positions of the thread at which the order of the stamps changes. -/
def marks : List Nat := [4, 5, 10, 14, 17, 19]

/-- A statement between two stamps leaves what their order depends on. -/
structure Between (state next : State) : Prop where
  now : next.now = state.now
  tsArray : next.tsArray = state.tsArray
  stopped : next.stopped = state.stopped
  init : next.init = state.init
  shouldStop : next.shouldStop = state.shouldStop
  ahrtimer : next.ahrtimer = state.ahrtimer
  childtimer : next.childtimer = state.childtimer
  passed : ∀ mark ∈ marks, mark ≤ next.thread.rank ↔ mark ≤ state.thread.rank

/-- Such a statement keeps the order. -/
theorem Stamps.between (stamps : Stamps state) (between : Between state next) : Stamps next := by
  obtain ⟨now, tsArray, stopped, init, shouldStop, ahrtimer, childtimer, passed⟩ := between
  have begun := passed 4 (by decide)
  have stamped := passed 5 (by decide)
  have again := passed 10 (by decide)
  have started := passed 14 (by decide)
  have woken := passed 17 (by decide)
  have ended := passed 19 (by decide)
  have top := state.thread.rank_le
  have nextTop := next.thread.rank_le
  constructor <;> simp only [now, tsArray, stopped, init, shouldStop, ahrtimer, childtimer]
  case past => exact stamps.past
  case stopped => exact stamps.stopped
  case firsts => exact stamps.firsts
  case seconds => exact stamps.seconds
  case armed => exact stamps.armed
  case expired => exact stamps.expired
  case fired => exact stamps.fired
  case called => exact fun late => stamps.called (begun.mp late)
  case fourth => exact fun late => stamps.fourth (stamped.mp late)
  case stoppedLate => exact stamps.stoppedLate
  case flagged => exact fun flag late => stamps.flagged flag (begun.mp late)
  case fifth => exact fun late => stamps.fifth (again.mp late)
  case childArmed => exact stamps.childArmed
  case childExpired => exact stamps.childExpired
  case childFired => exact stamps.childFired
  case childWoken => exact fun late => stamps.childWoken (woken.mp late)
  case last => exact fun late => stamps.last (by omega)
  case untaken => exact fun early => stamps.untaken (by omega)
  case childless => exact fun early => stamps.childless (by omega)
  case unfinished => exact fun early => stamps.unfinished (by omega)

theorem stamps_start (now : Nat) : Stamps { now } := by
  constructor <;> simp [InitPc.stamped, ThreadPc.rank]

theorem Stamps.initStep (stamps : Stamps state) (control : Control state) (taken : state.initStep = some next)
    (sound : next.crash = none) : Stamps next := by
  have early := control.unstarted
  have unstopped (loading : state.init ≠ .done) : state.shouldStop = false := by
    rw [Bool.eq_false_iff, Ne, control.flag, control.loaded loading]
    decide
  unfold State.initStep at taken
  split at taken <;> simp only [Option.some.injEq, reduceCtorEq] at taken
  all_goals subst taken
  case h_2 =>
    split at sound
    · cases stamps
      constructor <;> first | assumption | grind -ring -linarith [InitPc.early, InitPc.stamped, ThreadPc.rank]
    · cases sound
  case h_3 | h_5 | h_8 =>
    rw [record_of_sound sound]
    cases stamps
    constructor <;>
      first | assumption | grind -ring -linarith [InitPc.early, InitPc.stamped, ThreadPc.rank, Function.update_apply]
  all_goals
    cases stamps
    constructor <;> first | assumption | grind -ring -linarith [InitPc.early, InitPc.stamped, ThreadPc.rank]

theorem Stamps.timerStep (stamps : Stamps state) (control : Control state) (taken : state.timerStep = some next)
    (sound : next.crash = none) : Stamps next := by
  have running := control.running
  have unbegun := control.unbegun
  cases stamps
  unfold State.timerStep at taken
  split at taken
  · exact absurd taken nofun
  · exact absurd taken nofun
  · split at taken <;> simp only [Option.some.injEq, reduceCtorEq] at taken
    subst taken
    constructor <;> first | assumption | grind -ring -linarith [InitPc.early, InitPc.stamped, ThreadPc.rank]
  · rename_i position
    rw [position] at running
    have early : state.thread.rank ≤ 3 := running rfl
    simp only [Option.some.injEq] at taken
    subst taken
    rw [record_of_sound sound]
    constructor <;>
      first
      | assumption
      | grind -ring -linarith [InitPc.early, InitPc.stamped, ThreadPc.rank, Function.update_apply]
  · rename_i wakes
    simp only [Option.some.injEq] at taken
    subst taken
    obtain ⟨woken, present, alive⟩ := wakeUpProcess_of_sound sound
    rw [woken]
    rcases ThreadPc.of_rank_le_three (unbegun wakes) with absent | position | position | left
    · exact absurd absent present
    · constructor <;> first | assumption | grind -ring -linarith [ThreadPc.rank, ThreadPc.wake]
    · constructor <;> first | assumption | grind -ring -linarith [ThreadPc.rank, ThreadPc.wake]
    · exact absurd left (alive false)

theorem Stamps.childTimerStep (stamps : Stamps state) (control : Control state)
    (taken : state.childTimerStep = some next) (sound : next.crash = none) : Stamps next := by
  have running := control.runningChild
  have again := control.again
  cases stamps
  unfold State.childTimerStep at taken
  split at taken
  · exact absurd taken nofun
  · exact absurd taken nofun
  · split at taken <;> simp only [Option.some.injEq, reduceCtorEq] at taken
    subst taken
    constructor <;> first | assumption | grind -ring -linarith [InitPc.early, InitPc.stamped, ThreadPc.rank]
  · rename_i position
    rw [position] at running
    obtain ⟨late, asleep⟩ : 14 ≤ state.thread.rank ∧ state.thread.rank ≤ 16 := running rfl
    simp only [Option.some.injEq] at taken
    subst taken
    rw [record_of_sound sound]
    constructor <;>
      first
      | assumption
      | grind -ring -linarith [InitPc.early, InitPc.stamped, ThreadPc.rank, Function.update_apply]
  · rename_i wakes
    simp only [Option.some.injEq] at taken
    subst taken
    obtain ⟨woken, _, _⟩ := wakeUpProcess_of_sound sound
    rw [woken]
    obtain ⟨late, asleep⟩ := again wakes
    rcases ThreadPc.of_rank_again late asleep with position | position | position
    all_goals constructor <;> first | assumption | grind -ring -linarith [ThreadPc.rank, ThreadPc.wake]

theorem Stamps.threadStep (stamps : Stamps state) (control : Control state) (taken : state.threadStep = some next)
    (sound : next.crash = none) : Stamps next := by
  have begun := control.begun
  have flag := control.flag
  have working := control.working
  have childOff := control.childOff
  unfold State.threadStep at taken
  split at taken
  case h_1 | h_2 | h_3 | h_4 | h_5 => cases taken
  case h_6 position =>
    simp only [Option.some.injEq] at taken
    subst taken
    cases stamps
    constructor <;> first | assumption | grind -ring -linarith [ThreadPc.rank]
  case h_7 position | h_11 position | h_19 position =>
    simp only [Option.some.injEq] at taken
    subst taken
    rw [record_of_sound sound]
    cases stamps
    constructor <;> first | assumption | grind -ring -linarith [ThreadPc.rank, Function.update_apply]
  case h_8 position | h_9 position | h_10 position | h_12 position | h_14 position | h_16 position | h_17 position |
      h_18 position =>
    simp only [Option.some.injEq] at taken
    subst taken
    exact stamps.between ⟨rfl, rfl, rfl, rfl, rfl, rfl, rfl, by simp [position, marks, ThreadPc.rank]⟩
  case h_13 position =>
    simp only [Option.some.injEq] at taken
    subst taken
    split at sound
    · cases sound
    · next created =>
      rw [if_neg created]
      exact stamps.between ⟨rfl, rfl, rfl, rfl, rfl, rfl, rfl, by simp [position, marks, ThreadPc.rank]⟩
  case h_15 position =>
    simp only [Option.some.injEq] at taken
    subst taken
    cases stamps
    constructor <;> first | assumption | grind -ring -linarith [ThreadPc.rank]

/-- Before its stop the thread has not been woken from its first sleep. -/
theorem Control.unwoken (control : Control state) (position : state.exit.rank ≤ 2) : state.thread.rank ≤ 7 := by
  by_contra late
  by_cases left : state.thread.rank = 19
  · have joined := control.returned left
    omega
  · have top := state.thread.rank_le
    rw [control.working (by omega) (by omega)] at position
    exact absurd position (by decide)

theorem Stamps.exitStep (stamps : Stamps state) (control : Control state) (taken : state.exitStep = some next)
    (sound : next.crash = none) : Stamps next := by
  unfold State.exitStep at taken
  split at taken
  case h_1 | h_7 =>
    obtain rfl := Option.some.inj (Option.ite_none_right_eq_some.mp taken).2
    exact stamps.between ⟨rfl, rfl, rfl, rfl, rfl, rfl, rfl, fun _ _ => Iff.rfl⟩
  case h_2 position =>
    simp only [Option.some.injEq] at taken
    subst taken
    split at sound
    · cases sound
    · have early := control.unwoken (by rw [position]; decide)
      cases stamps
      constructor <;> first | assumption | grind -ring -linarith
  case h_3 position =>
    simp only [Option.some.injEq] at taken
    subst taken
    refine stamps.between ⟨rfl, rfl, rfl, rfl, rfl, rfl, rfl, ?_⟩
    rcases ThreadPc.wake_of_rank (control.unwoken (by rw [position]; decide)) with
      same | ⟨before, _⟩ | ⟨before | before, _⟩
    · exact fun _ _ => by rw [same]
    all_goals simp [before, marks, ThreadPc.rank, ThreadPc.wake]
  case h_4 position =>
    split at taken <;> simp only [Option.some.injEq, reduceCtorEq] at taken
    subst taken
    exact stamps.between ⟨rfl, rfl, rfl, rfl, rfl, rfl, rfl, fun _ _ => Iff.rfl⟩
  case h_5 =>
    simp only [Option.some.injEq] at taken
    subst taken
    split at sound
    · split at sound
      · cases sound
      · next known alive =>
        rw [if_pos known, if_neg alive]
        exact stamps.between ⟨rfl, rfl, rfl, rfl, rfl, rfl, rfl, fun _ _ => Iff.rfl⟩
    · cases sound
  case h_6 =>
    simp only [Option.some.injEq] at taken
    subst taken
    exact stamps.between ⟨rfl, rfl, rfl, rfl, rfl, rfl, rfl, fun _ _ => Iff.rfl⟩
  case h_8 | h_9 =>
    split at taken <;> simp only [Option.some.injEq, reduceCtorEq] at taken
    subst taken
    cases stamps
    constructor <;> first | assumption | simp
  case h_10 =>
    simp only [Option.some.injEq] at taken
    subst taken
    split at sound
    · cases sound
    · exact stamps.between ⟨rfl, rfl, rfl, rfl, rfl, rfl, rfl, fun _ _ => Iff.rfl⟩
  case h_11 => cases taken

/-- What each state of a run keeps that has not gone wrong. -/
structure Kept (state : State) : Prop where
  control : Control state
  stamps : Stamps state

theorem Kept.step (kept : Kept state) (taken : state.step event = some next) (sound : next.crash = none) :
    Kept next := by
  obtain ⟨control, stamps⟩ := kept
  unfold State.step at taken
  split at taken
  · exact absurd taken nofun
  · cases event with
    | init => exact ⟨control.initStep taken, stamps.initStep control taken sound⟩
    | initFails =>
        refine ⟨control.initFails taken, ?_⟩
        have early := control.unstarted
        cases stamps
        simp only [State.initFails] at taken
        split at taken <;> simp only [Option.some.injEq, reduceCtorEq] at taken
        all_goals subst taken
        all_goals constructor <;> first | assumption | grind -ring -linarith [InitPc.stamped, ThreadPc.rank]
    | timer => exact ⟨control.timerStep taken sound, stamps.timerStep control taken sound⟩
    | childTimer => exact ⟨control.childTimerStep taken sound, stamps.childTimerStep control taken sound⟩
    | thread => exact ⟨control.threadStep taken sound, stamps.threadStep control taken sound⟩
    | threadFails =>
        refine ⟨control.threadFails taken, ?_⟩
        simp only [State.threadFails] at taken
        split at taken <;> simp only [Option.some.injEq, reduceCtorEq] at taken
        subst taken
        next position =>
          exact stamps.between ⟨rfl, rfl, rfl, rfl, rfl, rfl, rfl, by simp [position, marks, ThreadPc.rank]⟩
    | child =>
        refine ⟨control.childStep taken, ?_⟩
        simp only [State.childStep] at taken
        split at taken <;> simp only [Option.some.injEq, reduceCtorEq] at taken
        all_goals subst taken
        all_goals exact stamps.between ⟨rfl, rfl, rfl, rfl, rfl, rfl, rfl, fun _ _ => Iff.rfl⟩
    | exit => exact ⟨control.exitStep taken sound, stamps.exitStep control taken sound⟩
    | tick duration =>
        simp only [Option.some.injEq] at taken
        subst taken
        cases control
        cases stamps
        constructor
        · constructor <;> assumption
        · constructor <;> first | assumption | grind -ring -linarith

end KernelStudio.TimingModule
