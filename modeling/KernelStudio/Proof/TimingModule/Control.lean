/-
This file proves how the positions of the threads, the timers and the two functions of the timing module depend on each
other in every run.
-/

import KernelStudio.Construction.TimingModule

namespace KernelStudio.TimingModule

open Kthread Transition

/-- The statements of the thread in their order. -/
def ThreadPc.rank : ThreadPc → Nat
  | .absent => 0
  | .created => 1
  | .kthread => 2
  | .exited false => 3
  | .tsArray4 => 4
  | .setCurrentState => 5
  | .schedule .interruptible => 6
  | .schedule .asleep => 7
  | .schedule .running => 8
  | .tsArray5 => 9
  | .kthreadCreate => 10
  | .kthreadBind => 11
  | .wakeChild => 12
  | .hrtimerStart => 13
  | .setCurrentStateAgain => 14
  | .scheduleAgain .interruptible => 15
  | .scheduleAgain .asleep => 16
  | .scheduleAgain .running => 17
  | .tsArray7 => 18
  | .exited true => 19

/-- The statements of `timing_exit` in their order. -/
def ExitPc.rank : ExitPc → Nat
  | .notStarted => 0
  | .stop => 1
  | .wake => 2
  | .join => 3
  | .stopChild => 4
  | .wakeChild => 5
  | .joinChild => 6
  | .cancel => 7
  | .cancelChild => 8
  | .kfree => 9
  | .returned => 10

/-- The timer is started by a later statement of `timing_init`. -/
def InitPc.early : InitPc → Bool
  | .kmalloc | .clear | .tsArray0 | .kthreadCreate | .tsArray1 | .hrtimerStart => true
  | .isErr | .tsArray2 | .done | .failed => false

/-- The first two time stamps have been taken. -/
def InitPc.stamped : InitPc → Bool
  | .hrtimerStart | .isErr | .tsArray2 | .done | .failed => true
  | .kmalloc | .clear | .tsArray0 | .kthreadCreate | .tsArray1 => false

theorem ThreadPc.rank_le (pc : ThreadPc) : pc.rank ≤ 19 := by
  unfold rank
  split <;> decide

/-- The thread has not slept yet. -/
theorem ThreadPc.of_rank_le_three {pc : ThreadPc} (early : pc.rank ≤ 3) :
    pc = .absent ∨ pc = .created ∨ pc = .kthread ∨ pc = .exited false := by
  revert early
  cases pc with
  | schedule state | scheduleAgain state => cases state <;> simp [rank]
  | exited called => cases called <;> simp [rank]
  | _ => simp [rank]

/-- The thread is about to fall asleep again or sleeps. -/
theorem ThreadPc.of_rank_again {pc : ThreadPc} (late : 14 ≤ pc.rank) (asleep : pc.rank ≤ 16) :
    pc = .setCurrentStateAgain ∨ pc = .scheduleAgain .interruptible ∨ pc = .scheduleAgain .asleep := by
  revert late asleep
  cases pc with
  | schedule state | scheduleAgain state => cases state <;> simp [rank]
  | exited called => cases called <;> simp [rank]
  | _ => simp [rank]

/-- What a wake-up does before the thread has been woken by its stop. -/
theorem ThreadPc.wake_of_rank {pc : ThreadPc} (early : pc.rank ≤ 7) :
    pc.wake = pc ∨ pc = .created ∧ pc.wake = .kthread ∨
      (pc = .schedule .interruptible ∨ pc = .schedule .asleep) ∧ pc.wake = .schedule .running := by
  revert early
  cases pc with
  | schedule state | scheduleAgain state => cases state <;> simp [rank, wake]
  | exited called => cases called <;> simp [rank, wake]
  | _ => simp [wake]

variable {state next : State} {event : Event} {position : Fin 8} {value : Nat}

@[simp] theorem init_record : (state.record position value).init = state.init := by
  unfold State.record
  split <;> rfl

@[simp] theorem exit_record : (state.record position value).exit = state.exit := by
  unfold State.record
  split <;> rfl

@[simp] theorem thread_record : (state.record position value).thread = state.thread := by
  unfold State.record
  split <;> rfl

@[simp] theorem shouldStop_record : (state.record position value).shouldStop = state.shouldStop := by
  unfold State.record
  split <;> rfl

@[simp] theorem child_record : (state.record position value).child = state.child := by
  unfold State.record
  split <;> rfl

@[simp] theorem childKthread_record : (state.record position value).childKthread = state.childKthread := by
  unfold State.record
  split <;> rfl

@[simp] theorem ahrtimer_record : (state.record position value).ahrtimer = state.ahrtimer := by
  unfold State.record
  split <;> rfl

@[simp] theorem childtimer_record : (state.record position value).childtimer = state.childtimer := by
  unfold State.record
  split <;> rfl

/-- What the positions of the threads, the timers and the two functions of the module say about each other, as long as
no pointer has been misused. -/
structure Control (state : State) : Prop where
  loaded : state.init ≠ .done → state.exit = .notStarted
  unstarted : state.init.early = true → state.ahrtimer = .off ∧ state.thread.rank ≤ 1
  present : state.init = .tsArray2 ∨ state.init = .done → state.thread ≠ .absent
  flag : state.shouldStop = true ↔ 2 ≤ state.exit.rank
  off : state.ahrtimer = .off → state.init.early = true ∨ 8 ≤ state.exit.rank
  begun : state.thread = .kthread → state.shouldStop = true ∨ state.ahrtimer = .done
  waiting : state.ahrtimer ≠ .done → state.exit.rank ≤ 7 → state.thread.rank ≤ 3
  refused : state.thread.rank = 3 → state.shouldStop = true ∧ state.exit.rank ≤ 4
  working : 8 ≤ state.thread.rank → state.thread.rank ≤ 18 → state.exit = .join
  childless : state.thread.rank ≤ 10 → state.childKthread = false ∧ state.child = .absent
  parent : 11 ≤ state.thread.rank → state.childKthread = true
  bound : 12 ≤ state.thread.rank → state.child ≠ .absent
  childOff : state.thread.rank ≤ 13 → state.childtimer = .off
  childOn : 14 ≤ state.thread.rank → state.exit.rank ≤ 8 → state.childtimer ≠ .off
  childWaiting : state.childtimer ≠ .done → state.exit.rank ≤ 8 → state.thread.rank ≤ 16
  joined : 4 ≤ state.exit.rank → state.thread.rank = 3 ∨ state.thread.rank = 19
  joinedChild : 5 ≤ state.exit.rank → state.thread.rank = 19
  returned : state.thread.rank = 19 → 3 ≤ state.exit.rank
  cancelled : 8 ≤ state.exit.rank → state.ahrtimer = .off
  cancelledChild : 9 ≤ state.exit.rank → state.childtimer = .off

theorem control_start (now : Nat) : Control { now } := by
  constructor <;> simp [InitPc.early, ThreadPc.rank, ExitPc.rank]

theorem Control.record (control : Control state) : Control (state.record position value) := by
  cases control
  constructor <;> simpa only [init_record, exit_record, thread_record, shouldStop_record, child_record,
    childKthread_record, ahrtimer_record, childtimer_record]

theorem Control.initStep (control : Control state) (taken : state.initStep = some next) : Control next := by
  cases control
  unfold State.initStep at taken
  split at taken <;> simp only [Option.some.injEq, reduceCtorEq] at taken
  all_goals subst taken
  case h_2 => split <;> constructor <;>
    first | assumption | grind -ring -linarith [InitPc.early, ThreadPc.rank, ExitPc.rank]
  case h_3 | h_5 | h_8 =>
    apply Control.record
    constructor <;> first | assumption | grind -ring -linarith [InitPc.early, ThreadPc.rank, ExitPc.rank]
  all_goals constructor <;> first | assumption | grind -ring -linarith [InitPc.early, ThreadPc.rank, ExitPc.rank]

theorem Control.initFails (control : Control state) (taken : state.initFails = some next) : Control next := by
  cases control
  unfold State.initFails at taken
  split at taken <;> simp only [Option.some.injEq, reduceCtorEq] at taken
  all_goals subst taken
  all_goals constructor <;> first | assumption | grind -ring -linarith [InitPc.early, ThreadPc.rank, ExitPc.rank]

/-- The wake-up of a thread that is not absent and has not returned. -/
theorem wakeUpProcess_of_sound (sound : state.wakeUpProcess.crash = none) :
    state.wakeUpProcess = { state with thread := state.thread.wake } ∧ state.thread ≠ .absent ∧
      ∀ called, state.thread ≠ .exited called := by
  unfold State.wakeUpProcess at *
  split at sound
  · exact absurd sound nofun
  · exact absurd sound nofun
  · rename_i present alive
    exact ⟨rfl, present, alive⟩

/-- The handler of the timer finds a thread that has not begun. -/
theorem Control.unbegun (control : Control state) (wakes : state.ahrtimer = .wake) : state.thread.rank ≤ 3 := by
  refine control.waiting (wakes ▸ nofun) ?_
  by_contra late
  exact absurd (wakes.symm.trans (control.cancelled (by omega))) nofun

/-- The handler of the child's timer finds the thread before or in its second sleep. -/
theorem Control.again (control : Control state) (wakes : state.childtimer = .wake) :
    14 ≤ state.thread.rank ∧ state.thread.rank ≤ 16 := by
  constructor
  · by_contra early
    exact absurd (wakes.symm.trans (control.childOff (by omega))) nofun
  · refine control.childWaiting (wakes ▸ nofun) ?_
    by_contra late
    exact absurd (wakes.symm.trans (control.cancelledChild (by omega))) nofun

theorem Control.timerStep (control : Control state) (taken : state.timerStep = some next) (sound : next.crash = none) :
    Control next := by
  have unbegun := control.unbegun
  cases control
  unfold State.timerStep at taken
  split at taken
  · exact absurd taken nofun
  · exact absurd taken nofun
  · split at taken <;> simp only [Option.some.injEq, reduceCtorEq] at taken
    subst taken
    constructor <;> first | assumption | grind -ring -linarith [InitPc.early, ThreadPc.rank, ExitPc.rank]
  · simp only [Option.some.injEq] at taken
    subst taken
    apply Control.record
    constructor <;> first | assumption | grind -ring -linarith [InitPc.early, ThreadPc.rank, ExitPc.rank]
  · rename_i wakes
    simp only [Option.some.injEq] at taken
    subst taken
    obtain ⟨woken, present, alive⟩ := wakeUpProcess_of_sound sound
    rw [woken]
    rcases ThreadPc.of_rank_le_three (unbegun wakes) with absent | position | position | left
    · exact absurd absent present
    · constructor <;>
        first | assumption | grind -ring -linarith [InitPc.early, ThreadPc.rank, ExitPc.rank, ThreadPc.wake]
    · constructor <;>
        first | assumption | grind -ring -linarith [InitPc.early, ThreadPc.rank, ExitPc.rank, ThreadPc.wake]
    · exact absurd left (alive false)

theorem Control.childTimerStep (control : Control state) (taken : state.childTimerStep = some next)
    (sound : next.crash = none) : Control next := by
  have again := control.again
  cases control
  unfold State.childTimerStep at taken
  split at taken
  · exact absurd taken nofun
  · exact absurd taken nofun
  · split at taken <;> simp only [Option.some.injEq, reduceCtorEq] at taken
    subst taken
    constructor <;> first | assumption | grind -ring -linarith [InitPc.early, ThreadPc.rank, ExitPc.rank]
  · simp only [Option.some.injEq] at taken
    subst taken
    apply Control.record
    constructor <;> first | assumption | grind -ring -linarith [InitPc.early, ThreadPc.rank, ExitPc.rank]
  · rename_i wakes
    simp only [Option.some.injEq] at taken
    subst taken
    obtain ⟨woken, _, _⟩ := wakeUpProcess_of_sound sound
    rw [woken]
    obtain ⟨late, asleep⟩ := again wakes
    rcases ThreadPc.of_rank_again late asleep with position | position | position
    all_goals constructor <;>
      first | assumption | grind -ring -linarith [InitPc.early, ThreadPc.rank, ExitPc.rank, ThreadPc.wake]

theorem Control.threadStep (control : Control state) (taken : state.threadStep = some next) (sound : next.crash = none) :
    Control next := by
  cases control
  unfold State.threadStep at taken
  split at taken <;> simp only [Option.some.injEq, reduceCtorEq] at taken
  all_goals subst taken
  case h_7 | h_11 | h_19 =>
    apply Control.record
    constructor <;> first | assumption | grind -ring -linarith [InitPc.early, ThreadPc.rank, ExitPc.rank]
  case h_13 =>
    split at sound
    · exact absurd sound nofun
    · rename_i created
      rw [if_neg created]
      constructor <;> first | assumption | grind -ring -linarith [InitPc.early, ThreadPc.rank, ExitPc.rank]
  case h_14 =>
    constructor <;>
      first | assumption | grind -ring -linarith [InitPc.early, ThreadPc.rank, ExitPc.rank, ChildPc.wake]
  all_goals constructor <;> first | assumption | grind -ring -linarith [InitPc.early, ThreadPc.rank, ExitPc.rank]

theorem Control.threadFails (control : Control state) (taken : state.threadFails = some next) : Control next := by
  cases control
  unfold State.threadFails at taken
  split at taken <;> simp only [Option.some.injEq, reduceCtorEq] at taken
  subst taken
  constructor <;> first | assumption | grind -ring -linarith [InitPc.early, ThreadPc.rank, ExitPc.rank]

theorem Control.childStep (control : Control state) (taken : state.childStep = some next) : Control next := by
  cases control
  unfold State.childStep at taken
  split at taken <;> simp only [Option.some.injEq, reduceCtorEq] at taken
  all_goals subst taken
  all_goals constructor <;> first | assumption | grind -ring -linarith [InitPc.early, ThreadPc.rank, ExitPc.rank]

theorem Control.exitStep (control : Control state) (taken : state.exitStep = some next) (sound : next.crash = none) :
    Control next := by
  cases control
  unfold State.exitStep at taken
  split at taken
  · split at taken <;> simp only [Option.some.injEq, reduceCtorEq] at taken
    subst taken
    constructor <;> first | assumption | grind -ring -linarith [InitPc.early, ThreadPc.rank, ExitPc.rank]
  · simp only [Option.some.injEq] at taken
    subst taken
    split at sound
    · cases sound
    · constructor <;> first | assumption | grind -ring -linarith [InitPc.early, ThreadPc.rank, ExitPc.rank]
  · rename_i position
    simp only [Option.some.injEq] at taken
    subst taken
    have top : state.thread.rank ≤ 19 := state.thread.rank_le
    have early : state.thread.rank ≤ 7 := by grind -ring -linarith [ExitPc.rank]
    rcases ThreadPc.wake_of_rank early with same | ⟨before, woken⟩ | ⟨before | before, woken⟩
    all_goals constructor <;> first | assumption | grind -ring -linarith [InitPc.early, ThreadPc.rank, ExitPc.rank]
  · split at taken <;> simp only [Option.some.injEq, reduceCtorEq] at taken
    subst taken
    rename_i called left
    cases called <;> constructor <;>
      first | assumption | grind -ring -linarith [InitPc.early, ThreadPc.rank, ExitPc.rank]
  · simp only [Option.some.injEq] at taken
    subst taken
    split at sound
    · split at sound
      · cases sound
      · constructor <;> first | assumption | grind -ring -linarith [InitPc.early, ThreadPc.rank, ExitPc.rank]
    · cases sound
  · simp only [Option.some.injEq] at taken
    subst taken
    constructor <;>
      first | assumption | grind -ring -linarith [InitPc.early, ThreadPc.rank, ExitPc.rank, ChildPc.wake]
  · split at taken <;> simp only [Option.some.injEq, reduceCtorEq] at taken
    subst taken
    constructor <;> first | assumption | grind -ring -linarith [InitPc.early, ThreadPc.rank, ExitPc.rank]
  · split at taken <;> simp only [Option.some.injEq, reduceCtorEq] at taken
    subst taken
    constructor <;> first | assumption | grind -ring -linarith [InitPc.early, ThreadPc.rank, ExitPc.rank]
  · split at taken <;> simp only [Option.some.injEq, reduceCtorEq] at taken
    subst taken
    constructor <;> first | assumption | grind -ring -linarith [InitPc.early, ThreadPc.rank, ExitPc.rank]
  · simp only [Option.some.injEq] at taken
    subst taken
    split at sound
    · cases sound
    · constructor <;> first | assumption | grind -ring -linarith [InitPc.early, ThreadPc.rank, ExitPc.rank]
  · cases taken

/-- The handlers have not returned while the functions of the module go on to the cancels. -/
theorem Control.running (control : Control state) (runs : state.ahrtimer.running = true) : state.thread.rank ≤ 3 := by
  refine control.waiting (by rintro same; simp [same, Timer.running] at runs) ?_
  by_contra late
  simp [control.cancelled (by omega), Timer.running] at runs

theorem Control.runningChild (control : Control state) (runs : state.childtimer.running = true) :
    14 ≤ state.thread.rank ∧ state.thread.rank ≤ 16 := by
  constructor
  · by_contra early
    simp [control.childOff (by omega), Timer.running] at runs
  · refine control.childWaiting (by rintro same; simp [same, Timer.running] at runs) ?_
    by_contra late
    simp [control.cancelledChild (by omega), Timer.running] at runs

end KernelStudio.TimingModule
