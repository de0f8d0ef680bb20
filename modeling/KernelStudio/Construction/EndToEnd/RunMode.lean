/-
This file models the run mode of the module as a machine over its threads and timers.
Each label executes one statement, fires one timer or lets time pass, so a run is any interleaving.
-/

import KernelStudio.Construction.EndToEnd.Table
import KernelStudio.Library.Transition
import Mathlib.Logic.Function.Basic

namespace KernelStudio.EndToEnd

open Transition

/-- Nanoseconds of a duration in milliseconds. -/
def msToKtime (ms : Nat) : Nat := ms * 1000000

/-- This is the state a thread carries through `schedule()`. -/
inductive TaskState where
  | running
  | interruptible
  | asleep
  deriving DecidableEq

/-- Each constructor names the next statement of a subtask thread. -/
inductive Pc where
  | unborn
  | created
  | kthread
  | hrtimerInit
  | timerFunction
  | kthreadShouldStop
  | setCurrentState
  | schedule (state : TaskState)
  | lastReleaseTime
  | subtaskFunc
  | ts
  | ddl
  | missedDdl
  | rearm
  | successorTs
  | releaseGuard
  | wakeSuccessor
  | startSuccessor
  | exited
  deriving DecidableEq

/-- A wake-up acts on a new thread, on a marked thread and on a sleeping thread. -/
def Pc.wake : Pc → Pc
  | .created => .kthread
  | .schedule _ => .schedule .running
  | pc => pc

/-- The run-time half of `struct subtask`, its thread's locals and its history.
The last four fields record the releases, the returns of `subtask_func`, the time stamps
taken after each job and the outcome of each deadline test. -/
structure Sub where
  pc : Pc := .unborn
  shouldStop : Bool := false
  timer : Option Nat := none
  handler : Bool := false
  lastReleaseTime : Nat := 0
  ts : Nat := 0
  ddl : Nat := 0
  releases : List Nat := []
  completed : Nat := 0
  stamps : List Nat := []
  reports : List Bool := []

/-- This is `wake_up_process` on the thread of a subtask. -/
def Sub.wakeUpProcess (cur : Sub) : Sub := { cur with pc := cur.pc.wake }

/-- This is `hrtimer_start` on the timer of a subtask. A second start replaces the expiry. -/
def Sub.hrtimerStart (cur : Sub) (expiry : Nat) : Sub := { cur with timer := some expiry }

/-- The timer leaves its queue, because it expires or is cancelled. -/
def Sub.removeHrtimer (cur : Sub) : Sub := { cur with timer := none }

/-- The positions of the run branch of `E2E_init`. -/
inductive InitPc where
  | loop (i : Nat)
  | create (i : Nat)
  | wake (i : Nat)
  | start
  | done
  deriving DecidableEq

/-- The positions of the run branch of `E2E_exit`.
The call `kthread_stop` sets the flag, wakes the thread and joins it. -/
inductive ExitPc where
  | notStarted
  | loop (i : Nat)
  | wake (i : Nat)
  | join (i : Nat)
  | cancel (i : Nat)
  | cancelCal
  | returned
  deriving DecidableEq

/-- The start timer, with the task its handler has come to. -/
inductive CalTimer where
  | off
  | armed (expiry : Nat)
  | running (k : Nat)
  | done
  deriving DecidableEq

structure State where
  now : Nat
  sub : Nat → Sub
  init : InitPc
  exit : ExitPc
  calTimer : CalTimer

def State.set (state : State) (i : Nat) (cur : Sub) : State :=
  { state with sub := Function.update state.sub i cur }

/-- A statement calls the kernel for at most one subtask. -/
inductive Signal where
  | none
  | wake (target : Nat)
  | start (target expiry : Nat)
  deriving DecidableEq

def State.signal (state : State) : Signal → State
  | .none => state
  | .wake target => state.set target (state.sub target).wakeUpProcess
  | .start target expiry => state.set target ((state.sub target).hrtimerStart expiry)

/-- The relative deadline of `run`, computed in unsigned arithmetic. -/
def Header.relativeDdl (header : Header) (i : Nat) : Nat :=
  msToKtime (u32 ((header.parent i).period * (header.subtask i).cumulativeExeTime) / (header.parent i).exeTime)

/-- The period of a subtask's task on the clock. -/
def Header.periodTime (header : Header) (i : Nat) : Nat := msToKtime (header.parent i).period

/-- The guard of the direct release reads the successor's last release. -/
def releaseDue (ts period last : Nat) : Bool := last = 0 || period + last ≤ ts

/-- One statement of the thread function `run`, with the call it makes. -/
def Header.run (header : Header) (state : State) (i : Nat) : Option (Sub × Signal) :=
  let cur := state.sub i
  let successor := header.successorIdx i
  let period := header.periodTime i
  match cur.pc with
  | .unborn | .created | .schedule .asleep | .exited => none
  -- `kthread()` runs the thread function only while the thread is not stopped
  | .kthread => some ({ cur with pc := if cur.shouldStop then .exited else .hrtimerInit }, .none)
  | .hrtimerInit => some ({ cur with timer := none, handler := false, pc := .timerFunction }, .none)
  | .timerFunction => some ({ cur with handler := true, pc := .kthreadShouldStop }, .none)
  | .kthreadShouldStop =>
      some ({ cur with pc := if cur.shouldStop then .exited else .setCurrentState }, .none)
  | .setCurrentState => some ({ cur with pc := .schedule .interruptible }, .none)
  | .schedule .interruptible => some ({ cur with pc := .schedule .asleep }, .none)
  -- a wake-up since the mark lets `schedule()` return
  | .schedule .running => some ({ cur with pc := .lastReleaseTime }, .none)
  | .lastReleaseTime => some ({ cur with
      lastReleaseTime := state.now, releases := cur.releases ++ [state.now], pc := .subtaskFunc }, .none)
  | .subtaskFunc => some ({ cur with completed := cur.completed + 1, pc := .ts }, .none)
  | .ts => some ({ cur with ts := state.now, stamps := cur.stamps ++ [state.now], pc := .ddl }, .none)
  | .ddl => some ({ cur with
      ddl := header.relativeDdl i + (state.sub (header.firstIdx i)).lastReleaseTime, pc := .missedDdl }, .none)
  | .missedDdl => some ({ cur with reports := cur.reports ++ [decide (cur.ddl < cur.ts)], pc := .rearm }, .none)
  | .rearm => some ({ cur with pc := if header.hasSuccessor i then .successorTs else .kthreadShouldStop },
      if (header.subtask i).subtaskId = 0 then .start i (cur.lastReleaseTime + period) else .none)
  | .successorTs => some ({ cur with ts := state.now, pc := .releaseGuard }, .none)
  | .releaseGuard => some ({ cur with
      pc := if releaseDue cur.ts period (state.sub successor).lastReleaseTime then .wakeSuccessor
        else .startSuccessor }, .none)
  | .wakeSuccessor => some ({ cur with pc := .kthreadShouldStop }, .wake successor)
  | .startSuccessor => some ({ cur with pc := .kthreadShouldStop },
      .start successor (period + (state.sub successor).lastReleaseTime))

/-- One step of the run branch of `E2E_init`. -/
def Header.initStep (header : Header) (state : State) : Option State :=
  match state.init with
  | .loop i => some (if i < header.subtaskTot then
      { state with init := .create i }.set i { state.sub i with lastReleaseTime := 0 }
      else { state with init := .start })
  | .create i => some ({ state with init := .wake i }.set i { state.sub i with pc := .created })
  | .wake i => some ({ state with init := .loop (i + 1) }.signal (.wake i))
  | .start => some { state with calTimer := .armed (state.now + 100000000), init := .done }
  | .done => none

/-- One step of `cal_timer_func`, which wakes the first subtask of each task in turn. -/
def Header.calStep (header : Header) (state : State) : Option State :=
  match state.calTimer with
  | .off | .done => none
  | .armed expiry => if expiry ≤ state.now then some { state with calTimer := .running 0 } else none
  | .running k => some (if k < header.taskTot then
      { state with calTimer := .running (k + 1) }.signal (.wake (header.task k).subtaskStartIdx)
      else { state with calTimer := .done })

/-- One step of the run branch of `E2E_exit`. The cancel of the start timer waits for its handler. -/
def Header.exitStep (header : Header) (state : State) : Option State :=
  match state.exit with
  | .notStarted => if state.init = .done then some { state with exit := .loop 0 } else none
  | .loop i => some (if i < header.subtaskTot then
      { state with exit := .wake i }.set i { state.sub i with shouldStop := true }
      else { state with exit := .cancelCal })
  | .wake i => some ({ state with exit := .join i }.signal (.wake i))
  | .join i => if (state.sub i).pc = .exited then some { state with exit := .cancel i } else none
  | .cancel i => some ({ state with exit := .loop (i + 1) }.set i (state.sub i).removeHrtimer)
  | .cancelCal => match state.calTimer with
      | .running _ => none
      | _ => some { state with calTimer := .off, exit := .returned }
  | .returned => none

/-- The handler `run_timer_func` of an expired timer wakes the timer's own thread. The expiry and the call of
`wake_up_process` are one step: a handler that has not called yet counts as an armed timer that has expired, and so
`hrtimer_cancel` has nothing to wait for. -/
def State.fire (state : State) (i : Nat) : Option State :=
  match (state.sub i).timer with
  | none => none
  | some expiry => if expiry ≤ state.now then
      some ((state.set i (state.sub i).removeHrtimer).signal (.wake i)) else none

/-- The scheduler chooses any of these labels. -/
inductive Event where
  | init
  | exit
  | cal
  | fire (i : Nat)
  | thread (i : Nat)
  | tick (duration : Nat)
  deriving DecidableEq

def Header.step (header : Header) (state : State) : Event → Option State
  | .init => header.initStep state
  | .exit => header.exitStep state
  | .cal => header.calStep state
  | .fire i => state.fire i
  | .thread i => (header.run state i).map fun result => (state.set i result.1).signal result.2
  | .tick duration => some { state with now := state.now + duration }

/-- The wake-up or timer start that a label carries out. -/
def Header.call (header : Header) (state : State) : Event → Signal
  | .init => match state.init with
      | .wake i => .wake i
      | _ => .none
  | .exit => match state.exit with
      | .wake i => .wake i
      | _ => .none
  | .cal => match state.calTimer with
      | .running k => if k < header.taskTot then .wake (header.task k).subtaskStartIdx else .none
      | _ => .none
  | .fire i => .wake i
  | .thread i => match header.run state i with
      | some (_, signal) => signal
      | none => .none
  | .tick _ => .none

/-- The kernel absorbs a wake-up of a thread that is awake and a start of a timer that is armed. -/
def State.absorbs (state : State) : Signal → Bool
  | .none => false
  | .wake target => (state.sub target).pc.wake = (state.sub target).pc
  | .start target _ => (state.sub target).timer.isSome

/-- The module is loaded at some time with zeroed timers and no threads. -/
def State.loaded (now : Nat) : State :=
  { now, sub := fun _ => {}, init := .loop 0, exit := .notStarted, calTimer := .off }

/-- This is the run-mode machine of a task table. -/
def Header.runMode (header : Header) : Machine State Event where
  start state := ∃ now, state = .loaded now
  step := header.step

end KernelStudio.EndToEnd
