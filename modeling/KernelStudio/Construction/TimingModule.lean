/-
This file models the timing module: a thread that is started by a timer, sleeps until it is stopped and then creates a
child thread with a timer of its own. Each label executes one statement, so a run is any interleaving.
-/

import KernelStudio.Library.Kthread
import KernelStudio.Library.Transition
import Mathlib.Logic.Function.Basic

namespace KernelStudio.TimingModule

open Kthread Transition

/-- This is `ktime_set(1, 0)`, the delay of both timers. -/
def delay : Nat := 1000000000

/-- The iterations of the loop in `child_thread_fn`. -/
def childIterations : Nat := 10000000

/-- The memory of `ts_array`. -/
inductive Memory where
  | unset
  | null
  | live
  | freed
  deriving DecidableEq

/-- A pointer that was used although it does not name what is used. -/
inductive Crash where
  | nullArray
  | freedArray
  | errorThread
  | nullThread
  | exitedThread
  deriving DecidableEq

/-- A timer that fires once, with the statement that its handler has come to. -/
inductive Timer where
  | off
  | armed (expiry : Nat)
  | tsArray
  | wake
  | done
  deriving DecidableEq

/-- Each constructor names the next statement of `thread_fn`. The end tells whether the function has been called. -/
inductive ThreadPc where
  | absent
  | created
  | kthread
  | tsArray4
  | setCurrentState
  | schedule (state : TaskState)
  | tsArray5
  | kthreadCreate
  | kthreadBind
  | wakeChild
  | hrtimerStart
  | setCurrentStateAgain
  | scheduleAgain (state : TaskState)
  | tsArray7
  | exited (called : Bool)
  deriving DecidableEq

/-- This is `wake_up_process` on the thread. -/
def ThreadPc.wake : ThreadPc → ThreadPc
  | .created => .kthread
  | .schedule _ => .schedule .running
  | .scheduleAgain _ => .scheduleAgain .running
  | pc => pc

/-- Each constructor names the next statement of `child_thread_fn`. -/
inductive ChildPc where
  | absent
  | created
  | kthread
  | loop (i : Nat)
  | exited
  deriving DecidableEq

/-- This is `wake_up_process` on the child thread, which never sleeps. -/
def ChildPc.wake : ChildPc → ChildPc
  | .created => .kthread
  | pc => pc

/-- The positions of `timing_init`. -/
inductive InitPc where
  | kmalloc
  | clear
  | tsArray0
  | kthreadCreate
  | tsArray1
  | hrtimerStart
  | isErr
  | tsArray2
  | done
  | failed
  deriving DecidableEq

/-- The positions of `timing_exit`. A call of `kthread_stop` sets the flag, wakes the thread and joins it. -/
inductive ExitPc where
  | notStarted
  | stop
  | wake
  | join
  | stopChild
  | wakeChild
  | joinChild
  | cancel
  | cancelChild
  | kfree
  | returned
  deriving DecidableEq

/-- The field `stopped` records when `kthread_stop` has set the flag of the thread. -/
structure State where
  now : Nat
  memory : Memory := .unset
  tsArray : Fin 8 → Nat := fun _ => 0
  thread : ThreadPc := .absent
  shouldStop : Bool := false
  stopped : Nat := 0
  child : ChildPc := .absent
  /-- The pointer `child_kthread` is not null. -/
  childKthread : Bool := false
  childShouldStop : Bool := false
  ahrtimer : Timer := .off
  childtimer : Timer := .off
  init : InitPc := .kmalloc
  exit : ExitPc := .notStarted
  crash : Option Crash := none

/-- A time stamp is written to memory that is in use. -/
def State.record (state : State) (position : Fin 8) (value : Nat) : State :=
  match state.memory with
  | .live => { state with tsArray := Function.update state.tsArray position value }
  | .freed => { state with crash := some .freedArray }
  | .unset | .null => { state with crash := some .nullArray }

/-- One statement of `timing_init`, whose calls succeed. -/
def State.initStep (state : State) : Option State :=
  match state.init with
  | .kmalloc => some { state with memory := .live, init := .clear }
  -- the loop runs while there is no other thread
  | .clear => some (match state.memory with
      | .live => { state with tsArray := fun _ => 0, init := .tsArray0 }
      | _ => { state with crash := some .nullArray })
  | .tsArray0 => some ({ state with init := .kthreadCreate }.record 0 state.now)
  | .kthreadCreate => some { state with thread := .created, init := .tsArray1 }
  | .tsArray1 => some ({ state with init := .hrtimerStart }.record 1 state.now)
  | .hrtimerStart => some { state with ahrtimer := .armed (state.now + delay), init := .isErr }
  -- the timer has been started before the pointer is tested
  | .isErr => some { state with init := if state.thread = .absent then .failed else .tsArray2 }
  | .tsArray2 => some ({ state with init := .done }.record 2 state.now)
  | .done | .failed => none

/-- The call of `kmalloc` or of `kthread_create` fails. -/
def State.initFails (state : State) : Option State :=
  match state.init with
  | .kmalloc => some { state with memory := .null, init := .clear }
  | .kthreadCreate => some { state with init := .tsArray1 }
  | _ => none

/-- A wake-up follows the pointer `kthread`, which is an error code when the thread was not created. -/
def State.wakeUpProcess (state : State) : State :=
  match state.thread with
  | .absent => { state with crash := some .errorThread }
  | .exited _ => { state with crash := some .exitedThread }
  | pc => { state with thread := pc.wake }

/-- One statement of `timer_function`. -/
def State.timerStep (state : State) : Option State :=
  match state.ahrtimer with
  | .off | .done => none
  | .armed expiry => if expiry ≤ state.now then some { state with ahrtimer := .tsArray } else none
  | .tsArray => some ({ state with ahrtimer := .wake }.record 3 state.now)
  | .wake => some { state with ahrtimer := .done }.wakeUpProcess

/-- One statement of `child_timer_function`. -/
def State.childTimerStep (state : State) : Option State :=
  match state.childtimer with
  | .off | .done => none
  | .armed expiry => if expiry ≤ state.now then some { state with childtimer := .tsArray } else none
  | .tsArray => some ({ state with childtimer := .wake }.record 6 state.now)
  | .wake => some { state with childtimer := .done }.wakeUpProcess

/-- One statement of `thread_fn`, whose call of `kthread_create` succeeds. -/
def State.threadStep (state : State) : Option State :=
  match state.thread with
  | .absent | .created | .schedule .asleep | .scheduleAgain .asleep | .exited _ => none
  -- `kthread()` calls the thread function only while the thread is not stopped
  | .kthread => some { state with thread := if state.shouldStop then .exited false else .tsArray4 }
  | .tsArray4 => some ({ state with thread := .setCurrentState }.record 4 state.now)
  | .setCurrentState => some { state with thread := .schedule .interruptible }
  | .schedule .interruptible => some { state with thread := .schedule .asleep }
  | .schedule .running => some { state with thread := .tsArray5 }
  | .tsArray5 => some ({ state with thread := .kthreadCreate }.record 5 state.now)
  | .kthreadCreate => some { state with child := .created, childKthread := true, thread := .kthreadBind }
  -- the pointer is followed without a test
  | .kthreadBind => some (if state.child = .absent then { state with crash := some .errorThread }
      else { state with thread := .wakeChild })
  | .wakeChild => some { state with child := state.child.wake, thread := .hrtimerStart }
  | .hrtimerStart => some { state with
      childtimer := .armed (state.now + delay), thread := .setCurrentStateAgain }
  | .setCurrentStateAgain => some { state with thread := .scheduleAgain .interruptible }
  | .scheduleAgain .interruptible => some { state with thread := .scheduleAgain .asleep }
  | .scheduleAgain .running => some { state with thread := .tsArray7 }
  | .tsArray7 => some ({ state with thread := .exited true }.record 7 state.now)

/-- The call of `kthread_create` in `thread_fn` fails. -/
def State.threadFails (state : State) : Option State :=
  match state.thread with
  | .kthreadCreate => some { state with childKthread := true, thread := .kthreadBind }
  | _ => none

/-- One statement of `child_thread_fn`. -/
def State.childStep (state : State) : Option State :=
  match state.child with
  | .absent | .created | .exited => none
  | .kthread => some { state with child := if state.childShouldStop then .exited else .loop 0 }
  | .loop i => some { state with child := if i < childIterations then .loop (i + 1) else .exited }

/-- A handler that has begun has not returned. -/
def Timer.running : Timer → Bool
  | .tsArray | .wake => true
  | .off | .armed _ | .done => false

/-- One statement of `timing_exit`. A cancel waits for the handler. -/
def State.exitStep (state : State) : Option State :=
  match state.exit with
  | .notStarted => if state.init = .done then some { state with exit := .stop } else none
  | .stop => some (match state.thread with
      | .exited _ => { state with crash := some .exitedThread }
      | _ => { state with shouldStop := true, stopped := state.now, exit := .wake })
  | .wake => some { state with thread := state.thread.wake, exit := .join }
  | .join => match state.thread with
      | .exited _ => some { state with exit := .stopChild }
      | _ => none
  | .stopChild => some (if state.childKthread then
      -- a thread that has returned on its own is gone
      if state.child = .exited then { state with crash := some .exitedThread }
      else { state with childShouldStop := true, exit := .wakeChild }
      else { state with crash := some .nullThread })
  | .wakeChild => some { state with child := state.child.wake, exit := .joinChild }
  | .joinChild => if state.child = .exited then some { state with exit := .cancel } else none
  | .cancel => if state.ahrtimer.running then none
      else some { state with ahrtimer := .off, exit := .cancelChild }
  | .cancelChild => if state.childtimer.running then none
      else some { state with childtimer := .off, exit := .kfree }
  | .kfree => some (match state.memory with
      | .freed => { state with crash := some .freedArray }
      | _ => { state with memory := .freed, exit := .returned })
  | .returned => none

/-- The scheduler chooses any of these labels. -/
inductive Event where
  | init
  | initFails
  | timer
  | childTimer
  | thread
  | threadFails
  | child
  | exit
  | tick (duration : Nat)
  deriving DecidableEq

/-- Nothing is said about what happens after a wrong use of a pointer. -/
def State.step (state : State) (event : Event) : Option State :=
  if state.crash.isSome then none
  else match event with
    | .init => state.initStep
    | .initFails => state.initFails
    | .timer => state.timerStep
    | .childTimer => state.childTimerStep
    | .thread => state.threadStep
    | .threadFails => state.threadFails
    | .child => state.childStep
    | .exit => state.exitStep
    | .tick duration => some { state with now := state.now + duration }

/-- The module is loaded at some time. -/
def timing : Machine State Event where
  start state := ∃ now, state = { now }
  step := State.step

end KernelStudio.TimingModule
