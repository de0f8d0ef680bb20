/-
This file models the interfering module: one thread that a periodic timer wakes, or that never sleeps when the parameter
`period` is zero. The parameters can be written while the module is loaded.
-/

import KernelStudio.Library.Kthread
import KernelStudio.Library.Transition

namespace KernelStudio.Interfering

open Kthread Transition

/-- The interval `ktime_set(0, period * 1000000)`, whose product has the 32 bits of an `unsigned long`. -/
def ktimeSet (period : BitVec 32) : Nat := (period * 1000000#32).toNat

/-- The timer with the statement that its handler has come to. -/
inductive Timer where
  | off
  | armed (expiry : Nat)
  | wake (expiry : Nat)
  | forward (expiry : Nat)
  deriving DecidableEq

/-- The positions of `interfering_init`. -/
inductive InitPc where
  | inputPolicy
  | create
  | isErr
  | wake
  | start
  | done
  | failed
  deriving DecidableEq

/-- The positions of `interfering_exit`. The call `kthread_stop` sets the flag, wakes the thread and joins it. -/
inductive ExitPc where
  | notStarted
  | cancel
  | stop
  | wake
  | join
  | returned
  deriving DecidableEq

/-- The fields `started` and `fired` record when the timer was started and how often it has expired. -/
structure State where
  now : Nat
  period : BitVec 32
  numIter : BitVec 32
  inputPolicy : BitVec 32
  kt : Nat
  thread : Thread := {}
  timer : Timer := .off
  init : InitPc := .inputPolicy
  exit : ExitPc := .notStarted
  started : Nat := 0
  fired : Nat := 0

/-- One statement of `interfering_init`, whose call of `kthread_create` succeeds. -/
def State.initStep (state : State) : Option State :=
  match state.init with
  | .inputPolicy => some { state with init := if state.inputPolicy.toNat ≤ 2 then .create else .failed }
  | .create => some { state with thread := state.thread.create, init := .isErr }
  | .isErr => some { state with init := if state.thread.pc = .absent then .failed else .wake }
  | .wake => some { state with thread := state.thread.wakeUpProcess, init := .start }
  | .start => some { state with timer := .armed (state.now + state.kt), started := state.now, init := .done }
  | .done | .failed => none

/-- The call of `kthread_create` returns an error code. -/
def State.createFails (state : State) : Option State :=
  match state.init with
  | .create => some { state with init := .isErr }
  | _ => none

/-- One statement of `timer_function`, which restarts its timer. -/
def State.timerStep (state : State) : Option State :=
  match state.timer with
  | .off => none
  | .armed expiry => if expiry ≤ state.now then
      some { state with timer := .wake expiry, fired := state.fired + 1 } else none
  | .wake expiry => some { state with thread := state.thread.wakeUpProcess, timer := .forward expiry }
  | .forward expiry => some { state with timer := .armed (hrtimerForward state.now expiry state.kt) }

/-- One statement of `interfering_exit`. The cancel of the timer waits for its handler. -/
def State.exitStep (state : State) : Option State :=
  match state.exit with
  | .notStarted => if state.init = .done then some { state with exit := .cancel } else none
  | .cancel => match state.timer with
      | .off | .armed _ => some { state with timer := .off, exit := .stop }
      | .wake _ | .forward _ => none
  | .stop => some { state with thread := { state.thread with shouldStop := true }, exit := .wake }
  | .wake => some { state with thread := state.thread.wakeUpProcess, exit := .join }
  | .join => if state.thread.pc = .exited then some { state with exit := .returned } else none
  | .returned => none

/-- The test of `period` in the body of `thread_fn`. -/
def State.sleeps (state : State) : Bool := state.period ≠ 0

/-- The scheduler and the writers of the parameters choose any of these labels. -/
inductive Event where
  | init
  | createFails
  | timer
  | exit
  | thread
  | writePeriod (value : BitVec 32)
  | writeNumIter (value : BitVec 32)
  | tick (duration : Nat)
  deriving DecidableEq

def State.step (state : State) : Event → Option State
  | .init => state.initStep
  | .createFails => state.createFails
  | .timer => state.timerStep
  | .exit => state.exitStep
  -- the loop of `task_fn` reads `numIter` in front of each iteration
  | .thread => (state.thread.run state.sleeps state.numIter.toNat state.now).map fun thread => { state with thread }
  | .writePeriod value => some { state with period := value }
  | .writeNumIter value => some { state with numIter := value }
  | .tick duration => some { state with now := state.now + duration }

/-- The module is loaded with this period, from which `interfering_init` has computed the interval. -/
def interfering (period : BitVec 32) : Machine State Event where
  start state := ∃ now numIter inputPolicy, state = { now, period, numIter, inputPolicy, kt := ktimeSet period }
  step := State.step

end KernelStudio.Interfering
