/-
This file models the realtime module: three threads that share a work function and one periodic timer that wakes them
at harmonic rates. Each label executes one statement or lets time pass, so a run is any interleaving.
-/

import KernelStudio.Library.Kthread
import KernelStudio.Library.Transition
import Mathlib.Data.Fin.VecNotation
import Mathlib.Logic.Function.Basic

namespace KernelStudio.Realtime

open Kthread Transition

/-- The iterations of the work loop, which the threads `kthread`, `kthread1` and `kthread2` receive. -/
def data : Fin 3 → Nat := ![4500000, 18000000, 36000000]

/-- The thread that the functions of the module turn to next. -/
def following : Fin 3 → Option (Fin 3)
  | 0 => some 1
  | 1 => some 2
  | 2 => none

/-- The timer with the statement that its handler has come to. -/
inductive Timer where
  | off
  | armed (expiry : Nat)
  | wake (j : Fin 3) (expiry : Nat)
  | rate (expiry : Nat)
  | forward (expiry : Nat)
  deriving DecidableEq

/-- The positions of `realtime_init`. -/
inductive InitPc where
  | create (j : Fin 3)
  | bind (j : Fin 3)
  | isErr (j : Fin 3)
  | wake (j : Fin 3)
  | start
  | done
  | failed
  deriving DecidableEq

/-- The positions of `realtime_exit`. The call `kthread_stop` sets the flag, wakes the thread and joins it. -/
inductive ExitPc where
  | notStarted
  | cancel
  | stop (j : Fin 3)
  | wake (j : Fin 3)
  | join (j : Fin 3)
  | returned
  deriving DecidableEq

/-- The fields `started` and `fired` record when the timer was started and how often it has expired. -/
structure State where
  now : Nat
  thread : Fin 3 → Thread := fun _ => {}
  rate : BitVec 32 := 0
  timer : Timer := .off
  init : InitPc := .create 0
  exit : ExitPc := .notStarted
  started : Nat := 0
  fired : Nat := 0
  /-- The module has used an error code as a pointer. -/
  crashed : Bool := false

def State.set (state : State) (j : Fin 3) (cur : Thread) : State :=
  { state with thread := Function.update state.thread j cur }

def State.wakeUpProcess (state : State) (j : Fin 3) : State := state.set j (state.thread j).wakeUpProcess

/-- The test of `timer_function` in front of each call of `wake_up_process`. -/
def due (rate : BitVec 32) : Fin 3 → Bool
  | 0 => true
  | 1 => rate % 2 = 0
  | 2 => rate % 4 = 0

/-- One statement of `realtime_init`, whose calls of `kthread_create` succeed. -/
def State.initStep (kt : Nat) (state : State) : Option State :=
  match state.init with
  | .create j => some ({ state with init := .bind j }.set j (state.thread j).create)
  -- `kthread_bind` and `sched_setscheduler` follow the pointer before it is tested
  | .bind j => some (if (state.thread j).pc = .absent then { state with crashed := true }
      else { state with init := .isErr j })
  | .isErr j => some { state with init := if (state.thread j).pc = .absent then .failed else .wake j }
  | .wake j => some ({ state with init := (following j).elim .start .create }.wakeUpProcess j)
  | .start => some { state with timer := .armed (state.now + kt), started := state.now, init := .done }
  | .done | .failed => none

/-- The call of `kthread_create` returns an error code. -/
def State.createFails (state : State) : Option State :=
  match state.init with
  | .create j => some { state with init := .bind j }
  | _ => none

/-- One statement of `timer_function`, which the timer calls when it expires and which restarts the timer. -/
def State.timerStep (kt : Nat) (state : State) : Option State :=
  match state.timer with
  | .off => none
  | .armed expiry => if expiry ≤ state.now then
      some { state with timer := .wake 0 expiry, fired := state.fired + 1 } else none
  | .wake j expiry =>
      let next := { state with timer := (following j).elim (.rate expiry) fun k => .wake k expiry }
      some (if due state.rate j then next.wakeUpProcess j else next)
  | .rate expiry => some { state with rate := state.rate + 1, timer := .forward expiry }
  | .forward expiry => some { state with timer := .armed (hrtimerForward state.now expiry kt) }

/-- One statement of `realtime_exit`. The cancel of the timer waits for its handler. -/
def State.exitStep (state : State) : Option State :=
  match state.exit with
  | .notStarted => if state.init = .done then some { state with exit := .cancel } else none
  | .cancel => match state.timer with
      | .off | .armed _ => some { state with timer := .off, exit := .stop 0 }
      | .wake _ _ | .rate _ | .forward _ => none
  | .stop j => some ({ state with exit := .wake j }.set j { state.thread j with shouldStop := true })
  | .wake j => some ({ state with exit := .join j }.wakeUpProcess j)
  | .join j => if (state.thread j).pc = .exited then
      some { state with exit := (following j).elim .returned .stop } else none
  | .returned => none

/-- The scheduler chooses any of these labels. -/
inductive Event where
  | init
  | createFails
  | timer
  | exit
  | thread (j : Fin 3)
  | tick (duration : Nat)
  deriving DecidableEq

def State.step (kt : Nat) (state : State) (event : Event) : Option State :=
  if state.crashed then none
  else match event with
    | .init => state.initStep kt
    | .createFails => state.createFails
    | .timer => state.timerStep kt
    | .exit => state.exitStep
    -- the three threads execute `thread_fn`, which sleeps in each round
    | .thread j => ((state.thread j).run true (data j) state.now).map (state.set j)
    | .tick duration => some { state with now := state.now + duration }

/-- The thread that a label passes to `wake_up_process`. -/
def State.wakes (state : State) : Event → Option (Fin 3)
  | .init => match state.init with
      | .wake j => some j
      | _ => none
  | .timer => match state.timer with
      | .wake j _ => if due state.rate j then some j else none
      | _ => none
  | .exit => match state.exit with
      | .wake j => some j
      | _ => none
  | .createFails | .thread _ | .tick _ => none

/-- The module is loaded at some time, for the interval that `ktime_set` returns for its parameters. -/
def realtime (kt : Nat) : Machine State Event where
  start state := ∃ now, state = { now }
  step := State.step kt

end KernelStudio.Realtime
