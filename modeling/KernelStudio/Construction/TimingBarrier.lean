/-
This file models the four threads of the barrier experiment and the loops of `timing_exit` that sort their time stamps.
The threads read their numbers before the frame of `timing_init` is gone, and none of them is stopped before its first
statement, in place of which `kthread()` would return.
-/

import KernelStudio.Library.Transition
import Mathlib.Data.Int.Order.Basic
import Mathlib.Logic.Function.Basic

namespace KernelStudio.TimingBarrier

open Transition

/-- Each constructor names the next statement of `thread_fn`, the last two inside `wait`. -/
inductive Pc where
  | firstStamp
  | printk
  | secondStamp
  | atomicSub
  | atomicRead
  | returned
  deriving DecidableEq

/-- The thread has entered `wait`. -/
def Pc.entered : Pc → Bool
  | .firstStamp | .printk | .secondStamp => false
  | .atomicSub | .atomicRead | .returned => true

/-- The loop that looks for the latest first stamp, with `ktime_after` as the order of the stamps. -/
def lastArrival (tsArray : Nat → Int) : Int :=
  (List.range 4).foldl (fun latest i => if tsArray (i * 2) > latest then tsArray (i * 2) else latest) (tsArray 0)

/-- The array before the sort: the latest first stamp and the second stamps. -/
def loaded (tsArray : Nat → Int) (k : Nat) : Int := if k = 0 then lastArrival tsArray else tsArray ((k - 1) * 2 + 1)

/-- The body of the inner loop compares `array[j]` with `array[j+1]` and exchanges it with `array[i]`. -/
def exchange (i : Nat) (array : Nat → Int) (j : Nat) : Nat → Int :=
  if array j > array (j + 1) then
    let tmp := array i
    Function.update (Function.update array i (array j)) j tmp
  else array

/-- The inner loop. -/
def exchanges (array : Nat → Int) (i : Nat) : Nat → Int := (List.range' 1 (i - 1)).foldl (exchange i) array

/-- The array after the loops of `timing_exit`. -/
def exitArray (tsArray : Nat → Int) : Nat → Int := [4, 3, 2, 1].foldl exchanges (loaded tsArray)

/-- The value of `ktime_us_delta`, for stamps in nanoseconds. -/
def ktimeUsDelta (later earlier : Int) : Int := (later - earlier).tdiv 1000

/-- The four values that `timing_exit` prints. -/
def printed (array : Nat → Int) : List Int := [1, 2, 3, 4].map fun k => ktimeUsDelta (array 0) (array k)

/-- The record `departed` says for a second stamp whether all threads had entered `wait` when it was taken. -/
structure State where
  now : Int
  counter : Int := 4
  tsArray : Nat → Int := fun _ => 0
  pc : Fin 4 → Pc := fun _ => .firstStamp
  departed : Fin 4 → Option Bool := fun _ => none
  array : Option (Nat → Int) := none

/-- The scheduler chooses a thread, the clock advances, or the module is unloaded. -/
inductive Event where
  | thread (t : Fin 4)
  | tick (duration : Nat)
  | exit
  deriving DecidableEq

def State.goto (state : State) (t : Fin 4) (pc : Pc) : State := { state with pc := Function.update state.pc t pc }

/-- One statement of `thread_fn`. -/
def threadFn (state : State) (t : Fin 4) : Option State :=
  match state.pc t with
  | .firstStamp =>
      some ({ state with tsArray := Function.update state.tsArray (t.val * 2) state.now }.goto t .printk)
  | .printk => some (state.goto t .secondStamp)
  | .secondStamp => some ({ state with
      tsArray := Function.update state.tsArray (t.val * 2 + 1) state.now
      departed := Function.update state.departed t (some (decide (∀ u, (state.pc u).entered = true))) }.goto t
        .atomicSub)
  | .atomicSub => some ({ state with counter := state.counter - 1 }.goto t .atomicRead)
  | .atomicRead => some (if state.counter = 0 then state.goto t .returned else state)
  | .returned => none

/-- The calls of `kthread_stop` wait for the threads, so the loops of `timing_exit` run when all have returned. -/
def timingExit (state : State) : Option State :=
  if state.array = none ∧ ∀ t, state.pc t = .returned then
    some { state with array := some (exitArray state.tsArray) }
  else none

def State.step (state : State) : Event → Option State
  | .thread t => threadFn state t
  | .tick duration => some { state with now := state.now + duration }
  | .exit => timingExit state

/-- The module after `timing_init`, which starts all threads at its end. -/
def timing : Machine State Event where
  start state := ∃ now, state = { now }
  step := State.step

end KernelStudio.TimingBarrier
