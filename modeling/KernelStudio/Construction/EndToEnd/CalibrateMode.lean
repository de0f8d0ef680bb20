/-
This file models the calibrate mode of the module as a machine over its threads and its start timer.
The plan holds what `E2E_init` has computed before it creates the threads.
-/

import KernelStudio.Construction.EndToEnd.Planner
import KernelStudio.Construction.EndToEnd.RunMode

namespace KernelStudio.EndToEnd

open Transition

namespace Plan

variable (plan : Plan)

/-- The index of the subtask at a position of `sub_ptr`. -/
def subtaskAt (position : Nat) : Nat := plan.subPtr.getD position 0

/-- The value of `(*cur)->core`. The last position of `sub_ptr` points to the sentinel. -/
def coreAt (position : Nat) : Nat :=
  if position < plan.header.subtaskTot then (plan.header.subtask (plan.subtaskAt position)).core else coreNum

/-- The duration that `calibrate` compares with, in the unsigned arithmetic of the 32-bit target. -/
def target (position : Nat) : Nat := u32 ((plan.header.subtask (plan.subtaskAt position)).exeTime * 1000000)

end Plan

namespace CalibrateMode

/-- Each constructor names the next statement of a calibrate thread. -/
inductive Pc where
  | unborn
  | created
  | kthread
  | core
  | setCurrentState
  | schedule (state : TaskState)
  | coreNum
  | whileCore
  | setScheduler
  | bounds
  | whileBounds
  | mid
  | startT
  | subtaskFunc
  | endT
  | compare
  | maxCnt
  | printk
  | next
  | exited
  deriving DecidableEq

/-- A wake-up acts on a new thread, on a marked thread and on a sleeping thread. -/
def Pc.wake : Pc → Pc
  | .created => .kthread
  | .schedule _ => .schedule .running
  | pc => pc

/-- The statements that dereference `cur`. -/
def Pc.dereferences : Pc → Bool
  | .core | .whileCore | .setScheduler | .mid | .subtaskFunc | .compare | .maxCnt | .printk => true
  | _ => false

/-- The locals of `calibrate`. The pointer `cur` is a position in `sub_ptr`. -/
structure Thread where
  pc : Pc := .unborn
  cur : Nat := 0
  core : Nat := 0
  minCnt : Nat := 0
  maxCnt : Nat := 0
  mid : Nat := 0
  startT : Nat := 0
  endT : Nat := 0

/-- The positions of the end of the calibrate branch of `E2E_init`. -/
inductive InitPc where
  | loop (i : Nat)
  | wake (i : Nat)
  | start
  | done
  deriving DecidableEq

/-- The positions of the calibrate branch of `E2E_exit`. -/
inductive ExitPc where
  | notStarted
  | tasks (k : Nat)
  | subtasks (i : Nat)
  | kfreeSentinel
  | kfreeSubPtr
  | cancelCal
  | returned
  deriving DecidableEq

/-- The first `kfree` of the unload has been called. -/
def ExitPc.freed : ExitPc → Bool
  | .kfreeSubPtr | .cancelCal | .returned => true
  | _ => false

/-- The lines `TASK_FIN` and `SUBTASK_FIN` with the index of the structure that they print. -/
inductive FinLine where
  | task (k : Nat) (task : Task)
  | subtask (i : Nat) (subtask : Subtask)
  deriving DecidableEq

/-- The record `result` holds the values that the binary searches have ended with. -/
structure State where
  now : Nat
  thread : Nat → Thread
  loopCount : Nat → Nat
  result : Nat → Option Nat
  init : InitPc
  exit : ExitPc
  calTimer : CalTimer
  lines : List FinLine

def State.set (state : State) (c : Nat) (cur : Thread) : State :=
  { state with thread := Function.update state.thread c cur }

/-- This is `wake_up_process` on a calibrate thread. -/
def State.wakeUpProcess (state : State) (c : Nat) : State :=
  state.set c { state.thread c with pc := (state.thread c).pc.wake }

/-- A statement writes to `loop_count` while it searches or when it has ended. -/
inductive Write where
  | none
  | probe (value : Nat)
  | final (value : Nat)

def State.write (state : State) (i : Nat) : Write → State
  | .none => state
  | .probe value => { state with loopCount := Function.update state.loopCount i value }
  | .final value => { state with
      loopCount := Function.update state.loopCount i value
      result := Function.update state.result i (some value) }

/-- One statement of the thread function `calibrate`, with its write to `loop_count`. -/
def calibrate (plan : Plan) (now : Nat) (cur : Thread) : Option (Thread × Write) :=
  match cur.pc with
  | .unborn | .created | .schedule .asleep | .exited => none
  | .kthread => some ({ cur with pc := .core }, .none)
  | .core => some ({ cur with core := plan.coreAt cur.cur, pc := .setCurrentState }, .none)
  | .setCurrentState => some ({ cur with pc := .schedule .interruptible }, .none)
  | .schedule .interruptible => some ({ cur with pc := .schedule .asleep }, .none)
  -- a wake-up since the mark lets `schedule()` return
  | .schedule .running => some ({ cur with pc := .coreNum }, .none)
  | .coreNum => some ({ cur with pc := if cur.core = coreNum then .exited else .whileCore }, .none)
  | .whileCore => some ({ cur with
      pc := if plan.coreAt cur.cur = cur.core then .setScheduler else .exited }, .none)
  | .setScheduler => some ({ cur with pc := .bounds }, .none)
  | .bounds => some ({ cur with minCnt := 0, maxCnt := 100000000, pc := .whileBounds }, .none)
  | .whileBounds => some ({ cur with pc := if cur.minCnt < cur.maxCnt then .mid else .maxCnt }, .none)
  | .mid =>
      let mid := u32 (cur.minCnt + cur.maxCnt) >>> 1
      some ({ cur with mid, pc := .startT }, .probe mid)
  | .startT => some ({ cur with startT := now, pc := .subtaskFunc }, .none)
  | .subtaskFunc => some ({ cur with pc := .endT }, .none)
  | .endT => some ({ cur with endT := now, pc := .compare }, .none)
  | .compare => some (if cur.startT + plan.target cur.cur ≤ cur.endT
      then { cur with maxCnt := cur.mid, pc := .whileBounds }
      else { cur with minCnt := u32 (cur.mid + 1), pc := .whileBounds }, .none)
  | .maxCnt => some ({ cur with pc := .printk }, .final cur.maxCnt)
  | .printk => some ({ cur with pc := .next }, .none)
  | .next => some ({ cur with cur := cur.cur + 1, pc := .whileCore }, .none)

/-- One step of the end of `E2E_init`, which creates a thread for each core and starts the timer. -/
def initStep (plan : Plan) (state : State) : Option State :=
  match state.init with
  | .loop i => some (if i < coreNum then
      { state with init := .wake i }.set i { pc := .created, cur := plan.startAddr i }
      else { state with init := .start })
  | .wake i => some ({ state with init := .loop (i + 1) }.wakeUpProcess i)
  | .start => some { state with calTimer := .armed (state.now + 100000000), init := .done }
  | .done => none

/-- One step of `cal_timer_func`, which wakes the threads of all cores in turn. -/
def calStep (state : State) : Option State :=
  match state.calTimer with
  | .off | .done => none
  | .armed expiry => if expiry ≤ state.now then some { state with calTimer := .running 0 } else none
  | .running k => some (if k < coreNum then { state with calTimer := .running (k + 1) }.wakeUpProcess k
      else { state with calTimer := .done })

/-- A subtask as it is printed, with the present value of its `loop_count`. -/
def State.subtask (plan : Plan) (state : State) (i : Nat) : Subtask :=
  { plan.header.subtask i with loopCount := state.loopCount i }

/-- One step of the calibrate branch of `E2E_exit`. It does not wait for the calibrate threads. -/
def exitStep (plan : Plan) (state : State) : Option State :=
  match state.exit with
  | .notStarted => if state.init = .done then some { state with exit := .tasks 0 } else none
  | .tasks k => some (if k < plan.header.taskTot then
      { state with lines := state.lines ++ [.task k (plan.header.task k)], exit := .tasks (k + 1) }
      else { state with exit := .subtasks 0 })
  | .subtasks i => some (if i < plan.header.subtaskTot then
      { state with lines := state.lines ++ [.subtask i (state.subtask plan i)], exit := .subtasks (i + 1) }
      else { state with exit := .kfreeSentinel })
  | .kfreeSentinel => some { state with exit := .kfreeSubPtr }
  | .kfreeSubPtr => some { state with exit := .cancelCal }
  -- the cancel of the start timer waits for its handler
  | .cancelCal => match state.calTimer with
      | .running _ => none
      | _ => some { state with calTimer := .off, exit := .returned }
  | .returned => none

/-- The scheduler chooses any of these labels. -/
inductive Event where
  | init
  | exit
  | cal
  | thread (c : Nat)
  | tick (duration : Nat)
  deriving DecidableEq

def step (plan : Plan) (state : State) : Event → Option State
  | .init => initStep plan state
  | .exit => exitStep plan state
  | .cal => calStep state
  | .thread c => (calibrate plan state.now (state.thread c)).map fun result =>
      (state.set c result.1).write (plan.subtaskAt (state.thread c).cur) result.2
  | .tick duration => some { state with now := state.now + duration }

/-- The loop counts of a new plan are those of the header. -/
def State.loaded (plan : Plan) (now : Nat) : State where
  now := now
  thread _ := {}
  loopCount i := (plan.header.subtask i).loopCount
  result _ := none
  init := .loop 0
  exit := .notStarted
  calTimer := .off
  lines := []

end CalibrateMode

open CalibrateMode in
/-- This is the calibrate-mode machine of a plan. -/
def Plan.calibrateMode (plan : Plan) : Machine CalibrateMode.State CalibrateMode.Event where
  start state := ∃ now, state = .loaded plan now
  step := CalibrateMode.step plan

end KernelStudio.EndToEnd
