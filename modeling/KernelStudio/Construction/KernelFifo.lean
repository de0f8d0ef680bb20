/-
This file models the callers of `fifo_read` and `fifo_write` and the two threads of the FIFO module.
A call of kfifo copies bytes at one of its indices in one step and advances the index in another.
-/

import KernelStudio.Library.RingBuffer
import KernelStudio.Library.Transition
import Mathlib.Logic.Function.Basic

namespace KernelStudio.KernelFifo

open RingBuffer Transition

/-- The constant `FIFO_SIZE`. -/
def fifoSize : Nat := 1024

/-- The constant `BUF_SIZE`. -/
def bufSize : Nat := 128

/-- The indices and lengths of kfifo are 32 bits wide. -/
def indexRange : Nat := 2 ^ 32

/-- A byte of the FIFO with its number among the bytes of the completed writes. -/
structure Cell where
  byte : UInt8 := 0
  number : Option Nat := none
  deriving DecidableEq

inductive Consumer where
  | process (i : Nat)
  | readThread
  deriving DecidableEq

inductive Producer where
  | process (i : Nat)
  | writeThread
  deriving DecidableEq

/-- Each constructor names the next statement of `fifo_read`.
The position `advance` lies inside `kfifo_to_user`, which has copied the cells. -/
inductive ReadPc where
  | idle
  | mutexLock (count : Nat)
  | kfifoToUser (count : Nat)
  | advance (cells : List Cell) (ret : Int)
  | mutexUnlock (value : Int)
  | returned (value : Int)
  deriving DecidableEq

/-- Each constructor names the next statement of `fifo_write`. -/
inductive WritePc where
  | idle
  | mutexLock (bytes : List UInt8)
  | kfifoFromUser (bytes : List UInt8)
  | advance (cells : List Cell) (ret : Int)
  | mutexUnlock (value : Int)
  | returned (value : Int)
  deriving DecidableEq

/-- Each constructor names the next statement of `read_thread_fn`. -/
inductive ReadThreadPc where
  | kthread
  | kthreadShouldStop
  | kfifoOut
  | advance (cells : List Cell)
  | schedule
  | returned (status : Int)
  deriving DecidableEq

/-- Each constructor names the next statement of `write_thread_fn`. -/
inductive WriteThreadPc where
  | kthread
  | filpOpen
  | kernelWrite
  | kthreadShouldStop
  | schedule
  | filpClose
  | returned (status : Int)
  | oops
  deriving DecidableEq

/-- A completed read with the cells that it took. -/
structure Delivery where
  consumer : Consumer
  cells : List Cell
  deriving DecidableEq

/-- The FIFO, the two locks and the positions of all callers.
The lists `accepted` and `delivered` record the completed writes and reads. -/
structure State where
  fifo : Buffer Cell := { data := fun _ => {} }
  readLock : Option Nat := none
  writeLock : Option Producer := none
  reader : Nat → ReadPc := fun _ => .idle
  writer : Producer → WritePc := fun _ => .idle
  readThread : ReadThreadPc := .kthread
  writeThread : WriteThreadPc := .kthread
  readStop : Bool := false
  writeStop : Bool := false
  accepted : List Cell := []
  delivered : List Delivery := []

def State.setReader (state : State) (i : Nat) (pc : ReadPc) : State :=
  { state with reader := Function.update state.reader i pc }

def State.setWriter (state : State) (producer : Producer) (pc : WritePc) : State :=
  { state with writer := Function.update state.writer producer pc }

/-- The number of bytes that a read of this length takes. -/
def State.readLength (state : State) (count : Nat) : Nat := min (count % indexRange) (state.fifo.used indexRange)

/-- The number of bytes that a write of this length puts. -/
def State.writeLength (state : State) (count : Nat) : Nat :=
  min (count % indexRange) (state.fifo.unused fifoSize indexRange)

/-- The cells that a read of this length copies. -/
def State.copyOut (state : State) (length : Nat) : List Cell := state.fifo.peek fifoSize length

/-- The cells that a write copies for its bytes. -/
def State.copyIn (state : State) (bytes : List UInt8) : List Cell :=
  bytes.mapIdx fun k byte => { byte, number := some (state.accepted.length + k) }

/-- A read advances the index `out`. -/
def State.advanceOut (state : State) (consumer : Consumer) (cells : List Cell) : State :=
  { state with
    fifo := state.fifo.skip indexRange cells.length
    delivered := state.delivered ++ [⟨consumer, cells⟩] }

/-- A write advances the index `in`. -/
def State.advanceIn (state : State) (cells : List Cell) : State :=
  { state with fifo := state.fifo.push indexRange cells.length, accepted := state.accepted ++ cells }

/-- The value of the last statement of `fifo_read` and `fifo_write`. -/
def result (ret : Int) (copied : Nat) : Int := if ret ≠ 0 then ret else copied

/-- One statement of a process in `fifo_read`. -/
def State.fifoRead (state : State) (i : Nat) : Option State :=
  match state.reader i with
  | .mutexLock count => if state.readLock = none then
      some { state.setReader i (.kfifoToUser count) with readLock := some i } else none
  | .kfifoToUser count => some (state.setReader i (.advance (state.copyOut (state.readLength count)) 0))
  | .advance cells ret => some ((state.setReader i (.mutexUnlock (result ret cells.length))).advanceOut
      (.process i) cells)
  | .mutexUnlock value => some { state.setReader i (.returned value) with readLock := none }
  | .idle | .returned _ => none

/-- The copy to the buffer of the process fails after some bytes. -/
def State.faultRead (state : State) (i transferred : Nat) : Option State :=
  match state.reader i with
  | .kfifoToUser count => if transferred < state.readLength count then
      some (state.setReader i (.advance (state.copyOut transferred) (-14))) else none
  | _ => none

/-- A write has copied some of its bytes. -/
def State.written (state : State) (producer : Producer) (bytes : List UInt8) (ret : Int) : State :=
  { state.setWriter producer (.advance (state.copyIn bytes) ret) with
    fifo := state.fifo.store fifoSize (state.copyIn bytes) }

/-- One statement of a process or of the write thread in `fifo_write`. -/
def State.fifoWrite (state : State) (producer : Producer) : Option State :=
  match state.writer producer with
  | .mutexLock bytes => if state.writeLock = none then
      some { state.setWriter producer (.kfifoFromUser bytes) with writeLock := some producer } else none
  | .kfifoFromUser bytes => some (state.written producer (bytes.take (state.writeLength bytes.length)) 0)
  | .advance cells ret =>
      some ((state.setWriter producer (.mutexUnlock (result ret cells.length))).advanceIn cells)
  | .mutexUnlock value => some { state.setWriter producer (.returned value) with writeLock := none }
  | .idle | .returned _ => none

/-- The copy from the buffer of the caller fails after some bytes. -/
def State.faultWrite (state : State) (producer : Producer) (transferred : Nat) : Option State :=
  match state.writer producer with
  | .kfifoFromUser bytes => if transferred < state.writeLength bytes.length then
      some (state.written producer (bytes.take transferred) (-14)) else none
  | _ => none

/-- One statement of `read_thread_fn`. It calls `kfifo_out` without a lock. -/
def State.readThreadFn (state : State) : Option State :=
  match state.readThread with
  -- `kthread()` runs the thread function only while the thread is not stopped
  | .kthread => some { state with readThread := if state.readStop then .returned (-4) else .kthreadShouldStop }
  | .kthreadShouldStop => some { state with readThread := if state.readStop then .returned 0 else .kfifoOut }
  | .kfifoOut => some { state with readThread := .advance (state.copyOut (state.readLength bufSize)) }
  | .advance cells => some ({ state with readThread := .schedule }.advanceOut .readThread cells)
  | .schedule => some { state with readThread := .kthreadShouldStop }
  | .returned _ => none

/-- The bytes that `write_thread_fn` writes. -/
def writeIntoFifo : List UInt8 := "write into fifo".toList.map fun char => UInt8.ofNat char.toNat

/-- One statement of `write_thread_fn`, which waits in `kernel_write` until its `fifo_write` has returned. -/
def State.writeThreadFn (state : State) : Option State :=
  match state.writeThread with
  | .kthread => some { state with writeThread := if state.writeStop then .returned (-4) else .filpOpen }
  | .filpOpen => some { state with writeThread := .kernelWrite }
  | .kernelWrite => match state.writer .writeThread with
      | .idle => some (state.setWriter .writeThread (.mutexLock writeIntoFifo))
      | .returned _ => some { state with writeThread := .kthreadShouldStop }
      | _ => none
  | .kthreadShouldStop => some { state with writeThread := if state.writeStop then .filpClose else .schedule }
  | .schedule => some { state with writeThread := .kthreadShouldStop }
  | .filpClose => some { state with writeThread := .returned 0 }
  | .returned _ | .oops => none

/-- The call `filp_open` fails, and `kernel_write` follows the error pointer. -/
def State.filpOpenFails (state : State) : Option State :=
  match state.writeThread with
  | .filpOpen => some { state with writeThread := .oops }
  | _ => none

/-- The scheduler and the processes choose any of these labels. A signal interrupts the wait for a mutex. -/
inductive Event where
  | readThread
  | writeThread
  | filpOpenFails
  | stopRead
  | stopWrite
  | callRead (i count : Nat)
  | read (i : Nat)
  | faultRead (i transferred : Nat)
  | signalRead (i : Nat)
  | callWrite (i : Nat) (bytes : List UInt8)
  | write (producer : Producer)
  | faultWrite (producer : Producer) (transferred : Nat)
  | signalWrite (i : Nat)
  deriving DecidableEq

def State.step (state : State) : Event → Option State
  | .readThread => state.readThreadFn
  | .writeThread => state.writeThreadFn
  | .filpOpenFails => state.filpOpenFails
  | .stopRead => some { state with readStop := true }
  | .stopWrite => some { state with writeStop := true }
  | .callRead i count => match state.reader i with
      | .idle | .returned _ => some (state.setReader i (.mutexLock count))
      | _ => none
  | .read i => state.fifoRead i
  | .faultRead i transferred => state.faultRead i transferred
  | .signalRead i => match state.reader i with
      | .mutexLock _ => some (state.setReader i (.returned (-512)))
      | _ => none
  | .callWrite i bytes => match state.writer (.process i) with
      | .idle | .returned _ => some (state.setWriter (.process i) (.mutexLock bytes))
      | _ => none
  | .write producer => state.fifoWrite producer
  | .faultWrite producer transferred => state.faultWrite producer transferred
  | .signalWrite i => match state.writer (.process i) with
      | .mutexLock _ => some (state.setWriter (.process i) (.returned (-512)))
      | _ => none

/-- This machine starts with an empty FIFO, the two threads and any number of processes. -/
def kernelFifo : Machine State Event where
  start state := state = {}
  step := State.step

end KernelStudio.KernelFifo
