/-
This file models the messages of the client and the connection threads of the server.
All connection threads share the static buffer `buf`, which each thread clears, fills and logs in separate steps.
-/

import KernelStudio.Library.Framing
import KernelStudio.Library.Transition
import Mathlib.Logic.Function.Basic

namespace KernelStudio.TcpServer

open Transition

/-- The constant `BUF_SIZE` of both modules. -/
def bufSize : Nat := 1024

/-- A string that fits the buffer of the client with its terminating zero. -/
structure Message where
  bytes : List UInt8
  terminated : 0 ∉ bytes
  fits : bytes.length < bufSize

/-- The client clears its buffer, copies the string into it and sends the whole buffer with `ktcp_send`. -/
def ktcpSend (message : Message) : List UInt8 := Framing.frame 0 bufSize message.bytes

/-- A receipt names the connection thread and counts its calls of `kernel_recvmsg`. -/
structure Receipt where
  thread : Nat
  count : Nat
  deriving DecidableEq

/-- A byte of memory with the receipt that has put it there. -/
structure Cell where
  byte : UInt8 := 0
  receipt : Option Receipt := none
  deriving DecidableEq

/-- The buffer after `memset`. -/
def memset : List Cell := List.replicate bufSize {}

/-- The bytes of a chunk in memory. -/
def receivedCells (receipt : Receipt) (chunk : List UInt8) : List Cell :=
  chunk.map fun byte => { byte, receipt := some receipt }

/-- The buffer after `kernel_recvmsg` has copied a chunk to its start. -/
def kernelRecvmsg (buf : List Cell) (receipt : Receipt) (chunk : List UInt8) : List Cell :=
  receivedCells receipt chunk ++ buf.drop chunk.length

/-- The memory from the start of the buffer. The list `beyond` holds the bytes that follow the buffer. -/
def memory (beyond : List UInt8) (buf : List Cell) : List Cell := buf ++ beyond.map fun byte => { byte := byte }

/-- The format `%s` shows the memory up to the first zero byte. -/
def shown (beyond : List UInt8) (buf : List Cell) : List Cell :=
  (memory beyond buf).takeWhile fun cell => cell.byte ≠ 0

/-- Each constructor names the next statement of a connection thread, which has received a chunk or is about to. -/
inductive ConnectionPc where
  | memset
  | kernelRecvmsg
  | log (chunk : List UInt8)
  | ended
  deriving DecidableEq

/-- A line shows what a thread found in the buffer after one of its receipts.
It is the string that the thread passes to `printk`, whose own limit on the length of a line is left out. -/
structure Line where
  receipt : Receipt
  cells : List Cell
  deriving DecidableEq

structure Connection where
  pc : ConnectionPc := .memset
  count : Nat := 0
  deriving DecidableEq

structure Connections where
  buf : List Cell := memset
  thread : Nat → Connection := fun _ => {}
  log : List Line := []

def Connections.set (state : Connections) (i : Nat) (cur : Connection) : Connections :=
  { state with thread := Function.update state.thread i cur }

/-- The scheduler chooses a thread, and the network chooses what `kernel_recvmsg` returns to it.
An empty chunk means that the peer has closed the connection. -/
inductive ConnectionEvent where
  | clear (i : Nat)
  | receive (i : Nat) (chunk : List UInt8)
  | receiveFails (i : Nat)
  | log (i : Nat)
  deriving DecidableEq

/-- One statement of `connection_threadfn` and the `ktcp_recv` that it calls. -/
def Connections.step (beyond : List UInt8) (state : Connections) : ConnectionEvent → Option Connections
  | .clear i => match (state.thread i).pc with
      | .memset => some { state.set i { state.thread i with pc := .kernelRecvmsg } with buf := memset }
      | _ => none
  | .receive i chunk => match (state.thread i).pc with
      | .kernelRecvmsg => if chunk.length ≤ bufSize then
          let count := (state.thread i).count + 1
          some { state.set i { pc := .log chunk, count } with buf := kernelRecvmsg state.buf ⟨i, count⟩ chunk }
          else none
      | _ => none
  -- a negative result is not logged, and the loop goes on
  | .receiveFails i => match (state.thread i).pc with
      | .kernelRecvmsg => some (state.set i { state.thread i with pc := .memset })
      | _ => none
  | .log i => match (state.thread i).pc with
      | .log chunk =>
          some { state.set i { state.thread i with pc := if chunk = [] then .ended else .memset } with
            log := state.log ++ [⟨⟨i, (state.thread i).count⟩, shown beyond state.buf⟩] }
      | _ => none

/-- This machine runs any number of connection threads over one buffer. -/
def connectionThreads (beyond : List UInt8) : Machine Connections ConnectionEvent where
  start state := state = {}
  step := Connections.step beyond

/-- The steps of a connection thread whose calls of `kernel_recvmsg` return these chunks. -/
def connectionThreadfn (i : Nat) (chunks : List (List UInt8)) : List ConnectionEvent :=
  chunks.flatMap fun chunk => [.clear i, .receive i chunk, .log i]

/-- The nonempty strings of a log. -/
def strings (log : List Line) : List (List UInt8) :=
  (log.map fun line => line.cells.map Cell.byte).filter (· ≠ [])

end KernelStudio.TcpServer
