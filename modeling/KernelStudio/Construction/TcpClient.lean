/-
This file models the TCP client module: its loading, the thread that sends one message, and its unloading.
-/

import KernelStudio.Construction.TcpServer.Connection
import KernelStudio.Library.Resource

namespace KernelStudio.TcpClient

open Resource Transition

/-- The string `"hello from client\n"`. -/
def hello : TcpServer.Message where
  bytes := [104, 101, 108, 108, 111, 32, 102, 114, 111, 109, 32, 99, 108, 105, 101, 110, 116, 10]
  terminated := by decide
  fits := by decide

/-- Each constructor names the next statement of `ktcp_client_init`. -/
inductive InitPc where
  | kthreadCreate
  | wakeUpProcess
  | returned
  | failed
  deriving DecidableEq

/-- Each constructor names the next statement of the thread. The positions `releaseUncreated` and `releaseUnconnected`
belong to the error paths and hold the error that the thread is going to return. -/
inductive ThreadPc where
  | absent
  | created
  | kthread
  | sockCreate
  | kernelConnect
  | memset
  | strcpy
  | ktcpSend
  | kthreadShouldStop
  | schedule
  | sockRelease
  | releaseUncreated (err : Int)
  | releaseUnconnected (err : Int)
  | exited (result : Int)
  deriving DecidableEq

/-- Each constructor names the next statement of `ktcp_client_exit`. -/
inductive ExitPc where
  | kthreadStop
  | wait
  | returned
  deriving DecidableEq

/-- The state of the module with the bytes that the connection has taken from it. -/
structure State where
  init : InitPc := .kthreadCreate
  thread : ThreadPc := .absent
  exit : ExitPc := .kthreadStop
  shouldStop : Bool := false
  sock : Pointer := .uninitialised
  ledger : Ledger Unit := {}
  buf : List UInt8 := List.replicate TcpServer.bufSize 0
  sent : List UInt8 := []
  /-- A task or a socket was used that does not exist any more. -/
  crashed : Bool := false

/-- The labels of the module. The thread waits in `kernel_connect` until the network answers, or the call fails. The
network chooses too how many bytes of the buffer a send takes. -/
inductive Event where
  | init
  | initFails
  | thread
  | threadFails (err : Int)
  | connect
  | send (count : Nat)
  | exit
  deriving DecidableEq

/-- The result of a thread that is stopped before it runs. -/
def eintr : Int := 4

/-- The thread has returned. -/
def ThreadPc.ended : ThreadPc → Bool
  | .exited _ => true
  | _ => false

/-- A statement that uses the socket. -/
def State.use (state next : State) : State :=
  if state.ledger.Matches () state.sock then next else { state with crashed := true }

/-- One statement of the thread that does not wait for the network, and whose call succeeds. -/
def State.run (state : State) : Option State :=
  match state.thread with
  -- `kthread()` does not run the thread function of a thread that is stopped already
  | .kthread => some { state with thread := if state.shouldStop then .exited (-eintr) else .sockCreate }
  | .sockCreate => some { state with
      thread := .kernelConnect, sock := state.ledger.fresh, ledger := state.ledger.obtain () }
  | .memset => some { state with thread := .strcpy, buf := List.replicate TcpServer.bufSize 0 }
  | .strcpy => some { state with
      thread := .ktcpSend, buf := hello.bytes ++ [0] ++ state.buf.drop (hello.bytes.length + 1) }
  | .kthreadShouldStop => some { state with thread := if state.shouldStop then .sockRelease else .schedule }
  -- the thread is not marked, so it stays on the run queue
  | .schedule => some { state with thread := .kthreadShouldStop }
  | .sockRelease => some { state with thread := .exited 0, ledger := state.ledger.release () state.sock }
  | .releaseUncreated err | .releaseUnconnected err =>
      some { state with thread := .exited err, ledger := state.ledger.release () state.sock }
  | .absent | .created | .kernelConnect | .ktcpSend | .exited _ => none

/-- The calls of the thread that fail. The result of `ktcp_send` is not tested. -/
def State.fails (state : State) (err : Int) : Option State :=
  match state.thread with
  | .sockCreate => some { state with thread := .releaseUncreated err }
  | .kernelConnect => some (state.use { state with thread := .releaseUnconnected err })
  | .ktcpSend => some (state.use { state with thread := .kthreadShouldStop })
  | _ => none

/-- The server accepts the connection. -/
def State.connect (state : State) : Option State :=
  match state.thread with
  | .kernelConnect => some (state.use { state with thread := .memset })
  | _ => none

/-- The call of `kernel_sendmsg` takes the first bytes of the buffer. -/
def State.send (state : State) (count : Nat) : Option State :=
  match state.thread with
  | .ktcpSend => if count ≤ TcpServer.bufSize then
      some (state.use { state with thread := .kthreadShouldStop, sent := state.sent ++ state.buf.take count }) else none
  | _ => none

/-- One statement of `ktcp_client_init`. -/
def State.load (state : State) : Option State :=
  match state.init with
  | .kthreadCreate => some { state with init := .wakeUpProcess, thread := .created }
  | .wakeUpProcess => some { state with init := .returned, thread := .kthread }
  | .returned | .failed => none

/-- One statement of `ktcp_client_exit`. -/
def State.unload (state : State) : Option State :=
  match state.exit with
  | .kthreadStop => if state.init = .returned then
      -- the kernel has freed the task of a thread that has returned
      some (if state.thread.ended then { state with crashed := true }
        else { state with exit := .wait, shouldStop := true }) else none
  | .wait => if state.thread.ended then some { state with exit := .returned } else none
  | .returned => none

/-- One statement of the module. -/
def State.take (state : State) : Event → Option State
  | .init => state.load
  | .initFails => if state.init = .kthreadCreate then some { state with init := .failed } else none
  | .thread => state.run
  | .threadFails err => if err < 0 then state.fails err else none
  | .connect => state.connect
  | .send count => state.send count
  | .exit => state.unload

/-- Nothing is said about what happens after a wrong use of a pointer. -/
def State.step (state : State) (event : Event) : Option State :=
  if state.crashed then none else state.take event

def tcpClient : Machine State Event where
  start state := state = {}
  step := State.step

end KernelStudio.TcpClient
