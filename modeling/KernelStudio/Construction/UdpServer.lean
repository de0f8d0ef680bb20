/-
This file models the UDP server module: the loading of the module, its server thread and the unloading, which read and
write the variable `server` without a lock.
-/

import KernelStudio.Library.Framing
import KernelStudio.Library.Resource
import KernelStudio.Library.Transition

namespace KernelStudio.UdpServer

open Resource Transition

def bufLen : Nat := 512

/-- The variable `server`. The kernel does not unload a module that has not been loaded, so an error value of
`kthread_create` is not kept. -/
inductive Server where
  | null
  | thread
  deriving DecidableEq

/-- Each constructor names the next statement of `udp_server_init`. -/
inductive InitPc where
  | kthreadCreate
  | wakeUpProcess
  | returned
  | failed
  deriving DecidableEq

/-- Each constructor names the next statement of the server thread. The positions `releaseUnbound`, `clearServer` and
`return1` belong to the error paths. -/
inductive ThreadPc where
  | absent
  | created
  | kthread
  | sockCreate
  | bind
  | setsockopt
  | kthreadShouldStop
  | memset
  | kernelRecvmsg
  | log
  | sockRelease
  | releaseUnbound
  | clearServer
  | return1
  | exited
  deriving DecidableEq

/-- Each constructor names the next statement of `udp_server_exit`. -/
inductive ExitPc where
  | test
  | kthreadStop
  | wait
  | returned
  deriving DecidableEq

/-- The state of the module. The array `buf` is part of the stack of the thread and is not initialised. -/
structure State where
  init : InitPc := .kthreadCreate
  thread : ThreadPc := .absent
  exit : ExitPc := .test
  server : Server := .null
  shouldStop : Bool := false
  sock : Pointer := .uninitialised
  ledger : Ledger Unit := {}
  /-- The receive timeout of the socket has been set. -/
  timeo : Bool := false
  buf : List UInt8 := []
  log : List (List UInt8) := []
  /-- A pointer was used that is null or that names a released object. -/
  crashed : Bool := false

/-- The labels of the module. The network chooses the datagrams, and the kernel chooses which calls fail. -/
inductive Event where
  | init
  | initFails
  | thread
  | threadFails
  | receive (datagram : List UInt8)
  | receiveFails
  | timeout
  | exit
  deriving DecidableEq

/-- A statement that uses the socket. -/
def State.use (state next : State) : State :=
  if state.ledger.Matches () state.sock then next else { state with crashed := true }

/-- The string that `%s` shows of the buffer and of the memory behind it. -/
def shown (beyond buf : List UInt8) : List UInt8 := Framing.text 0 (buf ++ beyond)

/-- The buffer after a datagram was copied to its start. What does not fit into the buffer is lost. -/
def copied (datagram buf : List UInt8) : List UInt8 :=
  datagram.take bufLen ++ buf.drop (datagram.take bufLen).length

/-- One statement of the server thread whose call succeeds. -/
def State.run (beyond : List UInt8) (state : State) : Option State :=
  match state.thread with
  -- `kthread()` does not run the thread function of a thread that is stopped already
  | .kthread => some { state with thread := if state.shouldStop then .exited else .sockCreate }
  | .sockCreate => some { state with thread := .bind, sock := state.ledger.fresh, ledger := state.ledger.obtain () }
  | .bind => some (state.use { state with thread := .setsockopt })
  | .setsockopt => some (state.use { state with thread := .kthreadShouldStop, timeo := true })
  | .kthreadShouldStop => some { state with thread := if state.shouldStop then .sockRelease else .memset }
  | .memset => some { state with thread := .kernelRecvmsg, buf := List.replicate bufLen 0 }
  | .log => some { state with thread := .kthreadShouldStop, log := state.log ++ [shown beyond state.buf] }
  | .sockRelease => some { state with thread := .exited, ledger := state.ledger.release () state.sock }
  | .releaseUnbound => some { state with thread := .clearServer, ledger := state.ledger.release () state.sock }
  | .clearServer => some { state with thread := .return1, server := .null }
  | .return1 => some { state with thread := .exited }
  | .absent | .created | .kernelRecvmsg | .exited => none

/-- The calls of the server thread that fail. The result of `kernel_setsockopt` is not tested. -/
def State.fails (state : State) : Option State :=
  match state.thread with
  | .sockCreate => some { state with thread := .clearServer }
  | .bind => some (state.use { state with thread := .releaseUnbound })
  | .setsockopt => some (state.use { state with thread := .kthreadShouldStop })
  | _ => none

/-- The return of `kernel_recvmsg`, with a datagram or with an error. -/
def State.received (state : State) (datagram : Option (List UInt8)) : Option State :=
  match state.thread with
  | .kernelRecvmsg => some (state.use (match datagram with
      | some datagram => { state with thread := .log, buf := copied datagram state.buf }
      | none => { state with thread := .kthreadShouldStop }))
  | _ => none

/-- One statement of `udp_server_init`. -/
def State.load (state : State) : Option State :=
  match state.init with
  | .kthreadCreate => some { state with init := .wakeUpProcess, thread := .created, server := .thread }
  | .wakeUpProcess => some { state with init := .returned, thread := .kthread }
  | .returned | .failed => none

/-- One statement of `udp_server_exit`. The variable `server` is read for the test and for the call. -/
def State.unload (state : State) : Option State :=
  match state.exit with
  | .test => if state.init = .returned then
      some { state with exit := if state.server = .null then .returned else .kthreadStop } else none
  | .kthreadStop =>
      -- the kernel has freed the task of a thread that has returned
      if state.server = .null ∨ state.thread = .exited then some { state with crashed := true }
      else some { state with exit := .wait, shouldStop := true }
  | .wait => if state.thread = .exited then some { state with exit := .returned } else none
  | .returned => none

/-- One statement of the module or one return of `kernel_recvmsg`. -/
def State.take (beyond : List UInt8) (state : State) : Event → Option State
  | .init => state.load
  | .initFails => if state.init = .kthreadCreate then some { state with init := .failed } else none
  | .thread => state.run beyond
  | .threadFails => state.fails
  | .receive datagram => state.received (some datagram)
  | .receiveFails => state.received none
  -- the wait for a datagram ends after a tenth of a second
  | .timeout => if state.timeo then state.received none else none
  | .exit => state.unload

/-- Nothing is said about what happens after a wrong use of a pointer. -/
def State.step (beyond : List UInt8) (state : State) (event : Event) : Option State :=
  if state.crashed then none else state.take beyond event

/-- The module is loaded while these bytes follow the buffer. -/
def udpServer (beyond : List UInt8) : Machine State Event where
  start state := ∃ buf, buf.length = bufLen ∧ state = { buf }
  step := State.step beyond

/-- The datagrams that a step hands to the module. -/
def handed (_ : State) : Event → List (List UInt8)
  | .receive datagram => [datagram]
  | _ => []

end KernelStudio.UdpServer
