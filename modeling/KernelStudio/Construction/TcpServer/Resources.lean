/-
This file models the sockets and allocations of the server thread and of the connection threads it creates.
The server thread takes the steps of the accept loop, and each step does what it does to the pointers.
-/

import KernelStudio.Construction.TcpServer.AcceptLoop
import KernelStudio.Library.Resource

namespace KernelStudio.TcpServer

open Resource Transition

/-- An object comes from `kmalloc` and goes to `kfree`, or it is a socket and goes to `sock_release`. -/
inductive Allocator where
  | kmalloc
  | socket
  deriving DecidableEq

/-- Each constructor names the next statement of `connection_threadfn`.
The position `test` holds what `ktcp_recv` has returned. -/
inductive ConnectionThreadPc where
  | created
  | memset
  | kernelRecvmsg
  | test (err : Int)
  | sockRelease
  | kfree
  | returned
  deriving DecidableEq

/-- A connection thread with its socket. The field `last` holds the result that `kernel_recvmsg` keeps
returning, once the peer has closed the connection or the connection has a persistent error. -/
structure ConnectionThread where
  pc : ConnectionThreadPc := .created
  sock : Pointer
  last : Option Int := none
  deriving DecidableEq

/-- This is `wake_up_process` on a new connection thread. -/
def ConnectionThread.wakeUpProcess (thread : ConnectionThread) : ConnectionThread :=
  match thread.pc with
  | .created => { thread with pc := .memset }
  | _ => thread

structure Resources where
  server : Server := {}
  sock : Pointer := .uninitialised
  clientSock : Pointer := .uninitialised
  connections : List ConnectionThread := []
  ledger : Ledger Allocator := {}

/-- The variable `client_sock` takes a new object. -/
def Resources.obtainClient (state : Resources) (allocator : Allocator) : Resources :=
  { state with clientSock := state.ledger.fresh, ledger := state.ledger.obtain allocator }

def Resources.releaseSock (state : Resources) : Resources :=
  { state with ledger := state.ledger.release .socket state.sock }

/-- What one statement of the server thread does to the pointers when its call succeeds. -/
def Resources.run (state : Resources) : Resources :=
  match state.server.pc with
  | .sockCreate => { state with sock := state.ledger.fresh, ledger := state.ledger.obtain .socket }
  -- a connection is waiting, so the loop goes on to `kmalloc`
  | .reqskQueueEmpty => if state.server.acceptQueue = 0 then state else state.obtainClient .kmalloc
  | .sockCreateClient => state.obtainClient .socket
  -- a failed `kernel_accept` has released its own socket and clears the pointer
  | .kernelAccept => if state.server.acceptQueue = 0 then { state with clientSock := .null }
      else state.obtainClient .socket
  | .kthreadCreate => { state with connections := state.connections ++ [{ sock := state.clientSock }] }
  | .wakeConnection => { state with
      connections := state.connections.modify (state.connections.length - 1) ConnectionThread.wakeUpProcess }
  | .sockRelease => state.releaseSock
  | _ => state

/-- What the error paths of the server thread do to the pointers. -/
def Resources.fails (state : Resources) : Resources :=
  match state.server.pc with
  | .sockCreate | .bind | .listen | .sockCreateClient => state.releaseSock
  | .kernelAccept => { state with clientSock := .null }
  | _ => state

def Resources.effect (state : Resources) : Event → Resources
  | .thread => state.run
  | .threadFails _ => state.fails
  | .arrive | .wakeArrival | .stop | .wakeStop => state

/-- One statement of a connection thread, except for `kernel_recvmsg`. -/
def ConnectionThread.run (thread : ConnectionThread) (ledger : Ledger Allocator) :
    Option (ConnectionThread × Ledger Allocator) :=
  match thread.pc with
  | .memset => some ({ thread with pc := .kernelRecvmsg }, ledger)
  | .test err => some ({ thread with pc := if err = 0 then .sockRelease else .memset }, ledger)
  | .sockRelease => some ({ thread with pc := .kfree }, ledger.release .socket thread.sock)
  | .kfree => some ({ thread with pc := .returned }, ledger.release .kmalloc thread.sock)
  | .created | .kernelRecvmsg | .returned => none

/-- The call `kernel_recvmsg` returns. A result that is the last one is returned by each later call, too. -/
def ConnectionThread.receive (thread : ConnectionThread) (err : Int) (last : Bool) : Option ConnectionThread :=
  match thread.pc with
  | .kernelRecvmsg =>
      if (last = true → err ≤ 0) ∧ (thread.last = none ∨ thread.last = some err) then
        some { thread with pc := .test err, last := if last then some err else thread.last } else none
  | _ => none

/-- The scheduler, the network and the kernel choose any of these labels. -/
inductive ResourceEvent where
  | server (event : Event)
  | kmallocFails
  | connection (i : Nat)
  | receive (i : Nat) (err : Int) (last : Bool)
  deriving DecidableEq

def Resources.step (state : Resources) : ResourceEvent → Option Resources
  | .server event => (state.server.step event).map fun server => { state.effect event with server }
  | .kmallocFails => if state.server.pc = .reqskQueueEmpty ∧ state.server.acceptQueue ≠ 0 then
      state.server.run.map fun server => { state with server, clientSock := .null } else none
  | .connection i => match state.connections[i]? with
      | none => none
      | some thread => (thread.run state.ledger).map fun (thread, ledger) =>
          { state with connections := state.connections.set i thread, ledger }
  | .receive i err last => match state.connections[i]? with
      | none => none
      | some thread => (thread.receive err last).map fun thread =>
          { state with connections := state.connections.set i thread }

/-- This machine starts with the woken server thread and without a socket. -/
def tcpServer : Machine Resources ResourceEvent where
  start state := state = {}
  step := Resources.step

end KernelStudio.TcpServer
