/-
This file models `ktcp_server_start_threadfn`, the network that fills its accept queue and the module's exit.
A connection arrives in two steps: it enters the queue and then the wait queue of the socket is woken.
-/

import KernelStudio.Library.Transition

namespace KernelStudio.TcpServer

open Transition

/-- This is the state a thread carries through `schedule()`. -/
inductive TaskState where
  | running
  | interruptible
  | asleep
  deriving DecidableEq

/-- Each constructor names the next statement of the server thread. -/
inductive ServerPc where
  | kthread
  | sockCreate
  | bind
  | listen
  | kthreadShouldStop
  | reqskQueueEmpty
  | addWaitQueue
  | setCurrentState
  | schedule (state : TaskState)
  | removeWaitQueue
  | sockCreateClient
  | kernelAccept
  | kthreadCreate
  | wakeConnection
  | sockRelease
  | returned (status : Int)
  deriving DecidableEq

/-- A wake-up acts on a marked thread and on a sleeping thread. -/
def ServerPc.wake : ServerPc → ServerPc
  | .schedule _ => .schedule .running
  | pc => pc

/-- The server thread with its stop flag, its socket's queues and the wake-ups that are on their way.
The field `arrived` counts queued connections whose wake-up has not been delivered. -/
structure Server where
  pc : ServerPc := .kthread
  listening : Bool := false
  acceptQueue : Nat := 0
  onWaitQueue : Bool := false
  arrived : Nat := 0
  shouldStop : Bool := false
  stopping : Bool := false
  connections : Nat := 0
  deriving DecidableEq

/-- This is `wake_up_process` on the server thread. -/
def Server.wakeUpProcess (server : Server) : Server := { server with pc := server.pc.wake }

/-- One statement of the server thread whose calls succeed. -/
def Server.run (server : Server) : Option Server :=
  match server.pc with
  | .schedule .asleep | .returned _ => none
  -- `kthread()` runs the thread function only while the thread is not stopped
  | .kthread => some { server with pc := if server.shouldStop then .returned (-4) else .sockCreate }
  | .sockCreate => some { server with pc := .bind }
  | .bind => some { server with pc := .listen }
  | .listen => some { server with pc := .kthreadShouldStop, listening := true }
  | .kthreadShouldStop => some { server with pc := if server.shouldStop then .sockRelease else .reqskQueueEmpty }
  | .reqskQueueEmpty => some { server with
      pc := if server.acceptQueue = 0 then .addWaitQueue else .sockCreateClient }
  | .addWaitQueue => some { server with pc := .setCurrentState, onWaitQueue := true }
  | .setCurrentState => some { server with pc := .schedule .interruptible }
  | .schedule .interruptible => some { server with pc := .schedule .asleep }
  | .schedule .running => some { server with pc := .removeWaitQueue }
  | .removeWaitQueue => some { server with pc := .kthreadShouldStop, onWaitQueue := false }
  | .sockCreateClient => some { server with pc := .kernelAccept }
  -- the call does not block, so it fails on an empty queue
  | .kernelAccept => some (if server.acceptQueue = 0 then { server with pc := .returned (-11) }
      else { server with pc := .kthreadCreate, acceptQueue := server.acceptQueue - 1 })
  | .kthreadCreate => some { server with pc := .wakeConnection }
  | .wakeConnection => some { server with pc := .kthreadShouldStop, connections := server.connections + 1 }
  | .sockRelease => some { server with pc := .returned 0, listening := false, acceptQueue := 0 }

/-- A call of the server thread fails, and the thread function returns the error. -/
def Server.fails (server : Server) (err : Int) : Option Server :=
  match server.pc with
  | .sockCreate | .bind | .listen => some { server with pc := .returned err }
  -- the error path of the client socket releases the listening socket
  | .sockCreateClient => some { server with pc := .returned err, listening := false, acceptQueue := 0 }
  | .kernelAccept | .kthreadCreate => some { server with pc := .returned err }
  | _ => none

/-- The scheduler chooses any of these labels. -/
inductive Event where
  | thread
  | threadFails (err : Int)
  | arrive
  | wakeArrival
  | stop
  | wakeStop
  deriving DecidableEq

def Server.step (server : Server) : Event → Option Server
  | .thread => server.run
  | .threadFails err => server.fails err
  | .arrive => if server.listening then
      some { server with acceptQueue := server.acceptQueue + 1, arrived := server.arrived + 1 } else none
  -- the wait queue delivers the wake-up only to a thread that is on it
  | .wakeArrival => if server.arrived = 0 then none else
      let woken := { server with arrived := server.arrived - 1 }
      some (if server.onWaitQueue then woken.wakeUpProcess else woken)
  -- `kthread_stop` sets the flag and then wakes the thread
  | .stop => if server.shouldStop then none else some { server with shouldStop := true, stopping := true }
  | .wakeStop => if server.stopping then some { server with stopping := false }.wakeUpProcess else none

/-- This machine starts with the woken thread that `ktcp_server_init` has created. -/
def acceptLoop : Machine Server Event where
  start server := server = {}
  step := Server.step

end KernelStudio.TcpServer
