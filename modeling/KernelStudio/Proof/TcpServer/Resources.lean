/-
This file proves that the server releases its socket once in each run that takes no connection and whose first
call of `sock_create_kern` succeeds, and that each other run loses an object or makes a faulty release.
-/

import KernelStudio.Construction.TcpServer.Resources

namespace KernelStudio.TcpServer

open Resource Transition

/-- The next call of the thread is `memset` or `kernel_recvmsg`. -/
def ConnectionThreadPc.receives : ConnectionThreadPc → Bool
  | .memset | .kernelRecvmsg => true
  | _ => false

def ServerPc.ended : ServerPc → Bool
  | .returned _ => true
  | _ => false

/-- The server thread and all connection threads have returned. -/
def Resources.ended (state : Resources) : Prop :=
  state.server.pc.ended = true ∧ ∀ thread ∈ state.connections, thread.pc = .returned

instance (state : Resources) : Decidable state.ended := inferInstanceAs (Decidable (_ ∧ _))

/-- A connection thread does not go on to receive after its last result. Each release names a live object of its
allocator, and no object is live when all threads have returned. -/
structure Resources.Released (state : Resources) : Prop where
  leaves : ∀ thread ∈ state.connections, thread.last ≠ none → thread.pc.receives = false
  matched : state.ledger.faults = []
  cleared : state.ended → state.ledger.Cleared

/-- The first `sock_create_kern` does not fail. For a waiting connection the server gets no memory from `kmalloc`
and no socket from `sock_create_kern`. -/
def unaccepted (state : Resources) : ResourceEvent → Prop
  | .server .thread => (state.server.pc = .reqskQueueEmpty → state.server.acceptQueue = 0) ∧
      state.server.pc ≠ .sockCreateClient
  | .server (.threadFails _) => state.server.pc ≠ .sockCreate
  | _ => True

instance (state : Resources) (event : ResourceEvent) : Decidable (unaccepted state event) := by
  unfold unaccepted
  split <;> infer_instance

/-- The server thread has a socket to release. -/
def ServerPc.holdsSock : ServerPc → Bool
  | .kthread | .sockCreate | .returned _ => false
  | _ => true

/-- The server thread takes a connection. -/
def ServerPc.accepts : ServerPc → Bool
  | .kernelAccept | .kthreadCreate | .wakeConnection => true
  | _ => false

/-- The listening socket is the only object, and there are no connection threads. -/
structure Unshared (state : Resources) : Prop where
  alone : state.connections = []
  matched : state.ledger.faults = []
  declines : state.server.pc.accepts = false
  held : state.server.pc.holdsSock = true → state.ledger.Matches .socket state.sock
  only : ∀ key, (state.server.pc.holdsSock = true → state.sock ≠ .object key) → state.ledger.store.get key = none

variable {state next : Resources} {server : Server}

theorem unshared_initial : Unshared {} where
  alone := rfl
  matched := rfl
  declines := rfl
  held position := by simp [ServerPc.holdsSock] at position
  only _ _ := rfl

/-- What a step of the server thread does when `kmalloc` fails. -/
theorem Resources.step_kmallocFails (taken : state.step .kmallocFails = some next) : ∃ server,
    state.server.pc = .reqskQueueEmpty ∧ state.server.acceptQueue ≠ 0 ∧ state.server.run = some server ∧
      next = { state with server, clientSock := .null } := by
  simp only [Resources.step, Option.ite_none_right_eq_some, Option.map_eq_some_iff] at taken
  obtain ⟨⟨position, waiting⟩, server, run, rfl⟩ := taken
  exact ⟨server, position, waiting, run, rfl⟩

/-- What a statement of a connection thread does. -/
theorem Resources.step_connection {i : Nat} (taken : state.step (.connection i) = some next) : ∃ thread after ledger,
    state.connections[i]? = some thread ∧ thread.run state.ledger = some (after, ledger) ∧
      next = { state with connections := state.connections.set i after, ledger } := by
  simp only [Resources.step] at taken
  split at taken
  · contradiction
  next thread found =>
    obtain ⟨⟨after, ledger⟩, ran, rfl⟩ := Option.map_eq_some_iff.mp taken
    exact ⟨thread, after, ledger, found, ran, rfl⟩

/-- What the return of `kernel_recvmsg` does. -/
theorem Resources.step_receive {i : Nat} {err : Int} {last : Bool}
    (taken : state.step (.receive i err last) = some next) :
    ∃ thread after, state.connections[i]? = some thread ∧ thread.receive err last = some after ∧
      next = { state with connections := state.connections.set i after } := by
  simp only [Resources.step] at taken
  split at taken
  · contradiction
  next thread found =>
    obtain ⟨after, received, rfl⟩ := Option.map_eq_some_iff.mp taken
    exact ⟨thread, after, found, received, rfl⟩

/-- Nothing is left when the server thread does not hold its socket. -/
theorem Unshared.cleared (unshared : Unshared state) (position : state.server.pc.holdsSock = false) :
    state.ledger.Cleared := fun key => unshared.only key fun holds => by simp [position] at holds

/-- The server thread moves on with its socket, or without one. -/
theorem Unshared.stay (unshared : Unshared state) (clientSock : Pointer)
    (same : server.pc.holdsSock = state.server.pc.holdsSock) (declines : server.pc.accepts = false) :
    Unshared { state with server, clientSock } where
  alone := unshared.alone
  matched := unshared.matched
  declines := declines
  held holds := unshared.held (same ▸ holds)
  only key other := unshared.only key (same ▸ other)

/-- The server thread gets its socket. -/
theorem Unshared.create (unshared : Unshared state) (before : state.server.pc.holdsSock = false)
    (after : server.pc.holdsSock = true) (declines : server.pc.accepts = false) :
    Unshared { state with server, sock := state.ledger.fresh, ledger := state.ledger.obtain .socket } where
  alone := unshared.alone
  matched := unshared.matched
  declines := declines
  held _ := matches_fresh
  only _ other := (unshared.cleared before).obtain (other after)

/-- The server thread returns after it has released its socket. -/
theorem Unshared.release (unshared : Unshared state) (before : state.server.pc.holdsSock = true)
    (after : server.pc.holdsSock = false) (declines : server.pc.accepts = false) :
    Unshared { state.releaseSock with server } where
  alone := unshared.alone
  matched := (faults_release (unshared.held before)).trans unshared.matched
  declines := declines
  held holds := by simp [after] at holds
  only key _ := cleared_release (unshared.held before) (fun other named => unshared.only other fun _ => named) key

/-- The server thread takes a step that needs no connection. -/
theorem unshared_run (unshared : Unshared state) (free : unaccepted state (.server .thread))
    (taken : state.server.run = some server) : Unshared { state.run with server } := by
  have declines := unshared.declines
  rcases position : state.server.pc with _ | _ | _ | _ | _ | _ | _ | _ | (_ | _ | _) | _ | _ | _ | _ | _ | _ | _
  all_goals simp only [Server.run, position, reduceCtorEq, Option.some.injEq] at taken
  all_goals subst taken
  all_goals simp only [Resources.run, position]
  case kthread =>
    refine unshared.stay state.clientSock ?_ ?_
    all_goals split <;> simp [position, ServerPc.holdsSock, ServerPc.accepts]
  case sockCreate => exact unshared.create (by rw [position]; rfl) rfl rfl
  case reqskQueueEmpty =>
    have empty := free.1 position
    simp only [empty, if_pos]
    exact unshared.stay state.clientSock (by rw [position]; rfl) rfl
  case sockCreateClient => exact absurd position free.2
  case kernelAccept | kthreadCreate | wakeConnection => simp [position, ServerPc.accepts] at declines
  case sockRelease => exact unshared.release (by rw [position]; rfl) rfl rfl
  case kthreadShouldStop =>
    refine unshared.stay state.clientSock ?_ ?_
    all_goals split <;> simp [position, ServerPc.holdsSock, ServerPc.accepts]
  all_goals exact unshared.stay state.clientSock (by rw [position]; rfl) rfl

/-- A call of the server thread fails before it has taken a connection. -/
theorem unshared_fails {err : Int} (unshared : Unshared state) (free : unaccepted state (.server (.threadFails err)))
    (taken : state.server.fails err = some server) : Unshared { state.fails with server } := by
  have declines := unshared.declines
  cases position : state.server.pc
  all_goals simp only [Server.fails, position, reduceCtorEq, Option.some.injEq] at taken
  all_goals subst taken
  all_goals simp only [Resources.fails, position]
  case sockCreate => exact absurd position free
  case kernelAccept | kthreadCreate => simp [position, ServerPc.accepts] at declines
  all_goals exact unshared.release (by rw [position]; rfl) rfl rfl

/-- A wake-up does not take the server thread to another part of its function. -/
theorem ServerPc.wake_part (pc : ServerPc) : pc.wake.holdsSock = pc.holdsSock ∧ pc.wake.accepts = pc.accepts := by
  cases pc <;> exact ⟨rfl, rfl⟩

/-- The network and the module's exit do not move the server thread to another part of its function. -/
theorem Server.step_part {event : Event} (taken : state.server.step event = some server)
    (other : event ≠ .thread) (lives : ∀ err, event ≠ .threadFails err) :
    server.pc = state.server.pc ∨ server.pc = state.server.pc.wake := by
  cases event with
  | thread => exact absurd rfl other
  | threadFails err => exact absurd rfl (lives err)
  | arrive =>
      simp only [Server.step, Option.ite_none_right_eq_some, Option.some.injEq] at taken
      exact .inl (taken.2 ▸ rfl)
  | wakeArrival =>
      simp only [Server.step, Option.ite_none_left_eq_some, Option.some.injEq] at taken
      obtain ⟨_, rfl⟩ := taken
      split
      · exact .inr rfl
      · exact .inl rfl
  | stop =>
      simp only [Server.step, Option.ite_none_left_eq_some, Option.some.injEq] at taken
      exact .inl (taken.2 ▸ rfl)
  | wakeStop =>
      simp only [Server.step, Option.ite_none_right_eq_some, Option.some.injEq] at taken
      exact .inr (taken.2 ▸ rfl)

theorem unshared_step {event : ResourceEvent} (unshared : Unshared state) (free : unaccepted state event)
    (taken : state.step event = some next) : Unshared next := by
  cases event with
  | server event =>
      obtain ⟨server, step, rfl⟩ := Option.map_eq_some_iff.mp taken
      by_cases thread : event = .thread
      · subst thread
        exact unshared_run unshared free step
      by_cases fails : ∃ err, event = .threadFails err
      · obtain ⟨err, rfl⟩ := fails
        exact unshared_fails unshared free step
      have same : state.effect event = state := by
        cases event with
        | thread => exact absurd rfl thread
        | threadFails err => exact absurd ⟨err, rfl⟩ fails
        | arrive | wakeArrival | stop | wakeStop => rfl
      have part := state.server.pc.wake_part
      rw [same]
      refine unshared.stay state.clientSock ?_ ?_
      all_goals
        rcases Server.step_part step thread fun err here => fails ⟨err, here⟩ with position | position
        all_goals simp [position, part, unshared.declines]
  | kmallocFails =>
      obtain ⟨server, position, waiting, ran, rfl⟩ := Resources.step_kmallocFails taken
      simp only [Server.run, position, if_neg waiting, Option.some.injEq] at ran
      subst ran
      exact unshared.stay .null (by rw [position]; rfl) rfl
  | connection i =>
      obtain ⟨_, _, _, found, _⟩ := Resources.step_connection taken
      simp [unshared.alone] at found
  | receive i err last =>
      obtain ⟨_, _, found, _⟩ := Resources.step_receive taken
      simp [unshared.alone] at found

theorem unshared_reached (reached : tcpServer.Reaches unaccepted state) : Unshared state := by
  refine reached.invariant Unshared ?_ fun _ _ _ _ unshared free taken => unshared_step unshared free taken
  rintro _ rfl
  exact unshared_initial

/-- As long as the server gets its socket and takes no connection, it makes no faulty release and has released
the socket when it returns. -/
theorem resources_released {state : Resources} (reached : tcpServer.Reaches unaccepted state) :
    state.Released where
  leaves thread known := by simp [(unshared_reached reached).alone] at known
  matched := (unshared_reached reached).matched
  cleared ended := by
    refine (unshared_reached reached).cleared ?_
    have position := ended.1
    unfold ServerPc.ended at position
    split at position
    · next here => rw [here]; rfl
    · contradiction

/-- The server thread finds no connection and is stopped while it sleeps. -/
def idleServerEvents : List ResourceEvent :=
  List.flatten [List.replicate 9 (.server .thread), [.server .stop, .server .wakeStop],
    List.replicate 4 (.server .thread)]

theorem resources_released_idle : ∃ state, tcpServer.Reaches unaccepted state ∧ state.server.pc = .returned 0 ∧
    state.ledger.store.size = 1 ∧ state.Released := by
  have initial : tcpServer.start {} := rfl
  have admitted : tcpServer.admits unaccepted {} idleServerEvents = true := by decide +kernel
  have executed : (tcpServer.execute {} idleServerEvents).map
      (fun state => (state.server.pc, state.ledger.store.size)) = some (.returned 0, 1) := by decide +kernel
  obtain ⟨state, reached, shown⟩ := Machine.admits_shows initial idleServerEvents admitted _ executed
  simp only [Prod.mk.injEq] at shown
  exact ⟨state, reached, shown.1, shown.2, resources_released reached⟩

/-- The first call of `sock_create_kern` fails. -/
def unsockedEvents : List ResourceEvent := [.server .thread, .server (.threadFails (-23))]

/-- A connection arrives and is accepted. -/
def acceptEvents : List ResourceEvent :=
  List.flatten [List.replicate 4 (.server .thread), [.server .arrive], List.replicate 6 (.server .thread)]

/-- The peer closes the accepted connection, and the module is removed. -/
def closeEvents : List ResourceEvent :=
  List.flatten [[.connection 0, .receive 0 0 true, .connection 0, .connection 0, .connection 0, .server .stop],
    List.replicate 2 (.server .thread)]

/-- The accepted connection fails for good. -/
def resetEvents : List ResourceEvent := [.connection 0, .receive 0 (-104) true, .connection 0]

/-- The server releases a pointer that it has not set. It loses an allocation and a socket for a connection and frees
its socket in two ways. A connection thread with a persistent error goes on to receive. -/
theorem resources_lost :
    (∃ state, tcpServer.Reachable state ∧ state.ledger.faults = [(.socket, .uninitialised)] ∧ ¬ state.Released) ∧
    (∃ state, tcpServer.Reachable state ∧ state.ended ∧ state.ledger.faults = [(.kmalloc, .object 3)] ∧
      state.ledger.store.get 1 = some .kmalloc ∧ state.ledger.store.get 2 = some .socket ∧ ¬ state.Released) ∧
    ∃ state, tcpServer.Reachable state ∧
      state.connections = [{ pc := .memset, sock := .object 3, last := some (-104) }] ∧ ¬ state.Released := by
  have initial : tcpServer.start {} := rfl
  have unsocked : (tcpServer.execute {} unsockedEvents).map (fun state => state.ledger.faults) =
      some [(.socket, .uninitialised)] := by decide +kernel
  have closed : (tcpServer.execute {} (acceptEvents ++ closeEvents)).map
      (fun state => (decide state.ended, state.ledger.faults, state.ledger.store.get 1, state.ledger.store.get 2)) =
      some (true, [(.kmalloc, .object 3)], some .kmalloc, some .socket) := by decide +kernel
  have reset : (tcpServer.execute {} (acceptEvents ++ resetEvents)).map (fun state => state.connections) =
      some [{ pc := .memset, sock := .object 3, last := some (-104) }] := by decide +kernel
  obtain ⟨first, reachedFirst, shownFirst⟩ := Machine.execute_shows initial unsockedEvents _ unsocked
  obtain ⟨second, reachedSecond, shownSecond⟩ := Machine.execute_shows initial _ _ closed
  obtain ⟨third, reachedThird, shownThird⟩ := Machine.execute_shows initial _ _ reset
  simp only [Prod.mk.injEq, decide_eq_true_eq] at shownSecond
  obtain ⟨ended, faults, allocation, socket⟩ := shownSecond
  refine ⟨⟨first, reachedFirst, shownFirst, fun released => ?_⟩,
    ⟨second, reachedSecond, ended, faults, allocation, socket, fun released => ?_⟩,
    third, reachedThird, shownThird, fun released => ?_⟩
  · have matched := released.matched
    simp [shownFirst] at matched
  · have matched := released.matched
    simp [faults] at matched
  · have left := released.leaves _ (shownThird ▸ List.mem_cons_self) (by simp)
    simp [ConnectionThreadPc.receives] at left

section Loop

variable {thread after : ConnectionThread} {ledger later : Ledger Allocator} {err : Int} {last : Bool}

/-- A thread that has got its last result goes round the loop unless the result is zero. -/
def ConnectionThread.Answered (thread : ConnectionThread) : Prop :=
  ∀ err, thread.last = some err → match thread.pc with
    | .created => False
    | .memset | .kernelRecvmsg => err ≠ 0
    | .test found => found = err
    | .sockRelease | .kfree | .returned => err = 0

theorem ConnectionThread.Answered.wakeUpProcess (answered : thread.Answered) : thread.wakeUpProcess.Answered := by
  unfold ConnectionThread.wakeUpProcess
  split
  next position =>
    intro err answer
    have never := answered err answer
    simp only [position] at never
  next => exact answered

theorem ConnectionThread.Answered.run (answered : thread.Answered) (ran : thread.run ledger = some (after, later)) :
    after.Answered := by
  intro err answer
  cases position : thread.pc
  all_goals simp only [ConnectionThread.run, position, reduceCtorEq, Option.some.injEq, Prod.mk.injEq] at ran
  all_goals obtain rfl := ran.1
  all_goals have before := answered err answer
  all_goals simp only [position] at before
  case test found =>
    subst before
    by_cases zero : found = 0
    · simp [zero]
    · simp [zero]
  all_goals exact before

/-- A thread that receives has not tested the result yet. -/
theorem ConnectionThread.answered_of_receive (received : thread.receive err last = some after) :
    after.Answered := by
  unfold ConnectionThread.receive at received
  split at received
  · simp only [Option.ite_none_right_eq_some, Option.some.injEq] at received
    obtain ⟨⟨_, same⟩, rfl⟩ := received
    intro found answer
    cases last with
    | true => exact Option.some.inj answer
    | false =>
        have before : thread.last = some found := by simpa using answer
        have equal : found = err := by simpa [before] using same
        exact equal.symm
  · contradiction

/-- The server thread creates threads without a result and wakes them. -/
theorem answered_run (answered : ∀ thread ∈ state.connections, thread.Answered) :
    ∀ thread ∈ state.run.connections, thread.Answered := by
  intro thread inside
  unfold Resources.run at inside
  split at inside
  case h_2 | h_4 => split at inside <;> exact answered thread inside
  case h_5 =>
    rw [List.mem_append, List.mem_singleton] at inside
    rcases inside with old | rfl
    · exact answered thread old
    · intro err answer
      simp at answer
  case h_6 =>
    obtain ⟨k, found⟩ := List.mem_iff_getElem?.mp inside
    rw [List.getElem?_modify, Option.map_eq_map, Option.map_eq_some_iff] at found
    obtain ⟨before, found, rfl⟩ := found
    have old : before.Answered := answered before (List.mem_of_getElem? found)
    split
    · exact old.wakeUpProcess
    · exact old
  all_goals exact answered thread inside

/-- Each connection thread keeps the rule, whatever the others do. -/
theorem answered_step {event : ResourceEvent} (answered : ∀ thread ∈ state.connections, thread.Answered)
    (taken : state.step event = some next) : ∀ thread ∈ next.connections, thread.Answered := by
  have replaced {i : Nat} {after : ConnectionThread} (kept : after.Answered) :
      ∀ thread ∈ state.connections.set i after, thread.Answered := by
    intro thread known
    rcases List.mem_or_eq_of_mem_set known with inside | rfl
    · exact answered thread inside
    · exact kept
  cases event with
  | server event =>
      obtain ⟨server, step, rfl⟩ := Option.map_eq_some_iff.mp taken
      cases event with
      | thread => exact answered_run answered
      | threadFails err =>
          have same : state.fails.connections = state.connections := by
            unfold Resources.fails
            split <;> rfl
          exact same ▸ answered
      | arrive | wakeArrival | stop | wakeStop => exact answered
  | kmallocFails =>
      obtain ⟨_, _, _, _, rfl⟩ := Resources.step_kmallocFails taken
      exact answered
  | connection i =>
      obtain ⟨thread, after, ledger, found, ran, rfl⟩ := Resources.step_connection taken
      exact replaced ((answered thread (List.mem_of_getElem? found)).run ran)
  | receive i err last =>
      obtain ⟨_, _, _, received, rfl⟩ := Resources.step_receive taken
      exact replaced (ConnectionThread.answered_of_receive received)

theorem answered_reached (reached : tcpServer.Reachable state) : ∀ thread ∈ state.connections, thread.Answered := by
  refine reached.invariant (fun state => ∀ thread ∈ state.connections, thread.Answered) ?_
    fun _ _ _ _ answered _ taken => answered_step answered taken
  rintro _ rfl thread known
  simp at known

/-- In every run a connection thread that has tested its last result is out of the loop if and only if the peer has
closed the connection. A persistent error keeps it in the loop. -/
theorem leaves_iff_closed (reached : tcpServer.Reachable state) (inside : thread ∈ state.connections)
    (answer : thread.last = some err) (tested : thread.pc ≠ .test err) :
    thread.pc.receives = false ↔ err = 0 := by
  have rule := answered_reached reached thread inside err answer
  cases position : thread.pc
  all_goals simp only [position] at rule
  case test found => exact absurd (rule ▸ position) tested
  all_goals simp [ConnectionThreadPc.receives, rule]

end Loop

section Exact

/-- The object is live although no release will name it. -/
structure Lost (state : Resources) (key : Nat) : Prop where
  live : state.ledger.store.get key ≠ none
  sock : state.sock ≠ .object key
  clientSock : state.server.pc = .kthreadCreate → state.clientSock ≠ .object key
  connections : ∀ thread ∈ state.connections, thread.sock ≠ .object key

/-- The pointers name objects that have been obtained. -/
structure Known (state : Resources) : Prop where
  sock : state.ledger.Knows state.sock
  clientSock : state.ledger.Knows state.clientSock
  connections : ∀ thread ∈ state.connections, state.ledger.Knows thread.sock

/-- What a step can do to the pointers and to the ledger. -/
inductive Change (state next : Resources) : Prop where
  | keep (sock : next.sock = state.sock) (client : next.clientSock = state.clientSock)
      (connections : ∀ thread ∈ next.connections, ∃ old ∈ state.connections, thread.sock = old.sock)
      (ledger : next.ledger = state.ledger)
      (position : next.server.pc = .kthreadCreate → state.server.pc = .kthreadCreate)
  | sockCreate (sock : next.sock = state.ledger.fresh) (client : next.clientSock = state.clientSock)
      (connections : next.connections = state.connections) (ledger : next.ledger = state.ledger.obtain .socket)
      (position : next.server.pc = .bind)
  | obtainClient (allocator : Allocator) (sock : next.sock = state.sock)
      (client : next.clientSock = state.ledger.fresh) (connections : next.connections = state.connections)
      (ledger : next.ledger = state.ledger.obtain allocator)
  | clearClient (sock : next.sock = state.sock) (client : next.clientSock = .null)
      (connections : next.connections = state.connections) (ledger : next.ledger = state.ledger)
  | kthreadCreate (before : state.server.pc = .kthreadCreate) (sock : next.sock = state.sock)
      (client : next.clientSock = state.clientSock)
      (connections : next.connections = state.connections ++ [{ sock := state.clientSock }])
      (ledger : next.ledger = state.ledger) (after : next.server.pc = .wakeConnection)
  | release (allocator : Allocator) (pointer : Pointer)
      (named : pointer = state.sock ∨ ∃ thread ∈ state.connections, pointer = thread.sock)
      (sock : next.sock = state.sock) (client : next.clientSock = state.clientSock)
      (connections : ∀ thread ∈ next.connections, ∃ old ∈ state.connections, thread.sock = old.sock)
      (ledger : next.ledger = state.ledger.release allocator pointer)
      (position : next.server.pc = .kthreadCreate → state.server.pc = .kthreadCreate)

/-- The sockets of the connection threads stay, whatever the threads do. -/
theorem sock_of_mem_set {threads : List ConnectionThread} {i : Nat} {old thread other : ConnectionThread}
    (found : threads[i]? = some old) (same : thread.sock = old.sock) (known : other ∈ threads.set i thread) :
    ∃ before ∈ threads, other.sock = before.sock := by
  rcases List.mem_or_eq_of_mem_set known with kept | rfl
  · exact ⟨other, kept, rfl⟩
  · exact ⟨old, List.mem_of_getElem? found, same⟩

theorem sock_of_mem_modify {threads : List ConnectionThread} {i : Nat} {other : ConnectionThread}
    (known : other ∈ threads.modify i ConnectionThread.wakeUpProcess) :
    ∃ before ∈ threads, other.sock = before.sock := by
  obtain ⟨k, found⟩ := List.mem_iff_getElem?.mp known
  rw [List.getElem?_modify, Option.map_eq_map, Option.map_eq_some_iff] at found
  obtain ⟨before, found, rfl⟩ := found
  refine ⟨before, List.mem_of_getElem? found, ?_⟩
  unfold ConnectionThread.wakeUpProcess
  split
  · split <;> rfl
  · rfl

theorem Change.stay (position : server.pc = .kthreadCreate → state.server.pc = .kthreadCreate) :
    Change state { state with server } :=
  .keep rfl rfl (fun thread known => ⟨thread, known, rfl⟩) rfl position

theorem Change.releaseSock (position : server.pc ≠ .kthreadCreate) :
    Change state { state.releaseSock with server } :=
  .release .socket state.sock (.inl rfl) rfl rfl (fun thread known => ⟨thread, known, rfl⟩) rfl
    fun here => absurd here position

theorem change_run (taken : state.server.run = some server) : Change state { state.run with server } := by
  rcases position : state.server.pc with _ | _ | _ | _ | _ | _ | _ | _ | (_ | _ | _) | _ | _ | _ | _ | _ | _ | _
  all_goals simp only [Server.run, position, reduceCtorEq, Option.some.injEq] at taken
  all_goals subst taken
  all_goals simp only [Resources.run, position]
  case sockCreate => exact .sockCreate rfl rfl rfl rfl rfl
  case reqskQueueEmpty =>
    by_cases empty : state.server.acceptQueue = 0
    · simp only [empty, if_pos]
      exact .stay (by simp)
    · simp only [empty, if_neg, not_false_eq_true]
      exact .obtainClient .kmalloc rfl rfl rfl rfl
  case sockCreateClient => exact .obtainClient .socket rfl rfl rfl rfl
  case kernelAccept =>
    by_cases empty : state.server.acceptQueue = 0
    · simp only [empty, if_pos]
      exact .clearClient rfl rfl rfl rfl
    · simp only [empty, if_neg, not_false_eq_true]
      exact .obtainClient .socket rfl rfl rfl rfl
  case kthreadCreate => exact .kthreadCreate position rfl rfl rfl rfl rfl
  case wakeConnection => exact .keep rfl rfl (fun _ known => sock_of_mem_modify known) rfl (by simp)
  case sockRelease => exact .releaseSock (by simp)
  case kthread | kthreadShouldStop => exact .stay (by split <;> simp)
  all_goals exact .stay (by simp)

theorem change_fails {err : Int} (taken : state.server.fails err = some server) :
    Change state { state.fails with server } := by
  cases position : state.server.pc
  all_goals simp only [Server.fails, position, reduceCtorEq, Option.some.injEq] at taken
  all_goals subst taken
  all_goals simp only [Resources.fails, position]
  case kernelAccept => exact .clearClient rfl rfl rfl rfl
  case kthreadCreate => exact .stay (by simp)
  all_goals exact .releaseSock (by simp)

theorem ConnectionThread.run_sock {thread after : ConnectionThread} {ledger later : Ledger Allocator}
    (ran : thread.run ledger = some (after, later)) : after.sock = thread.sock := by
  cases position : thread.pc
  all_goals simp only [ConnectionThread.run, position, reduceCtorEq, Option.some.injEq, Prod.mk.injEq] at ran
  all_goals exact ran.1 ▸ rfl

theorem ConnectionThread.receive_sock {thread after : ConnectionThread} {err : Int} {last : Bool}
    (received : thread.receive err last = some after) : after.sock = thread.sock := by
  unfold ConnectionThread.receive at received
  split at received
  · simp only [Option.ite_none_right_eq_some, Option.some.injEq] at received
    exact received.2 ▸ rfl
  · contradiction

/-- Each step changes the pointers and the ledger in one of these ways. -/
theorem change_step {event : ResourceEvent} (taken : state.step event = some next) : Change state next := by
  cases event with
  | server event =>
      obtain ⟨server, step, rfl⟩ := Option.map_eq_some_iff.mp taken
      cases event with
      | thread => exact change_run step
      | threadFails err => exact change_fails step
      | arrive | wakeArrival | stop | wakeStop =>
          refine .stay fun here => ?_
          rcases Server.step_part step (by simp) (by simp) with position | position
          · rwa [position] at here
          · rw [position] at here
            cases before : state.server.pc <;> simp [before, ServerPc.wake] at here
            rfl
  | kmallocFails =>
      obtain ⟨_, _, _, _, rfl⟩ := Resources.step_kmallocFails taken
      exact .clearClient rfl rfl rfl rfl
  | connection i =>
      obtain ⟨thread, after, ledger, found, ran, rfl⟩ := Resources.step_connection taken
      have inside : thread ∈ state.connections := List.mem_of_getElem? found
      have connections (other : ConnectionThread) (known : other ∈ state.connections.set i after) :
          ∃ before ∈ state.connections, other.sock = before.sock :=
        sock_of_mem_set found (ConnectionThread.run_sock ran) known
      cases position : thread.pc
      all_goals simp only [ConnectionThread.run, position, reduceCtorEq, Option.some.injEq, Prod.mk.injEq] at ran
      all_goals obtain ⟨_, rfl⟩ := ran
      case memset | test => exact .keep rfl rfl connections rfl id
      case sockRelease =>
        exact .release .socket thread.sock (.inr ⟨thread, inside, rfl⟩) rfl rfl connections rfl id
      case kfree =>
        exact .release .kmalloc thread.sock (.inr ⟨thread, inside, rfl⟩) rfl rfl connections rfl id
  | receive i err last =>
      obtain ⟨thread, after, found, received, rfl⟩ := Resources.step_receive taken
      have same : after.sock = thread.sock := ConnectionThread.receive_sock received
      exact .keep rfl rfl (fun _ known => sock_of_mem_set found same known) rfl id

/-- No step gives a lost object back. -/
theorem Lost.change {key : Nat} (lost : Lost state key) (change : Change state next) : Lost next key := by
  have clientSock := lost.clientSock
  cases change with
  | keep sock client connections ledger position =>
      refine ⟨ledger ▸ lost.live, sock ▸ lost.sock, fun here => client ▸ clientSock (position here), ?_⟩
      intro thread known
      obtain ⟨old, inside, same⟩ := connections thread known
      exact same ▸ lost.connections old inside
  | sockCreate sock client connections ledger position =>
      refine ⟨ledger ▸ get_obtain lost.live, sock ▸ fresh_ne lost.live, fun here => ?_,
        connections ▸ lost.connections⟩
      simp [position] at here
  | obtainClient allocator sock client connections ledger =>
      exact ⟨ledger ▸ get_obtain lost.live, sock ▸ lost.sock, fun _ => client ▸ fresh_ne lost.live,
        connections ▸ lost.connections⟩
  | clearClient sock client connections ledger =>
      exact ⟨ledger ▸ lost.live, sock ▸ lost.sock, fun _ => by simp [client], connections ▸ lost.connections⟩
  | kthreadCreate before sock client connections ledger after =>
      refine ⟨ledger ▸ lost.live, sock ▸ lost.sock, fun here => by simp [after] at here, ?_⟩
      intro thread known
      rw [connections, List.mem_append, List.mem_singleton] at known
      rcases known with inside | rfl
      · exact lost.connections thread inside
      · exact clientSock before
  | release allocator pointer named sock client connections ledger position =>
      have other : pointer ≠ .object key := by
        rcases named with rfl | ⟨thread, inside, rfl⟩
        · exact lost.sock
        · exact lost.connections thread inside
      refine ⟨?_, sock ▸ lost.sock, fun here => client ▸ clientSock (position here), ?_⟩
      · rw [ledger, get_release other]
        exact lost.live
      · intro thread known
        obtain ⟨old, inside, same⟩ := connections thread known
        exact same ▸ lost.connections old inside

theorem Known.change (known : Known state) (change : Change state next) : Known next := by
  cases change with
  | keep sock client connections ledger position =>
      refine ⟨ledger ▸ sock ▸ known.sock, ledger ▸ client ▸ known.clientSock, fun thread inside => ?_⟩
      obtain ⟨old, before, same⟩ := connections thread inside
      exact ledger ▸ same ▸ known.connections old before
  | sockCreate sock client connections ledger position =>
      exact ⟨ledger ▸ sock ▸ knows_fresh, ledger ▸ client ▸ known.clientSock.obtain,
        fun thread inside => ledger ▸ (known.connections thread (connections ▸ inside)).obtain⟩
  | obtainClient allocator sock client connections ledger =>
      exact ⟨ledger ▸ sock ▸ known.sock.obtain, ledger ▸ client ▸ knows_fresh,
        fun thread inside => ledger ▸ (known.connections thread (connections ▸ inside)).obtain⟩
  | clearClient sock client connections ledger =>
      exact ⟨ledger ▸ sock ▸ known.sock, by rw [client]; trivial,
        fun thread inside => ledger ▸ known.connections thread (connections ▸ inside)⟩
  | kthreadCreate before sock client connections ledger after =>
      refine ⟨ledger ▸ sock ▸ known.sock, ledger ▸ client ▸ known.clientSock, fun thread inside => ?_⟩
      rw [connections, List.mem_append, List.mem_singleton] at inside
      rcases inside with inside | rfl
      · exact ledger ▸ known.connections thread inside
      · exact ledger ▸ known.clientSock
  | release allocator pointer named sock client connections ledger position =>
      refine ⟨ledger ▸ sock ▸ known.sock.release, ledger ▸ client ▸ known.clientSock.release, fun thread inside => ?_⟩
      obtain ⟨old, before, same⟩ := connections thread inside
      exact ledger ▸ same ▸ (known.connections old before).release

/-- The server thread has not called `sock_create_kern`. -/
def ServerPc.early : ServerPc → Bool
  | .kthread | .sockCreate => true
  | _ => false

/-- The server thread does not come back to its first statements. -/
theorem Server.early_of_run {before : Server} (taken : before.run = some server) (early : server.pc.early = true) :
    before.pc.early = true := by
  rcases position : before.pc with _ | _ | _ | _ | _ | _ | _ | _ | (_ | _ | _) | _ | _ | _ | _ | _ | _ | _
  all_goals simp only [Server.run, position, reduceCtorEq, Option.some.injEq] at taken
  all_goals subst taken
  case kthread | sockCreate => rfl
  case kernelAccept | kthreadShouldStop | reqskQueueEmpty => split at early <;> simp [ServerPc.early] at early
  all_goals simp [ServerPc.early] at early

theorem early_of_step {event : ResourceEvent} (taken : state.step event = some next)
    (early : next.server.pc.early = true) : state.server.pc.early = true := by
  cases event with
  | server event =>
      obtain ⟨server, step, rfl⟩ := Option.map_eq_some_iff.mp taken
      cases event with
      | thread => exact Server.early_of_run step early
      | threadFails err =>
          have fails : state.server.fails err = some server := step
          cases position : state.server.pc
          all_goals simp only [Server.fails, position, reduceCtorEq, Option.some.injEq] at fails
          all_goals subst fails
          all_goals simp [ServerPc.early] at early
      | arrive | wakeArrival | stop | wakeStop =>
          have wake (pc : ServerPc) : pc.wake.early = pc.early := by cases pc <;> rfl
          rcases Server.step_part step (by simp) (by simp) with position | position
          · rwa [position] at early
          · rwa [position, wake] at early
  | kmallocFails =>
      obtain ⟨_, _, _, ran, rfl⟩ := Resources.step_kmallocFails taken
      exact Server.early_of_run ran early
  | connection i =>
      obtain ⟨_, _, _, _, _, rfl⟩ := Resources.step_connection taken
      exact early
  | receive i err last =>
      obtain ⟨_, _, _, _, rfl⟩ := Resources.step_receive taken
      exact early

/-- Before the server thread has a socket its pointer is not set. -/
theorem unset_reached (reached : tcpServer.Reachable state) :
    state.server.pc.early = true → state.sock = .uninitialised := by
  refine reached.invariant (fun state => state.server.pc.early = true → state.sock = .uninitialised) ?_ ?_
  · rintro _ rfl _
    rfl
  · intro state event next _ unset _ taken early
    have before := unset (early_of_step taken early)
    cases change_step taken with
    | sockCreate _ _ _ _ position => simp [position, ServerPc.early] at early
    | keep sock | obtainClient _ sock | clearClient sock | kthreadCreate _ sock | release _ _ _ sock =>
        exact sock.trans before

theorem known_reached (reached : tcpServer.Reachable state) : Known state := by
  refine reached.invariant Known ?_ fun _ _ _ _ known _ taken => known.change (change_step taken)
  rintro _ rfl
  exact ⟨trivial, trivial, fun thread inside => by simp at inside⟩

/-- The server has made a faulty release or has lost an object. -/
def Spoiled (state : Resources) : Prop := state.ledger.faults ≠ [] ∨ ∃ key, Lost state key

/-- Nothing repairs what has been spoiled. -/
theorem Spoiled.step {event : ResourceEvent} (spoiled : Spoiled state) (taken : state.step event = some next) :
    Spoiled next := by
  have change := change_step taken
  rcases spoiled with faulty | ⟨key, lost⟩
  · left
    cases change with
    | keep _ _ _ ledger | clearClient _ _ _ ledger | kthreadCreate _ _ _ _ ledger => exact ledger ▸ faulty
    | sockCreate _ _ _ ledger | obtainClient _ _ _ _ ledger => exact ledger ▸ faulty
    | release _ _ _ _ _ _ ledger => exact ledger ▸ faults_release_ne_nil faulty
  · exact .inr ⟨key, lost.change change⟩

/-- The new object in `client_sock` is lost, because the next call overwrites the pointer. -/
theorem lost_obtainClient (known : Known state) (allocator : Allocator) (position : server.pc ≠ .kthreadCreate) :
    Lost { state.obtainClient allocator with server } state.ledger.store.size where
  live := by
    have found : (state.ledger.obtain allocator).Matches allocator state.ledger.fresh := matches_fresh
    exact Option.ne_none_iff_exists'.mpr ⟨allocator, found⟩
  sock := known.sock.ne_fresh
  clientSock here := absurd here position
  connections thread inside := (known.connections thread inside).ne_fresh

/-- Each step outside the condition spoils the run. -/
theorem spoiled_of_accepted {event : ResourceEvent} (reached : tcpServer.Reachable state)
    (accepted : ¬ unaccepted state event) : ∃ next, state.step event = some next ∧ Spoiled next := by
  have known := known_reached reached
  unfold unaccepted at accepted
  split at accepted
  · by_cases position : state.server.pc = .sockCreateClient
    · refine ⟨{ state.obtainClient .socket with server := { state.server with pc := .kernelAccept } }, ?_,
        .inr ⟨_, lost_obtainClient known .socket (by simp)⟩⟩
      simp [Resources.step, Server.step, Server.run, Resources.effect, Resources.run, position]
    · obtain ⟨position, waiting⟩ : state.server.pc = .reqskQueueEmpty ∧ state.server.acceptQueue ≠ 0 := by
        simpa [position] using accepted
      refine ⟨{ state.obtainClient .kmalloc with server := { state.server with pc := .sockCreateClient } }, ?_,
        .inr ⟨_, lost_obtainClient known .kmalloc (by simp)⟩⟩
      simp [Resources.step, Server.step, Server.run, Resources.effect, Resources.run, position, waiting]
  · next err =>
      have position : state.server.pc = .sockCreate := by simpa using accepted
      have unset := unset_reached reached (by rw [position]; rfl)
      refine ⟨{ state.releaseSock with server := { state.server with pc := .returned err } }, ?_, .inl ?_⟩
      · simp [Resources.step, Server.step, Server.fails, Resources.effect, Resources.fails, position]
      · exact faults_release_of_not_matches (by simp [unset, Ledger.Matches])
  · exact absurd trivial accepted

/-- A run that ends with every resource released has met the condition at each of its steps. -/
theorem unaccepted_of_released (reached : tcpServer.Reachable state) (ended : state.ended)
    (released : state.Released) : tcpServer.Reaches unaccepted state := by
  have clean : ¬ Spoiled state := by
    rintro (faulty | ⟨key, lost⟩)
    · exact faulty released.matched
    · exact lost.live (released.cleared ended key)
  have backward := reached.backward (fun state => ¬ Spoiled state)
    (fun _ _ _ taken clean spoiled => clean (spoiled.step taken)) clean
  refine backward.admit fun state event strong guarded => ?_
  by_contra accepted
  have reachable : tcpServer.Reachable state := strong.mono fun _ _ _ => trivial
  obtain ⟨next, taken, spoiled⟩ := spoiled_of_accepted reachable accepted
  exact guarded.2.2 next taken spoiled

end Exact

end KernelStudio.TcpServer
