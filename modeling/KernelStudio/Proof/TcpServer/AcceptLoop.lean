/-
This file proves that the server thread sleeps on no pending event, as long as the last wake-up of the event
does not come between the tests of the thread and its mark.
-/

import KernelStudio.Construction.TcpServer.AcceptLoop
import Mathlib.Tactic.Common

namespace KernelStudio.TcpServer

open Transition

/-- The server has a connection to accept or has been told to stop. -/
def Server.eventPending (server : Server) : Prop := server.acceptQueue ≠ 0 ∨ server.shouldStop = true

/-- A wake-up of the server thread is on its way. -/
def Server.wakePending (server : Server) : Prop := server.arrived ≠ 0 ∨ server.stopping = true

/-- The thread has found nothing to do and has not marked itself yet. -/
def Server.dozing (server : Server) : Bool :=
  match server.pc with
  | .reqskQueueEmpty => server.acceptQueue = 0
  | .addWaitQueue | .setCurrentState => true
  | _ => false

/-- The thread is on its way into `schedule()` or asleep there. -/
def Server.retiring (server : Server) : Bool :=
  match server.pc with
  | .reqskQueueEmpty => server.acceptQueue = 0
  | .addWaitQueue | .setCurrentState | .schedule .interruptible | .schedule .asleep => true
  | _ => false

/-- The label delivers the only wake-up that is on its way. -/
def Server.lastWake (server : Server) : Event → Prop
  | .wakeArrival => server.arrived = 1 ∧ server.stopping = false
  | .wakeStop => server.arrived = 0
  | _ => False

/-- The last wake-up of a pending event does not find the thread before its mark. -/
def wakesHeard (server : Server) (event : Event) : Prop :=
  server.lastWake event → server.eventPending → server.dozing = false

instance (server : Server) : Decidable server.eventPending := inferInstanceAs (Decidable (_ ∨ _))

instance (server : Server) (event : Event) : Decidable (server.lastWake event) :=
  match event with
  | .wakeArrival => inferInstanceAs (Decidable (_ ∧ _))
  | .wakeStop => inferInstanceAs (Decidable (_ = _))
  | .thread | .threadFails _ | .arrive | .stop => isFalse id

instance (server : Server) (event : Event) : Decidable (wakesHeard server event) :=
  inferInstanceAs (Decidable (_ → _ → _))

/-- The thread stands on the wait queue from `add_wait_queue` to `remove_wait_queue`, and while it retires with
an event pending a wake-up is on its way. -/
structure Attentive (server : Server) : Prop where
  enqueued : ∀ state, server.pc = .schedule state → server.onWaitQueue = true
  marking : server.pc = .setCurrentState → server.onWaitQueue = true
  expected : server.retiring = true → server.eventPending → server.wakePending

variable {server next : Server}

theorem attentive_initial : Attentive {} where
  enqueued _ position := by simp at position
  marking position := by simp at position
  expected retiring := by simp [Server.retiring] at retiring

/-- The position is outside the part of the loop that leads into `schedule()`. -/
def ServerPc.busy : ServerPc → Bool
  | .reqskQueueEmpty | .addWaitQueue | .setCurrentState | .schedule _ => false
  | _ => true

theorem attentive_busy (busy : server.pc.busy = true) : Attentive server where
  enqueued state position := by simp [position, ServerPc.busy] at busy
  marking position := by simp [position, ServerPc.busy] at busy
  expected retiring := by
    unfold Server.retiring at retiring
    split at retiring
    all_goals simp_all [ServerPc.busy]

/-- One statement of the server thread keeps the invariant. -/
theorem attentive_run (attentive : Attentive server) (taken : server.run = some next) : Attentive next := by
  have enqueued := attentive.enqueued
  have marking := attentive.marking
  have expected := attentive.expected
  rcases position : server.pc with _ | _ | _ | _ | _ | _ | _ | _ | (_ | _ | _) | _ | _ | _ | _ | _ | _ | _
  all_goals simp only [Server.run, position, reduceCtorEq, Option.some.injEq] at taken
  all_goals subst taken
  all_goals simp only [Server.retiring, Server.eventPending, Server.wakePending, position, reduceCtorEq,
    ServerPc.schedule.injEq] at enqueued marking expected
  -- the two tests decide whether the thread retires
  case kthreadShouldStop =>
    by_cases stop : server.shouldStop = true
    · exact attentive_busy (by simp [stop, ServerPc.busy])
    · constructor
      all_goals simp only [stop, Bool.false_eq_true, if_false, reduceCtorEq, false_implies, implies_true]
      intro empty pending
      simp_all [Server.retiring, Server.eventPending]
  case reqskQueueEmpty =>
    by_cases empty : server.acceptQueue = 0
    · constructor
      all_goals simp_all [Server.eventPending, Server.wakePending]
    · exact attentive_busy (by simp [empty, ServerPc.busy])
  case addWaitQueue | setCurrentState | schedule.interruptible =>
    constructor
    all_goals simp_all [Server.retiring, Server.eventPending, Server.wakePending]
  case kthread | kernelAccept => exact attentive_busy (by split <;> rfl)
  all_goals exact attentive_busy rfl

/-- Outside `schedule()` a wake-up does nothing. -/
theorem Server.wakeUpProcess_self (server : Server) (awake : ∀ state, server.pc ≠ .schedule state) :
    server.wakeUpProcess = server := by
  have same : server.pc.wake = server.pc := by
    cases position : server.pc
    case schedule state => exact absurd position (awake state)
    all_goals rfl
  rw [wakeUpProcess, same]

/-- Outside `schedule()` a thread that retires has not marked itself. -/
theorem Server.dozing_of_retiring (awake : ∀ state, server.pc ≠ .schedule state) (retiring : server.retiring = true) :
    server.dozing = true := by
  unfold Server.retiring at retiring
  unfold Server.dozing
  split at retiring
  all_goals simp_all

/-- A wake-up that is taken off its way wakes the thread, or another wake-up of its event follows. -/
theorem attentive_deliver (attentive : Attentive server) (arrived : Nat) (stopping : Bool)
    (heard : server.eventPending → server.dozing = true → arrived ≠ 0 ∨ stopping = true) :
    Attentive { server with arrived, stopping }.wakeUpProcess := by
  by_cases marked : ∃ state, server.pc = .schedule state
  · obtain ⟨state, position⟩ := marked
    constructor
    · exact fun _ _ => attentive.enqueued state position
    · exact fun marks => by simp [Server.wakeUpProcess, position, ServerPc.wake] at marks
    · exact fun retiring => by simp [Server.wakeUpProcess, position, ServerPc.wake, Server.retiring] at retiring
  · have awake : ∀ state, server.pc ≠ .schedule state := fun state position => marked ⟨state, position⟩
    rw [Server.wakeUpProcess_self { server with arrived, stopping } awake]
    exact
      { enqueued := attentive.enqueued
        marking := attentive.marking
        expected := fun retiring pending => heard pending (Server.dozing_of_retiring awake retiring) }

/-- The wait queue wakes a thread that stands on it, and only such a thread is inside `schedule()`. -/
theorem attentive_wakeArrival (attentive : Attentive server) (heard : wakesHeard server .wakeArrival)
    (more : server.arrived ≠ 0) : Attentive (
      if server.onWaitQueue then { server with arrived := server.arrived - 1 }.wakeUpProcess
      else { server with arrived := server.arrived - 1 }) := by
  have delivered := attentive_deliver attentive (server.arrived - 1) server.stopping fun pending dozing => by
    by_contra last
    have quiet := heard ⟨by omega, by simpa using fun stop => last (.inr stop)⟩ pending
    simp [dozing] at quiet
  split
  · exact delivered
  · rename_i absent
    have awake (state : TaskState) (position : server.pc = .schedule state) : False :=
      absent (attentive.enqueued state position)
    rwa [Server.wakeUpProcess_self { server with arrived := server.arrived - 1 } awake] at delivered

/-- Each label keeps the invariant as long as the wake-ups are heard. -/
theorem attentive_step {event : Event} (attentive : Attentive server) (heard : wakesHeard server event)
    (taken : server.step event = some next) : Attentive next := by
  cases event with
  | thread => exact attentive_run attentive taken
  | threadFails err =>
      rcases position : server.pc with _ | _ | _ | _ | _ | _ | _ | _ | (_ | _ | _) | _ | _ | _ | _ | _ | _ | _
      all_goals simp only [Server.step, Server.fails, position, reduceCtorEq, Option.some.injEq] at taken
      all_goals subst taken
      all_goals exact attentive_busy rfl
  | arrive =>
      simp only [Server.step, Option.ite_none_right_eq_some, Option.some.injEq] at taken
      obtain ⟨_, rfl⟩ := taken
      exact
        { enqueued := attentive.enqueued
          marking := attentive.marking
          expected := fun _ _ => .inl (Nat.succ_ne_zero _) }
  | wakeArrival =>
      simp only [Server.step, Option.ite_none_left_eq_some, Option.some.injEq] at taken
      obtain ⟨more, rfl⟩ := taken
      exact attentive_wakeArrival attentive heard more
  | stop =>
      simp only [Server.step, Option.ite_none_left_eq_some, Option.some.injEq] at taken
      obtain ⟨_, rfl⟩ := taken
      exact
        { enqueued := attentive.enqueued
          marking := attentive.marking
          expected := fun _ _ => .inr rfl }
  | wakeStop =>
      simp only [Server.step, Option.ite_none_right_eq_some, Option.some.injEq] at taken
      obtain ⟨_, rfl⟩ := taken
      refine attentive_deliver attentive server.arrived false fun pending dozing => .inl fun none => ?_
      have quiet := heard none pending
      simp [dozing] at quiet

/-- The invariant holds in each run whose wake-ups are heard. -/
theorem attentive_reached (reached : acceptLoop.Reaches wakesHeard server) : Attentive server := by
  refine reached.invariant Attentive ?_ fun _ _ _ _ attentive heard taken => attentive_step attentive heard taken
  rintro _ rfl
  exact attentive_initial

/-- The thread sleeps although an event is pending and no wake-up is on its way. -/
def Server.Stuck (server : Server) : Prop :=
  server.pc = .schedule .asleep ∧ ¬ server.wakePending ∧ server.eventPending

/-- While the last wake-up of each pending event finds the thread outside the stretch between its tests and its
mark, the thread never sleeps on a pending event. -/
theorem events_heard {server : Server} (reached : acceptLoop.Reaches wakesHeard server) : ¬ server.Stuck := by
  rintro ⟨asleep, unwoken, pending⟩
  exact unwoken ((attentive_reached reached).expected (by simp [Server.retiring, asleep]) pending)

/-- The thread boots and falls asleep on an empty queue. -/
def bootEvents : List Event := List.replicate 9 .thread

/-- A connection arrives while the thread sleeps, and its wake-up is still on its way. -/
theorem events_heard_arrival : ∃ server : Server, server.pc = .schedule .asleep ∧ server.acceptQueue = 1 ∧
    ¬ server.Stuck := by
  have initial : acceptLoop.start {} := rfl
  have admitted : acceptLoop.admits wakesHeard {} (bootEvents ++ [.arrive]) = true := by decide
  have executed : (acceptLoop.execute {} (bootEvents ++ [.arrive])).map
      (fun server => (server.pc, server.acceptQueue)) = some (.schedule .asleep, 1) := by decide
  obtain ⟨server, reached, shown⟩ := Machine.admits_shows initial (bootEvents ++ [.arrive]) admitted _ executed
  simp only [Prod.mk.injEq] at shown
  exact ⟨server, shown.1, shown.2, events_heard reached⟩

/-- A connection arrives after the thread has found the queue empty and before it joins the wait queue. -/
def lateArrivalEvents : List Event :=
  List.replicate 6 .thread ++ [.arrive, .wakeArrival] ++ List.replicate 3 .thread

/-- The module is removed after the thread has tested its stop flag and before it marks itself. -/
def lateStopEvents : List Event :=
  List.replicate 7 .thread ++ [.stop, .wakeStop] ++ List.replicate 2 .thread

/-- The thread sleeps on a connection, and it sleeps on the stop flag. -/
theorem event_missed :
    (∃ server, acceptLoop.Reachable server ∧ server.Stuck ∧ server.acceptQueue = 1) ∧
      ∃ server, acceptLoop.Reachable server ∧ server.Stuck ∧ server.shouldStop = true := by
  have initial : acceptLoop.start {} := rfl
  have arrival : (acceptLoop.execute {} lateArrivalEvents).map
      (fun server => (server.pc, server.acceptQueue, server.arrived, server.stopping)) =
      some (.schedule .asleep, 1, 0, false) := by decide
  have stop : (acceptLoop.execute {} lateStopEvents).map
      (fun server => (server.pc, server.shouldStop, server.arrived, server.stopping)) =
      some (.schedule .asleep, true, 0, false) := by decide
  obtain ⟨first, reachedFirst, shownFirst⟩ := Machine.execute_shows initial lateArrivalEvents _ arrival
  obtain ⟨second, reachedSecond, shownSecond⟩ := Machine.execute_shows initial lateStopEvents _ stop
  simp only [Prod.mk.injEq] at shownFirst shownSecond
  refine ⟨⟨first, reachedFirst, ⟨shownFirst.1, ?_, ?_⟩, shownFirst.2.1⟩,
    second, reachedSecond, ⟨shownSecond.1, ?_, .inr shownSecond.2.1⟩, shownSecond.2.1⟩
  · simp [Server.wakePending, shownFirst]
  · simp [Server.eventPending, shownFirst]
  · simp [Server.wakePending, shownSecond]

/-- A thread that goes to its mark without a wake-up on its way falls asleep on the pending event. -/
theorem dozing_stuck (dozing : server.dozing = true) (pending : server.eventPending)
    (unwoken : ¬ server.wakePending) :
    ∃ count final, acceptLoop.execute server (List.replicate count .thread) = some final ∧ final.Stuck := by
  cases position : server.pc
  all_goals simp only [Server.dozing, position, Bool.false_eq_true, decide_eq_true_eq] at dozing
  case reqskQueueEmpty =>
    refine ⟨4, { server with pc := .schedule .asleep, onWaitQueue := true }, ?_, rfl, unwoken, pending⟩
    simp [List.replicate, Machine.execute, acceptLoop, Server.step, Server.run, position, dozing]
  case addWaitQueue =>
    refine ⟨3, { server with pc := .schedule .asleep, onWaitQueue := true }, ?_, rfl, unwoken, pending⟩
    simp [List.replicate, Machine.execute, acceptLoop, Server.step, Server.run, position]
  case setCurrentState =>
    refine ⟨2, { server with pc := .schedule .asleep }, ?_, rfl, unwoken, pending⟩
    simp [List.replicate, Machine.execute, acceptLoop, Server.step, Server.run, position]

/-- Each wake-up that is not heard can leave the thread asleep on its event. -/
theorem unheard_stuck {event : Event} (unheard : ¬ wakesHeard server event)
    (taken : server.step event = some next) :
    ∃ count final, acceptLoop.execute next (List.replicate count .thread) = some final ∧ final.Stuck := by
  obtain ⟨last, pending, dozing⟩ : server.lastWake event ∧ server.eventPending ∧ server.dozing = true := by
    simpa [wakesHeard] using unheard
  have awake (state : TaskState) (position : server.pc = .schedule state) : False := by
    simp [Server.dozing, position] at dozing
  cases event with
  | wakeArrival =>
      obtain ⟨one, quiet⟩ := last
      have unwoken : ¬ { server with arrived := server.arrived - 1 }.wakePending := by
        simp [Server.wakePending, one, quiet]
      simp only [Server.step, Option.ite_none_left_eq_some, Option.some.injEq] at taken
      rw [Server.wakeUpProcess_self { server with arrived := server.arrived - 1 } awake, ite_self] at taken
      exact taken.2 ▸ dozing_stuck dozing pending unwoken
  | wakeStop =>
      have none : server.arrived = 0 := last
      have unwoken : ¬ { server with stopping := false }.wakePending := by simp [Server.wakePending, none]
      simp only [Server.step, Option.ite_none_right_eq_some, Option.some.injEq] at taken
      rw [Server.wakeUpProcess_self { server with stopping := false } awake] at taken
      exact taken.2 ▸ dozing_stuck dozing pending unwoken
  | thread | threadFails _ | arrive | stop => exact last.elim

end KernelStudio.TcpServer
