/-
This file proves that the UDP server releases its socket once, which lines it logs for which datagrams, and when the
unloading of the module is safe.
-/

import KernelStudio.Construction.UdpServer
import Mathlib.Data.List.TakeWhile

namespace KernelStudio.UdpServer

open Framing Resource Transition

variable {beyond : List UInt8} {state next : State} {event : Event}

/-- The thread has a socket that it has not released. -/
def ThreadPc.holds : ThreadPc → Bool
  | .bind | .setsockopt | .kthreadShouldStop | .memset | .kernelRecvmsg | .log | .sockRelease | .releaseUnbound => true
  | _ => false

/-- The thread has not called `sock_create_kern` yet. -/
def ThreadPc.early : ThreadPc → Bool
  | .absent | .created | .kthread | .sockCreate => true
  | _ => false

theorem step_running (taken : state.step beyond event = some next) :
    state.crashed = false ∧ state.take beyond event = some next := by
  unfold State.step at taken
  split at taken
  · contradiction
  · rename_i running
    exact ⟨Bool.eq_false_iff.mpr running, taken⟩

/-- The steps of the server thread. -/
def Event.ofThread : Event → Bool
  | .thread | .threadFails | .receive _ | .receiveFails | .timeout => true
  | .init | .initFails | .exit => false

/-- What a step of the thread can do to the fields that the other parts of the module read. -/
structure Moves (state next : State) : Prop where
  init : next.init = state.init
  exit : next.exit = state.exit
  shouldStop : next.shouldStop = state.shouldStop
  crashed : next.crashed = state.crashed
  began : state.thread ≠ .absent ∧ state.thread ≠ .created ∧ state.thread ≠ .exited
  begins : next.thread ≠ .absent ∧ next.thread ≠ .created
  leaves : next.thread = .exited → state.shouldStop = true ∨ state.thread = .sockRelease ∨ state.thread = .return1
  releases : next.thread = .sockRelease → state.shouldStop = true
  clears : next.thread = .return1 → next.server = .null
  returns : state.thread = .return1 → next.thread = .exited
  server : next.server = state.server ∨ next.server = .null ∧ next.thread = .return1

/-- The thread moves as described, when it uses its socket only while the socket is live. -/
theorem moves_of_take (used : state.thread.holds = true → state.ledger.Matches () state.sock)
    (mine : event.ofThread = true) (taken : state.take beyond event = some next) : Moves state next := by
  cases event with
  | init | initFails | exit => simp [Event.ofThread] at mine
  | thread =>
      unfold State.take State.run State.use at taken
      constructor <;> grind -ring -linarith [ThreadPc.holds]
  | threadFails =>
      unfold State.take State.fails State.use at taken
      constructor <;> grind -ring -linarith [ThreadPc.holds]
  | receive _ | receiveFails | timeout =>
      unfold State.take State.received State.use at taken
      constructor <;> grind -ring -linarith [ThreadPc.holds]

/-- What the positions of the loading, the thread and the unloading say about each other. -/
structure Phases (state : State) : Prop where
  absent : state.init = .kthreadCreate ∨ state.init = .failed → state.thread = .absent
  created : state.init = .wakeUpProcess → state.thread = .created
  woken : state.init = .returned → state.thread ≠ .absent ∧ state.thread ≠ .created
  loaded : state.exit ≠ .test → state.init = .returned
  flagged : state.shouldStop = true → state.exit = .wait ∨ state.exit = .returned
  waiting : state.exit = .wait → state.shouldStop = true
  null : state.server = .null → state.thread = .absent ∨ state.thread = .return1 ∨ state.thread = .exited
  return1 : state.thread = .return1 → state.server = .null
  releasing : state.thread = .sockRelease → state.shouldStop = true
  exited : state.thread = .exited → state.shouldStop = true ∨ state.server = .null
  ended : state.exit = .returned → state.thread = .exited ∨ state.server = .null
  blamed : state.crashed = true → state.exit = .kthreadStop ∧ state.server = .null

theorem phases_initial (buf : List UInt8) : Phases { buf } := by
  constructor <;> simp

theorem phases_step (phases : Phases state) (used : state.thread.holds = true → state.ledger.Matches () state.sock)
    (taken : state.step beyond event = some next) : Phases next := by
  obtain ⟨running, taken⟩ := step_running taken
  obtain ⟨absent, created, woken, loaded, flagged, waiting, null, return1, releasing, exited, ended, blamed⟩ := phases
  by_cases mine : event.ofThread = true
  · obtain ⟨init, exit, shouldStop, crashed, began, begins, leaves, releases, clears, returns, server⟩ :=
      moves_of_take used mine taken
    constructor <;> grind -ring -linarith
  · cases event with
    | thread | threadFails | receive _ | receiveFails | timeout => simp [Event.ofThread] at mine
    | init =>
        unfold State.take State.load at taken
        constructor <;> grind -ring -linarith
    | initFails =>
        unfold State.take at taken
        constructor <;> grind -ring -linarith
    | exit =>
        unfold State.take State.unload at taken
        constructor <;> grind -ring -linarith

/-- The socket is the only object, and it is live exactly while the thread holds it. -/
structure Holding (state : State) : Prop where
  faults : state.ledger.faults = []
  once : state.ledger.store.size ≤ 1
  fresh : state.thread.early = true → state.ledger.store.size = 0
  held : state.thread.holds = true → state.ledger.Matches () state.sock
  only : ∀ key, (state.thread.holds = true → state.sock ≠ .object key) → state.ledger.store.get key = none

theorem holding_initial (buf : List UInt8) : Holding { buf } where
  faults := rfl
  once := Nat.zero_le 1
  fresh _ := rfl
  held holds := by simp [ThreadPc.holds] at holds
  only _ _ := rfl

/-- A use of the held socket does not crash. -/
theorem Holding.use (holding : Holding state) (holds : state.thread.holds = true) : state.use next = next :=
  if_pos (holding.held holds)

/-- The thread moves on with its socket, or without one. -/
theorem Holding.move (holding : Holding state) (ledger : next.ledger = state.ledger) (sock : next.sock = state.sock)
    (holds : next.thread.holds = state.thread.holds)
    (early : next.thread.early = true → state.thread.early = true) : Holding next where
  faults := ledger ▸ holding.faults
  once := ledger ▸ holding.once
  fresh before := ledger ▸ holding.fresh (early before)
  held now := by rw [ledger, sock]; exact holding.held (holds ▸ now)
  only key other := by
    rw [ledger]
    exact holding.only key fun now => sock ▸ other (holds ▸ now)

/-- The thread has got its socket. -/
theorem Holding.create (holding : Holding state) (position : state.thread = .sockCreate) :
    Holding { state with thread := .bind, sock := state.ledger.fresh, ledger := state.ledger.obtain () } where
  faults := holding.faults
  once := Nat.le_of_eq (congrArg (· + 1) (holding.fresh (position ▸ rfl)))
  fresh before := by simp [ThreadPc.early] at before
  held _ := matches_fresh
  only key other := by
    have cleared : state.ledger.Cleared := fun key => holding.only key fun now => by simp [position, ThreadPc.holds] at now
    exact cleared.obtain (other rfl)

/-- The thread has released its socket. -/
theorem Holding.release (holding : Holding state) (holds : state.thread.holds = true) {thread : ThreadPc}
    (leaves : thread.holds = false) (late : thread.early = false) :
    Holding { state with thread, ledger := state.ledger.release () state.sock } where
  faults := (faults_release (holding.held holds)).trans holding.faults
  once := size_release.trans_le holding.once
  fresh before := by simp [late] at before
  held now := by simp [leaves] at now
  only key _ := cleared_release (holding.held holds) (fun other different => holding.only other fun _ => different) key

/-- Each statement of the thread keeps the socket with the thread that holds it. -/
theorem Holding.run (holding : Holding state) (taken : state.run beyond = some next) : Holding next := by
  cases position : state.thread with
  | absent | created | kernelRecvmsg | exited => simp [State.run, position] at taken
  | sockCreate =>
      simp only [State.run, position, Option.some.injEq] at taken
      exact taken ▸ holding.create position
  | sockRelease | releaseUnbound =>
      simp only [State.run, position, Option.some.injEq] at taken
      exact taken ▸ holding.release (position ▸ rfl) rfl rfl
  | bind | setsockopt =>
      have holds : state.thread.holds = true := position ▸ rfl
      simp only [State.run, position, holding.use holds, Option.some.injEq] at taken
      exact taken ▸ holding.move rfl rfl holds.symm nofun
  | kthread =>
      simp only [State.run, position, Option.some.injEq] at taken
      subst taken
      cases stopped : state.shouldStop
      all_goals exact holding.move rfl rfl (position ▸ rfl) fun _ => position ▸ rfl
  | kthreadShouldStop =>
      simp only [State.run, position, Option.some.injEq] at taken
      subst taken
      cases stopped : state.shouldStop
      all_goals exact holding.move rfl rfl (position ▸ rfl) nofun
  | memset | log | clearServer | return1 =>
      simp only [State.run, position, Option.some.injEq] at taken
      exact taken ▸ holding.move rfl rfl (position ▸ rfl) nofun

/-- A failed call of the thread keeps the socket with the thread that holds it. -/
theorem Holding.fails (holding : Holding state) (taken : state.fails = some next) : Holding next := by
  cases position : state.thread with
  | sockCreate =>
      simp only [State.fails, position, Option.some.injEq] at taken
      exact taken ▸ holding.move rfl rfl (position ▸ rfl) nofun
  | bind | setsockopt =>
      have holds : state.thread.holds = true := position ▸ rfl
      simp only [State.fails, position, holding.use holds, Option.some.injEq] at taken
      exact taken ▸ holding.move rfl rfl holds.symm nofun
  | _ => simp [State.fails, position] at taken

/-- The return of `kernel_recvmsg` keeps the socket with the thread. -/
theorem Holding.received (holding : Holding state) {datagram : Option (List UInt8)}
    (taken : state.received datagram = some next) : Holding next := by
  cases position : state.thread with
  | kernelRecvmsg =>
      have holds : state.thread.holds = true := position ▸ rfl
      simp only [State.received, position, holding.use holds, Option.some.injEq] at taken
      subst taken
      cases datagram with
      | none => exact holding.move rfl rfl holds.symm nofun
      | some bytes => exact holding.move rfl rfl holds.symm nofun
  | _ => simp [State.received, position] at taken

/-- The parts of the module keep what they know about each other and about the socket. -/
theorem sound_step (phases : Phases state) (holding : Holding state)
    (taken : state.step beyond event = some next) : Phases next ∧ Holding next := by
  refine ⟨phases_step phases holding.held taken, ?_⟩
  obtain ⟨_, taken⟩ := step_running taken
  cases event with
  | init =>
      simp only [State.take, State.load] at taken
      split at taken
      · next position =>
          have absent : state.thread = .absent := phases.absent (.inl position)
          cases taken
          exact holding.move rfl rfl (absent ▸ rfl) fun _ => absent ▸ rfl
      · next position =>
          have created : state.thread = .created := phases.created position
          cases taken
          exact holding.move rfl rfl (created ▸ rfl) fun _ => created ▸ rfl
      all_goals cases taken
  | initFails =>
      obtain ⟨_, same⟩ := Option.ite_none_right_eq_some.mp taken
      cases same
      exact holding.move rfl rfl rfl id
  | thread => exact Holding.run holding taken
  | threadFails => exact Holding.fails holding taken
  | receive datagram => exact @Holding.received _ _ holding (some datagram) taken
  | receiveFails => exact @Holding.received _ _ holding none taken
  | timeout => exact Holding.received holding (Option.ite_none_right_eq_some.mp taken).2
  | exit =>
      simp only [State.take, State.unload] at taken
      split at taken
      · cases (Option.ite_none_right_eq_some.mp taken).2
        exact holding.move rfl rfl rfl id
      · split at taken <;> cases taken <;> exact holding.move rfl rfl rfl id
      · cases (Option.ite_none_right_eq_some.mp taken).2
        exact holding.move rfl rfl rfl id
      · cases taken

theorem sound_reached {guard : Guard State Event} (reached : (udpServer beyond).Reaches guard state) :
    Phases state ∧ Holding state := by
  refine reached.invariant (fun state => Phases state ∧ Holding state) ?_ ?_
  · rintro _ ⟨buf, _, rfl⟩
    exact ⟨phases_initial buf, holding_initial buf⟩
  · rintro state event next _ ⟨phases, holding⟩ _ taken
    exact sound_step phases holding taken

/-- In each run the thread gets one socket at most, releases it once on each of its paths, and has it whenever it uses
it. When it has returned, nothing is left. -/
theorem socket_released (reached : (udpServer beyond).Reachable state) :
    state.ledger.faults = [] ∧ state.ledger.store.size ≤ 1 ∧
      (state.thread.holds = true → state.ledger.Matches () state.sock) ∧
      (state.thread.holds = false → state.ledger.Cleared) := by
  obtain ⟨_, holding⟩ := sound_reached reached
  exact ⟨holding.faults, holding.once, holding.held,
    fun without key => holding.only key fun now => by simp [without] at now⟩

/-- The module with old values in its buffer. -/
def loaded : State := { buf := List.replicate bufLen 7 }

theorem start_loaded (beyond : List UInt8) : (udpServer beyond).start loaded :=
  ⟨List.replicate bufLen 7, List.length_replicate, rfl⟩

/-- The port is in use. -/
def unboundEvents : List Event :=
  [.init, .init, .thread, .thread, .threadFails, .thread, .thread, .thread]

theorem socket_released_unbound : ∃ state : State, state.thread = .exited ∧ state.ledger.store.size = 1 ∧
    state.ledger.Cleared := by
  have executed : ((udpServer []).execute loaded unboundEvents).map
      (fun state => (state.thread, state.ledger.store.size)) = some (.exited, 1) := by decide +kernel
  obtain ⟨state, reached, shown⟩ := Machine.execute_shows (start_loaded []) unboundEvents _ executed
  simp only [Prod.mk.injEq] at shown
  exact ⟨state, shown.1, shown.2, (socket_released reached).2.2.2 (by rw [shown.1]; rfl)⟩

/-- An unloading goes wrong only with a thread that has failed. It passes a null pointer to `kthread_stop` when the
thread clears `server` between the two reads, and it does not wait for a thread that has cleared `server` before. -/
theorem unload_blamed (reached : (udpServer beyond).Reachable state) :
    (state.crashed = true →
      state.exit = .kthreadStop ∧ state.server = .null ∧ (state.thread = .return1 ∨ state.thread = .exited)) ∧
      (state.exit = .returned → state.thread = .exited ∨ state.server = .null ∧ state.thread = .return1) := by
  obtain ⟨phases, _⟩ := sound_reached reached
  have cleared (left : state.exit ≠ .test) (null : state.server = .null) :
      state.thread = .return1 ∨ state.thread = .exited :=
    (phases.null null).resolve_left (phases.woken (phases.loaded left)).1
  constructor
  · intro crash
    obtain ⟨position, null⟩ := phases.blamed crash
    exact ⟨position, null, cleared (by simp [position]) null⟩
  · intro returned
    rcases phases.ended returned with left | null
    · exact .inl left
    · exact (cleared (by simp [returned]) null).symm.imp_right fun position => ⟨null, position⟩

/-- There is no memory for a socket, and the module is removed between the test and the call of `kthread_stop`. -/
def clearedEvents : List Event :=
  [.init, .init, .thread, .exit, .threadFails, .thread, .exit]

/-- The module is removed before the thread has returned. -/
def unloadedEvents : List Event :=
  [.init, .init, .thread, .threadFails, .thread, .exit]

theorem unload_blamed_early :
    (∃ state : State, state.crashed = true ∧ state.exit = .kthreadStop ∧ state.server = .null) ∧
      ∃ state : State, state.exit = .returned ∧ state.thread = .return1 ∧
        (state.thread = .exited ∨ state.server = .null ∧ state.thread = .return1) := by
  have cleared : ((udpServer []).execute loaded clearedEvents).map State.crashed = some true := by decide +kernel
  have unloaded : ((udpServer []).execute loaded unloadedEvents).map (fun state => (state.exit, state.thread)) =
      some (.returned, .return1) := by decide +kernel
  obtain ⟨first, reachedFirst, crashed⟩ := Machine.execute_shows (start_loaded []) clearedEvents _ cleared
  obtain ⟨second, reachedSecond, shown⟩ := Machine.execute_shows (start_loaded []) unloadedEvents _ unloaded
  simp only [Prod.mk.injEq] at shown
  obtain ⟨position, null, _⟩ := (unload_blamed reachedFirst).1 crashed
  exact ⟨⟨first, crashed, position, null⟩,
    second, shown.1, shown.2, (unload_blamed reachedSecond).2 shown.1⟩

/-- The thread gets its socket. The timeout of the socket may fail. -/
def opened : Guard State Event := fun state event => event = .threadFails → state.thread = .setsockopt

instance (state : State) (event : Event) : Decidable (opened state event) := inferInstanceAs (Decidable (_ → _))

/-- The thread has not taken an error path. -/
structure Opened (state : State) : Prop where
  null : state.server = .null → state.thread = .absent
  path : state.thread ≠ .releaseUnbound ∧ state.thread ≠ .clearServer ∧ state.thread ≠ .return1

theorem opened_step (now : Opened state) (phases : Phases state)
    (used : state.thread.holds = true → state.ledger.Matches () state.sock) (admitted : opened state event)
    (taken : state.step beyond event = some next) : Opened next := by
  obtain ⟨_, taken⟩ := step_running taken
  obtain ⟨null, path⟩ := now
  have created := phases.created
  cases event with
  | init =>
      unfold State.take State.load at taken
      constructor <;> grind -ring -linarith
  | initFails =>
      unfold State.take at taken
      constructor <;> grind -ring -linarith
  | thread =>
      unfold State.take State.run State.use at taken
      constructor <;> grind -ring -linarith [ThreadPc.holds]
  | threadFails =>
      have position := admitted rfl
      unfold State.take State.fails State.use at taken
      constructor <;> grind -ring -linarith [ThreadPc.holds]
  | receive _ | receiveFails | timeout =>
      unfold State.take State.received State.use at taken
      constructor <;> grind -ring -linarith [ThreadPc.holds]
  | exit =>
      unfold State.take State.unload at taken
      constructor <;> grind -ring -linarith

/-- The statements that are left to a stopped thread. -/
def ThreadPc.remaining : ThreadPc → Nat
  | .kthread | .sockRelease => 1
  | .kthreadShouldStop => 2
  | .setsockopt | .log => 3
  | .bind | .kernelRecvmsg => 4
  | .sockCreate | .memset => 5
  | _ => 0

/-- Each statement of a stopped thread brings it closer to its return. -/
theorem remaining_lt (now : Opened state) (used : state.thread.holds = true → state.ledger.Matches () state.sock)
    (stopped : state.shouldStop = true) (mine : event.ofThread = true) (admitted : opened state event)
    (taken : state.take beyond event = some next) : next.thread.remaining < state.thread.remaining := by
  obtain ⟨_, path⟩ := now
  cases event with
  | init | initFails | exit => simp [Event.ofThread] at mine
  | thread =>
      unfold State.take State.run State.use at taken
      grind -ring -linarith [ThreadPc.holds, ThreadPc.remaining]
  | threadFails =>
      have position := admitted rfl
      unfold State.take State.fails State.use at taken
      grind -ring -linarith [ThreadPc.holds, ThreadPc.remaining]
  | receive _ | receiveFails | timeout =>
      unfold State.take State.received State.use at taken
      grind -ring -linarith [ThreadPc.holds, ThreadPc.remaining]

/-- A thread that has begun and not returned can go on, when its wait for a datagram has a timeout. -/
theorem exists_take (running : state.crashed = false)
    (began : state.thread ≠ .absent ∧ state.thread ≠ .created ∧ state.thread ≠ .exited)
    (timed : state.thread = .kernelRecvmsg → state.timeo = true) :
    ∃ event next, (event = .thread ∨ event = .timeout) ∧ state.step beyond event = some next := by
  simp only [State.step, running, Bool.false_eq_true, if_false]
  by_cases waits : state.thread = .kernelRecvmsg
  · obtain ⟨next, taken⟩ : ∃ next, state.received none = some next := by
      rw [State.received, waits]
      exact ⟨_, rfl⟩
    exact ⟨.timeout, next, .inr rfl, (if_pos (timed waits)).trans taken⟩
  · obtain ⟨next, taken⟩ : ∃ next, state.run beyond = some next := by
      unfold State.run
      split <;> simp_all
    exact ⟨.thread, next, .inl rfl, taken⟩

/-- With a thread that has got its socket the unloading never uses a wrong pointer, and it returns only after the thread
has returned and released the socket. While it waits, each statement of the thread brings the end closer, and
the next one needs nothing from the network. -/
theorem unload_waits (reached : (udpServer beyond).Reaches opened state) :
    state.crashed = false ∧ (state.exit = .returned → state.thread = .exited ∧ state.ledger.Cleared) ∧
      (state.exit = .wait →
        (∀ event next, event.ofThread = true → opened state event → state.step beyond event = some next →
          next.thread.remaining < state.thread.remaining) ∧
        (state.thread ≠ .exited → (state.thread = .kernelRecvmsg → state.timeo = true) →
          ∃ event next, (event = .thread ∨ event = .timeout) ∧ state.step beyond event = some next)) := by
  obtain ⟨phases, holding⟩ := sound_reached reached
  have now : Opened state := by
    refine reached.invariant Opened ?_ ?_
    · rintro _ ⟨buf, _, rfl⟩
      constructor <;> simp
    · intro state event next before now admitted taken
      obtain ⟨phases, holding⟩ := sound_reached before
      exact opened_step now phases holding.held admitted taken
  have loaded (left : state.exit ≠ .test) : state.server ≠ .null := fun null =>
    (phases.woken (phases.loaded left)).1 (now.null null)
  have running : state.crashed = false := by
    by_contra crash
    obtain ⟨position, null⟩ := phases.blamed (by simpa using crash)
    exact loaded (by simp [position]) null
  refine ⟨running, fun returned => ?_, fun waiting => ⟨?_, fun alive timed => ?_⟩⟩
  · have left : state.thread = .exited := (phases.ended returned).resolve_right (loaded (by simp [returned]))
    exact ⟨left, fun key => holding.only key fun holds => by simp [left, ThreadPc.holds] at holds⟩
  · intro event next mine admitted taken
    exact remaining_lt now holding.held (phases.waiting waiting) mine admitted (step_running taken).2
  · have began := phases.woken (phases.loaded (by simp [waiting]))
    exact exists_take running ⟨began.1, began.2, alive⟩ timed

/-- The module is removed while its thread waits for a datagram. -/
def silentEvents : List Event :=
  [.init, .init] ++ List.replicate 6 .thread ++ [.exit, .exit]

theorem unload_waits_silent : ∃ state : State, state.thread = .kernelRecvmsg ∧ state.exit = .wait ∧
    state.crashed = false ∧ ∃ event next, (event = .thread ∨ event = .timeout) ∧
      state.step [] event = some next := by
  have admitted : (udpServer []).admits opened loaded silentEvents = true := by decide +kernel
  have executed : ((udpServer []).execute loaded silentEvents).map
      (fun state => (state.thread, state.exit, state.timeo)) = some (.kernelRecvmsg, .wait, true) := by decide +kernel
  obtain ⟨state, reached, shown⟩ := Machine.admits_shows (start_loaded []) silentEvents admitted _ executed
  simp only [Prod.mk.injEq] at shown
  obtain ⟨running, _, waits⟩ := unload_waits reached
  exact ⟨state, shown.1, shown.2.1, running,
    (waits shown.2.1).2 (by rw [shown.1]; decide) fun _ => shown.2.2⟩

/-- The line that is logged for a datagram. -/
def line (beyond datagram : List UInt8) : List UInt8 :=
  shown beyond (copied datagram (List.replicate bufLen 0))

/-- What the buffer and the log hold after these datagrams. -/
structure Logging (beyond : List UInt8) (state : State) (datagrams : List (List UInt8)) : Prop where
  cleared : state.thread = .kernelRecvmsg → state.buf = List.replicate bufLen 0
  filled : state.thread = .log → ∃ earlier datagram, datagrams = earlier ++ [datagram] ∧
    state.log = earlier.map (line beyond) ∧ state.buf = copied datagram (List.replicate bufLen 0)
  even : state.thread ≠ .log → state.log = datagrams.map (line beyond)

variable {datagrams : List (List UInt8)}

/-- A step that does not concern a datagram keeps the log. -/
theorem Logging.keep (logging : Logging beyond state datagrams) (log : next.log = state.log)
    (before : state.thread ≠ .log) (after : next.thread ≠ .log) (waits : next.thread ≠ .kernelRecvmsg) :
    Logging beyond next datagrams where
  cleared position := absurd position waits
  filled position := absurd position after
  even _ := log.trans (logging.even before)

/-- The thread logs the datagram that is in its buffer, and receives into an empty buffer. -/
theorem Logging.run (logging : Logging beyond state datagrams)
    (used : state.thread.holds = true → state.ledger.Matches () state.sock)
    (taken : state.run beyond = some next) : Logging beyond next datagrams := by
  have use {other : State} (holds : state.thread.holds = true) : state.use other = other := if_pos (used holds)
  cases position : state.thread with
  | absent | created | kernelRecvmsg | exited => simp [State.run, position] at taken
  | bind | setsockopt =>
      simp only [State.run, position, use (position ▸ rfl), Option.some.injEq] at taken
      exact taken ▸ logging.keep rfl (by simp [position]) nofun nofun
  | memset =>
      simp only [State.run, position, Option.some.injEq] at taken
      subst taken
      exact ⟨fun _ => rfl, nofun, fun _ => logging.even (by simp [position])⟩
  | log =>
      simp only [State.run, position, Option.some.injEq] at taken
      subst taken
      obtain ⟨earlier, datagram, rfl, log, buf⟩ := logging.filled position
      refine ⟨nofun, nofun, fun _ => ?_⟩
      rw [List.map_append, log, buf]
      rfl
  | kthread | kthreadShouldStop =>
      simp only [State.run, position, Option.some.injEq] at taken
      subst taken
      cases stopped : state.shouldStop
      all_goals exact logging.keep rfl (by simp [position]) (by simp) (by simp)
  | sockCreate | sockRelease | releaseUnbound | clearServer | return1 =>
      simp only [State.run, position, Option.some.injEq] at taken
      exact taken ▸ logging.keep rfl (by simp [position]) nofun nofun

/-- A failed call of the thread keeps the log. -/
theorem Logging.fails (logging : Logging beyond state datagrams)
    (used : state.thread.holds = true → state.ledger.Matches () state.sock)
    (taken : state.fails = some next) : Logging beyond next datagrams := by
  have use {other : State} (holds : state.thread.holds = true) : state.use other = other := if_pos (used holds)
  cases position : state.thread with
  | sockCreate =>
      simp only [State.fails, position, Option.some.injEq] at taken
      exact taken ▸ logging.keep rfl (by simp [position]) nofun nofun
  | bind | setsockopt =>
      simp only [State.fails, position, use (position ▸ rfl), Option.some.injEq] at taken
      exact taken ▸ logging.keep rfl (by simp [position]) nofun nofun
  | _ => simp [State.fails, position] at taken

/-- The thread receives a datagram into an empty buffer, or nothing. -/
theorem Logging.received (logging : Logging beyond state datagrams)
    (used : state.thread.holds = true → state.ledger.Matches () state.sock) (datagram : Option (List UInt8))
    (taken : state.received datagram = some next) : Logging beyond next (datagrams ++ datagram.toList) := by
  have use {other : State} (holds : state.thread.holds = true) : state.use other = other := if_pos (used holds)
  cases position : state.thread with
  | kernelRecvmsg =>
      have even := logging.even (by simp [position])
      simp only [State.received, position, use (position ▸ rfl), Option.some.injEq] at taken
      subst taken
      cases datagram with
      | none => exact ⟨nofun, nofun, fun _ => by simpa using even⟩
      | some bytes =>
          refine ⟨nofun, fun _ => ⟨datagrams, bytes, rfl, even, ?_⟩, nofun⟩
          rw [← logging.cleared position]
  | _ => simp [State.received, position] at taken

theorem logging_step (logging : Logging beyond state datagrams) (phases : Phases state)
    (used : state.thread.holds = true → state.ledger.Matches () state.sock)
    (taken : state.step beyond event = some next) : Logging beyond next (datagrams ++ handed state event) := by
  obtain ⟨_, taken⟩ := step_running taken
  cases event with
  | init =>
      change Logging beyond next (datagrams ++ [])
      rw [List.append_nil]
      simp only [State.take, State.load] at taken
      split at taken
      · next position =>
          cases taken
          exact logging.keep rfl (by simp [phases.absent (.inl position)]) nofun nofun
      · next position =>
          cases taken
          exact logging.keep rfl (by simp [phases.created position]) nofun nofun
      all_goals cases taken
  | initFails =>
      change Logging beyond next (datagrams ++ [])
      rw [List.append_nil]
      obtain ⟨_, same⟩ := Option.ite_none_right_eq_some.mp taken
      cases same
      exact ⟨logging.cleared, logging.filled, logging.even⟩
  | thread => simpa [handed] using Logging.run logging used taken
  | threadFails => simpa [handed] using Logging.fails logging used taken
  | receive datagram => exact Logging.received logging used (some datagram) taken
  | receiveFails => exact Logging.received logging used none taken
  | timeout => exact Logging.received logging used none (Option.ite_none_right_eq_some.mp taken).2
  | exit =>
      change Logging beyond next (datagrams ++ [])
      rw [List.append_nil]
      simp only [State.take, State.unload] at taken
      split at taken
      · cases (Option.ite_none_right_eq_some.mp taken).2
        exact ⟨logging.cleared, logging.filled, logging.even⟩
      · split at taken <;> cases taken <;> exact ⟨logging.cleared, logging.filled, logging.even⟩
      · cases (Option.ite_none_right_eq_some.mp taken).2
        exact ⟨logging.cleared, logging.filled, logging.even⟩
      · cases taken

/-- A line is its datagram exactly for a text that is shorter than the buffer, or whose end happens to follow
the buffer in memory. -/
theorem line_eq_iff (beyond datagram : List UInt8) :
    line beyond datagram = datagram ↔
      0 ∉ datagram ∧ (datagram.length < bufLen ∨ datagram.drop bufLen = text 0 beyond) := by
  have cells : copied datagram (List.replicate bufLen 0) =
      datagram.take bufLen ++ List.replicate (bufLen - datagram.length) 0 := by
    rw [copied, List.drop_replicate, List.length_take]
    congr 2
    omega
  have plain (same : line beyond datagram = datagram) : 0 ∉ datagram := by
    intro known
    rw [← same] at known
    simpa using List.mem_takeWhile_imp known
  constructor
  · intro same
    refine ⟨plain same, ?_⟩
    by_cases short : datagram.length < bufLen
    · exact .inl short
    · right
      have free : 0 ∉ datagram.take bufLen := fun known => plain same (List.mem_of_mem_take known)
      rw [line, shown, cells, Nat.sub_eq_zero_of_le (Nat.le_of_not_lt short), List.replicate_zero, List.append_nil,
        text_append free] at same
      have whole := same.trans (List.take_append_drop bufLen datagram).symm
      exact (List.append_cancel_left whole).symm
  · rintro ⟨free, tail⟩
    by_cases short : datagram.length < bufLen
    · obtain ⟨more, length⟩ : ∃ more, bufLen - datagram.length = more + 1 := ⟨_, (Nat.succ_pred (by omega)).symm⟩
      rw [line, shown, cells, List.take_of_length_le (Nat.le_of_lt short), length, List.append_assoc, text_append free,
        List.replicate_succ, List.cons_append, text_zero_cons, List.append_nil]
    · have part : 0 ∉ datagram.take bufLen := fun known => free (List.mem_of_mem_take known)
      rw [line, shown, cells, Nat.sub_eq_zero_of_le (Nat.le_of_not_lt short), List.replicate_zero, List.append_nil,
        text_append part, ← tail.resolve_left short, List.take_append_drop]

/-- The log holds a line for each datagram, in the order of their arrival and without those of other datagrams. Only the
last datagram may still be without its line. -/
theorem datagrams_logged (reached : ((udpServer beyond).logged handed).Reaches free.logged (state, datagrams)) :
    state.log <+: datagrams.map (line beyond) ∧ datagrams.length ≤ state.log.length + 1 ∧
      ∀ datagram ∈ datagrams, line beyond datagram = datagram ↔
        0 ∉ datagram ∧ (datagram.length < bufLen ∨ datagram.drop bufLen = text 0 beyond) := by
  have logging : Logging beyond state datagrams := by
    refine reached.invariant (fun pair => Logging beyond pair.1 pair.2) ?_ ?_
    · rintro ⟨_, _⟩ ⟨⟨buf, _, rfl⟩, rfl⟩
      exact ⟨nofun, nofun, fun _ => rfl⟩
    · rintro ⟨state, datagrams⟩ event ⟨next, later⟩ before logging _ taken
      obtain ⟨step, rfl⟩ := Machine.logged_step taken
      obtain ⟨phases, holding⟩ := sound_reached before.forget
      exact logging_step logging phases holding.held step
  refine ⟨?_, ?_, fun datagram _ => line_eq_iff beyond datagram⟩
  · by_cases position : state.thread = .log
    · obtain ⟨earlier, datagram, rfl, log, _⟩ := logging.filled position
      rw [log, List.map_append]
      exact List.prefix_append _ _
    · simp only [logging.even position, List.prefix_rfl]
  · by_cases position : state.thread = .log
    · obtain ⟨earlier, datagram, rfl, log, _⟩ := logging.filled position
      simp [log]
    · simp [logging.even position]

/-- Two datagrams arrive, the second one with a zero in it. -/
def twoEvents : List Event :=
  [.init, .init] ++ List.replicate 6 .thread ++ [.receive [104, 105], .thread, .thread, .thread,
    .receive [111, 0, 107], .thread]

theorem datagrams_logged_two : ∃ state : State, state.log = [[104, 105], [111]] ∧
    state.log <+: [[104, 105], [111, 0, 107]].map (line []) := by
  have initial : ((udpServer []).logged handed).start (loaded, []) := ⟨start_loaded [], rfl⟩
  have executed : (((udpServer []).logged handed).execute (loaded, []) twoEvents).map
      (fun pair => (pair.1.log, pair.2)) =
        some ([[104, 105], [111]], [[104, 105], [111, 0, 107]]) := by decide +kernel
  obtain ⟨⟨state, datagrams⟩, reached, shown⟩ := Machine.execute_shows initial twoEvents _ executed
  simp only [Prod.mk.injEq] at shown
  obtain ⟨log, rfl⟩ := shown
  exact ⟨state, log, (datagrams_logged reached).1⟩

end KernelStudio.UdpServer
