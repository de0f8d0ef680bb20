/-
This file proves what the TCP client sends, which of its paths release a socket that exists, and when its unloading is safe.
-/

import KernelStudio.Construction.TcpClient

namespace KernelStudio.TcpClient

open Resource Transition

variable {state next : State} {event : Event}

/-- The thread has a socket that it has not released. -/
def ThreadPc.holds : ThreadPc → Bool
  | .kernelConnect | .memset | .strcpy | .ktcpSend | .kthreadShouldStop | .schedule | .sockRelease
  | .releaseUnconnected _ => true
  | _ => false

/-- The thread has not got a socket yet, or it has been told that there is none. -/
def ThreadPc.early : ThreadPc → Bool
  | .absent | .created | .kthread | .sockCreate | .releaseUncreated _ => true
  | _ => false

/-- The thread has not called `ktcp_send` yet. -/
def ThreadPc.unsent : ThreadPc → Bool
  | .kernelConnect | .memset | .strcpy | .ktcpSend => true
  | pc => pc.early

theorem step_running (taken : state.step event = some next) : state.crashed = false ∧ state.take event = some next := by
  unfold State.step at taken
  split at taken
  · contradiction
  · rename_i running
    exact ⟨Bool.eq_false_iff.mpr running, taken⟩

/-- The socket is live exactly while the thread holds it. Only a thread without a socket makes a faulty release. -/
structure Holding (state : State) : Prop where
  once : state.ledger.store.size ≤ 1
  fresh : state.thread.early = true →
    state.ledger.store.size = 0 ∧ state.sock = .uninitialised ∧ state.ledger.faults = []
  held : state.thread.holds = true → state.ledger.Matches () state.sock
  only : ∀ key, (state.thread.holds = true → state.sock ≠ .object key) → state.ledger.store.get key = none
  faults : state.ledger.faults ≠ [] →
    state.ledger.faults = [((), .uninitialised)] ∧ state.thread.ended = true ∧ state.ledger.store.size = 0

theorem holding_initial : Holding {} where
  once := Nat.zero_le 1
  fresh _ := ⟨rfl, rfl, rfl⟩
  held holds := by simp [ThreadPc.holds] at holds
  only _ _ := rfl
  faults faulty := absurd rfl faulty

theorem Holding.use (holding : Holding state) (holds : state.thread.holds = true) : state.use next = next :=
  if_pos (holding.held holds)

/-- The thread moves on with its socket, or without one. -/
theorem Holding.move (holding : Holding state) (ledger : next.ledger = state.ledger) (sock : next.sock = state.sock)
    (holds : next.thread.holds = state.thread.holds) (early : next.thread.early = true → state.thread.early = true)
    (ended : state.thread.ended = true → next.thread.ended = true) : Holding next where
  once := ledger ▸ holding.once
  fresh before := by
    rw [ledger, sock]
    exact holding.fresh (early before)
  held now := by
    rw [ledger, sock]
    exact holding.held (holds ▸ now)
  only key other := by
    rw [ledger]
    exact holding.only key fun now => sock ▸ other (holds ▸ now)
  faults faulty := by
    rw [ledger] at faulty ⊢
    exact (holding.faults faulty).imp_right (And.imp_left ended)

/-- A thread that has not returned has made no faulty release. -/
theorem Holding.sound (holding : Holding state) (alive : state.thread.ended = false) : state.ledger.faults = [] := by
  by_contra faulty
  simp [(holding.faults faulty).2.1] at alive

/-- The thread has got its socket. -/
theorem Holding.create (holding : Holding state) (position : state.thread = .sockCreate) :
    Holding { state with thread := .kernelConnect, sock := state.ledger.fresh, ledger := state.ledger.obtain () } where
  once := Nat.le_of_eq (congrArg (· + 1) (holding.fresh (position ▸ rfl)).1)
  fresh before := by simp [ThreadPc.early] at before
  held _ := matches_fresh
  only key other := by
    have cleared : state.ledger.Cleared := fun key => holding.only key fun now => by simp [position, ThreadPc.holds] at now
    exact cleared.obtain (other rfl)
  faults faulty := absurd (holding.sound (position ▸ rfl)) faulty

/-- The thread returns after the release of its socket. -/
theorem Holding.release (holding : Holding state) (holds : state.thread.holds = true)
    (alive : state.thread.ended = false) (result : Int) :
    Holding { state with thread := .exited result, ledger := state.ledger.release () state.sock } where
  once := size_release.trans_le holding.once
  fresh before := by simp [ThreadPc.early] at before
  held now := by simp [ThreadPc.holds] at now
  only key _ := cleared_release (holding.held holds) (fun other different => holding.only other fun _ => different) key
  faults faulty := absurd ((faults_release (holding.held holds)).trans (holding.sound alive)) faulty

/-- The thread returns after the release of a pointer that it has not set. -/
theorem Holding.mistake (holding : Holding state) {err : Int} (position : state.thread = .releaseUncreated err) :
    Holding { state with thread := .exited err, ledger := state.ledger.release () state.sock } where
  once := size_release.trans_le holding.once
  fresh before := by simp [ThreadPc.early] at before
  held now := by simp [ThreadPc.holds] at now
  only key _ := by
    have unset := (holding.fresh (position ▸ rfl)).2.1
    change (state.ledger.release () state.sock).store.get key = none
    rw [get_release (by simp [unset])]
    exact holding.only key fun now => by simp [position, ThreadPc.holds] at now
  faults _ := by
    obtain ⟨size, unset, sound⟩ := holding.fresh (position ▸ rfl)
    refine ⟨?_, rfl, size_release.trans size⟩
    simp [Ledger.release, unset, sound, Ledger.Matches]

theorem Holding.run (holding : Holding state) (taken : state.run = some next) : Holding next := by
  cases position : state.thread with
  | absent | created | kernelConnect | ktcpSend | exited result => simp [State.run, position] at taken
  | sockCreate =>
      simp only [State.run, position, Option.some.injEq] at taken
      exact taken ▸ holding.create position
  | sockRelease | releaseUnconnected err =>
      simp only [State.run, position, Option.some.injEq] at taken
      exact taken ▸ holding.release (position ▸ rfl) (position ▸ rfl) _
  | releaseUncreated err =>
      simp only [State.run, position, Option.some.injEq] at taken
      exact taken ▸ holding.mistake position
  | kthread =>
      simp only [State.run, position, Option.some.injEq] at taken
      subst taken
      cases state.shouldStop
      all_goals exact holding.move rfl rfl (position ▸ rfl) (fun _ => position ▸ rfl) (by simp [position, ThreadPc.ended])
  | kthreadShouldStop =>
      simp only [State.run, position, Option.some.injEq] at taken
      subst taken
      cases state.shouldStop
      all_goals exact holding.move rfl rfl (position ▸ rfl) nofun (by simp [position, ThreadPc.ended])
  | memset | strcpy | schedule =>
      simp only [State.run, position, Option.some.injEq] at taken
      exact taken ▸ holding.move rfl rfl (position ▸ rfl) nofun (by simp [position, ThreadPc.ended])

theorem Holding.fails (holding : Holding state) {err : Int} (taken : state.fails err = some next) : Holding next := by
  cases position : state.thread with
  | sockCreate =>
      simp only [State.fails, position, Option.some.injEq] at taken
      exact taken ▸ holding.move rfl rfl (position ▸ rfl) (fun _ => position ▸ rfl) (by simp [position, ThreadPc.ended])
  | kernelConnect | ktcpSend =>
      have holds : state.thread.holds = true := position ▸ rfl
      simp only [State.fails, position, holding.use holds, Option.some.injEq] at taken
      exact taken ▸ holding.move rfl rfl holds.symm nofun (by simp [position, ThreadPc.ended])
  | _ => simp [State.fails, position] at taken

theorem Holding.connect (holding : Holding state) (taken : state.connect = some next) : Holding next := by
  cases position : state.thread with
  | kernelConnect =>
      have holds : state.thread.holds = true := position ▸ rfl
      simp only [State.connect, position, holding.use holds, Option.some.injEq] at taken
      exact taken ▸ holding.move rfl rfl holds.symm nofun (by simp [position, ThreadPc.ended])
  | _ => simp [State.connect, position] at taken

theorem Holding.send (holding : Holding state) {count : Nat} (taken : state.send count = some next) : Holding next := by
  cases position : state.thread with
  | ktcpSend =>
      have holds : state.thread.holds = true := position ▸ rfl
      simp only [State.send, position, holding.use holds] at taken
      cases (Option.ite_none_right_eq_some.mp taken).2
      exact holding.move rfl rfl holds.symm nofun (by simp [position, ThreadPc.ended])
  | _ => simp [State.send, position] at taken

/-- The steps of the thread. -/
def Event.ofThread : Event → Bool
  | .thread | .threadFails _ | .connect | .send _ => true
  | .init | .initFails | .exit => false

/-- What a step of the thread can do to the fields that the other parts of the module read. -/
structure Moves (state next : State) : Prop where
  init : next.init = state.init
  exit : next.exit = state.exit
  shouldStop : next.shouldStop = state.shouldStop
  crashed : next.crashed = state.crashed
  began : state.thread ≠ .absent ∧ state.thread ≠ .created ∧ state.thread.ended = false
  begins : next.thread ≠ .absent ∧ next.thread ≠ .created

theorem moves_of_take (holding : Holding state) (mine : event.ofThread = true) (taken : state.take event = some next) :
    Moves state next := by
  have used := holding.held
  cases event with
  | init | initFails | exit => simp [Event.ofThread] at mine
  | thread =>
      unfold State.take State.run at taken
      constructor <;> grind -ring -linarith [ThreadPc.holds, ThreadPc.ended]
  | threadFails err =>
      unfold State.take State.fails State.use at taken
      constructor <;> grind -ring -linarith [ThreadPc.holds, ThreadPc.ended]
  | connect =>
      unfold State.take State.connect State.use at taken
      constructor <;> grind -ring -linarith [ThreadPc.holds, ThreadPc.ended]
  | send count =>
      unfold State.take State.send State.use at taken
      constructor <;> grind -ring -linarith [ThreadPc.holds, ThreadPc.ended]

/-- What the positions of the loading, the thread and the unloading say about each other. -/
structure Phases (state : State) : Prop where
  absent : state.init = .kthreadCreate ∨ state.init = .failed → state.thread = .absent
  created : state.init = .wakeUpProcess → state.thread = .created
  woken : state.init = .returned → state.thread ≠ .absent ∧ state.thread ≠ .created
  loaded : state.exit ≠ .kthreadStop → state.init = .returned
  flagged : state.shouldStop = true ↔ state.exit ≠ .kthreadStop
  ended : state.exit = .returned → state.thread.ended = true
  blamed : state.crashed = true → state.exit = .kthreadStop ∧ state.thread.ended = true

theorem phases_initial : Phases {} := by
  constructor <;> simp

theorem phases_step (phases : Phases state) (holding : Holding state) (taken : state.step event = some next) :
    Phases next := by
  obtain ⟨running, taken⟩ := step_running taken
  obtain ⟨absent, created, woken, loaded, flagged, ended, blamed⟩ := phases
  by_cases mine : event.ofThread = true
  · obtain ⟨init, exit, shouldStop, crashed, began, begins⟩ := moves_of_take holding mine taken
    constructor <;> grind -ring -linarith
  · cases event with
    | thread | threadFails _ | connect | send _ => simp [Event.ofThread] at mine
    | init =>
        unfold State.take State.load at taken
        constructor <;> grind -ring -linarith
    | initFails =>
        unfold State.take at taken
        constructor <;> grind -ring -linarith
    | exit =>
        unfold State.take State.unload at taken
        constructor <;> grind -ring -linarith

theorem sound_step (phases : Phases state) (holding : Holding state) (taken : state.step event = some next) :
    Phases next ∧ Holding next := by
  refine ⟨phases_step phases holding taken, ?_⟩
  obtain ⟨_, taken⟩ := step_running taken
  cases event with
  | init =>
      simp only [State.take, State.load] at taken
      split at taken
      · next position =>
          have absent : state.thread = .absent := phases.absent (.inl position)
          cases taken
          exact holding.move rfl rfl (absent ▸ rfl) (fun _ => absent ▸ rfl) (by simp [absent, ThreadPc.ended])
      · next position =>
          have created : state.thread = .created := phases.created position
          cases taken
          exact holding.move rfl rfl (created ▸ rfl) (fun _ => created ▸ rfl) (by simp [created, ThreadPc.ended])
      all_goals cases taken
  | initFails =>
      cases (Option.ite_none_right_eq_some.mp taken).2
      exact holding.move rfl rfl rfl id id
  | thread => exact Holding.run holding taken
  | threadFails err => exact Holding.fails holding (Option.ite_none_right_eq_some.mp taken).2
  | connect => exact Holding.connect holding taken
  | send count => exact Holding.send holding taken
  | exit =>
      simp only [State.take, State.unload] at taken
      split at taken
      · obtain ⟨_, same⟩ := Option.ite_none_right_eq_some.mp taken
        split at same <;> cases same <;> exact holding.move rfl rfl rfl id id
      · cases (Option.ite_none_right_eq_some.mp taken).2
        exact holding.move rfl rfl rfl id id
      · cases taken

theorem sound_reached {guard : Guard State Event} (reached : tcpClient.Reaches guard state) :
    Phases state ∧ Holding state := by
  refine reached.invariant (fun state => Phases state ∧ Holding state) ?_ ?_
  · rintro _ rfl
    exact ⟨phases_initial, holding_initial⟩
  · rintro state event next _ ⟨phases, holding⟩ _ taken
    exact sound_step phases holding taken

/-- A thread that gets no socket passes the pointer that it has not set to `sock_release`. -/
theorem uncreated_release (holding : Holding state) (position : state.thread = .sockCreate) {err : Int}
    (taken : state.step (.threadFails err) = some next) :
    ∃ final, tcpClient.execute next [.thread] = some final ∧ final.ledger.faults = [((), .uninitialised)] := by
  obtain ⟨running, taken⟩ := step_running taken
  obtain ⟨_, unset, sound⟩ := holding.fresh (position ▸ rfl)
  have failed := (Option.ite_none_right_eq_some.mp taken).2
  simp only [State.fails, position, Option.some.injEq] at failed
  subst failed
  refine ⟨{ state with thread := .exited err, ledger := state.ledger.release () state.sock }, ?_, ?_⟩
  · simp [Machine.execute, tcpClient, State.step, running, State.take, State.run]
  · simp [Ledger.release, unset, sound, Ledger.Matches]

/-- A thread that gets a socket releases it once on each of its paths, and has it whenever it uses it. A thread that
gets none makes a faulty release: it passes a pointer that it has not set to `sock_release`. -/
theorem socket_released_iff_created (reached : tcpClient.Reachable state) :
    state.ledger.store.size ≤ 1 ∧ (state.thread.holds = true → state.ledger.Matches () state.sock) ∧
      (state.thread.holds = false → state.ledger.Cleared) ∧
      (state.ledger.faults ≠ [] → state.ledger.faults = [((), .uninitialised)] ∧ state.thread.ended = true ∧
        state.ledger.store.size = 0) ∧
      ∀ err next, state.thread = .sockCreate → state.step (.threadFails err) = some next →
        ∃ final, tcpClient.execute next [.thread] = some final ∧
          final.ledger.faults = [((), .uninitialised)] := by
  obtain ⟨_, holding⟩ := sound_reached reached
  refine ⟨holding.once, holding.held, fun without key => holding.only key fun now => by simp [without] at now,
    holding.faults, fun err next position taken => uncreated_release holding position taken⟩

/-- There is no memory for the socket. -/
def uncreatedEvents : List Event := [.init, .init, .thread]

theorem socket_released_iff_created_twelve : ∃ state next final : State,
    state.step (.threadFails (-12)) = some next ∧ tcpClient.execute next [.thread] = some final ∧
      final.ledger.faults = [((), .uninitialised)] := by
  have initial : tcpClient.start {} := rfl
  have executed : (tcpClient.execute {} uncreatedEvents).map (fun state => (state.thread, state.crashed)) =
      some (.sockCreate, false) := by decide +kernel
  obtain ⟨state, reached, shown⟩ := Machine.execute_shows initial uncreatedEvents _ executed
  simp only [Prod.mk.injEq] at shown
  have failed : state.step (.threadFails (-12)) = some { state with thread := .releaseUncreated (-12) } := by
    simp [State.step, shown.2, State.take, State.fails, shown.1]
  obtain ⟨final, ran, faults⟩ := (socket_released_iff_created reached).2.2.2.2 (-12) _ shown.1 failed
  exact ⟨state, _, final, failed, ran, faults⟩

/-- What the buffer and the connection hold. -/
structure Sending (state : State) : Prop where
  unsent : state.thread.unsent = true → state.sent = []
  cleared : state.thread = .strcpy → state.buf = List.replicate TcpServer.bufSize 0
  filled : state.thread = .ktcpSend → state.buf = TcpServer.ktcpSend hello
  sent : state.sent <+: TcpServer.ktcpSend hello

/-- The cleared buffer with the string is one frame. -/
theorem frame_eq : hello.bytes ++ [0] ++ (List.replicate TcpServer.bufSize 0).drop (hello.bytes.length + 1) =
    TcpServer.ktcpSend hello := by decide +kernel

theorem sending_step (sending : Sending state) (phases : Phases state) (holding : Holding state)
    (taken : state.step event = some next) : Sending next := by
  obtain ⟨_, taken⟩ := step_running taken
  have used := holding.held
  have absent := phases.absent
  have created := phases.created
  have frame := frame_eq
  obtain ⟨unsent, cleared, filled, sent⟩ := sending
  cases event with
  | init =>
      unfold State.take State.load at taken
      constructor <;> grind -ring -linarith [ThreadPc.unsent, ThreadPc.early]
  | initFails =>
      unfold State.take at taken
      constructor <;> grind -ring -linarith
  | thread =>
      unfold State.take State.run at taken
      constructor <;> grind -ring -linarith [ThreadPc.unsent, ThreadPc.early, ThreadPc.holds]
  | threadFails err =>
      unfold State.take State.fails State.use at taken
      constructor <;> grind -ring -linarith [ThreadPc.unsent, ThreadPc.early, ThreadPc.holds]
  | connect =>
      unfold State.take State.connect State.use at taken
      constructor <;> grind -ring -linarith [ThreadPc.unsent, ThreadPc.early, ThreadPc.holds]
  | send count =>
      cases position : state.thread with
      | ktcpSend =>
          have holds : state.thread.holds = true := position ▸ rfl
          simp only [State.take, State.send, position, holding.use holds] at taken
          cases (Option.ite_none_right_eq_some.mp taken).2
          refine ⟨by simp [ThreadPc.unsent, ThreadPc.early], nofun, nofun, ?_⟩
          rw [unsent (position ▸ rfl), filled position, List.nil_append]
          exact List.take_prefix count _
      | _ => simp [State.take, State.send, position] at taken
  | exit =>
      unfold State.take State.unload at taken
      constructor <;> grind -ring -linarith

/-- The module gives at most one frame to the network, and that of its message. -/
theorem frame_sent_once (reached : tcpClient.Reachable state) :
    state.sent <+: TcpServer.ktcpSend hello ∧ (state.thread.unsent = true → state.sent = []) := by
  have sending : Sending state := by
    refine reached.invariant Sending ?_ ?_
    · rintro _ rfl
      exact ⟨fun _ => rfl, nofun, nofun, List.nil_prefix⟩
    · intro state event next before sending _ taken
      obtain ⟨phases, holding⟩ := sound_reached before
      exact sending_step sending phases holding taken
  exact ⟨sending.sent, sending.unsent⟩

/-- The connection takes the first bytes of the message. -/
def partlyEvents : List Event := [.init, .init, .thread, .thread, .connect, .thread, .thread, .send 5]

theorem frame_sent_once_partly : ∃ state : State, state.sent = [104, 101, 108, 108, 111] ∧
    state.sent <+: TcpServer.ktcpSend hello := by
  have initial : tcpClient.start {} := rfl
  have executed : (tcpClient.execute {} partlyEvents).map State.sent = some [104, 101, 108, 108, 111] := by
    decide +kernel
  obtain ⟨state, reached, sent⟩ := Machine.execute_shows initial partlyEvents _ executed
  exact ⟨state, sent, (frame_sent_once reached).1⟩

/-- The thread gets a socket, and it is not refused a connection before the call of `kthread_stop`. -/
def unrefused : Guard State Event := fun state event =>
  match event with
  | .threadFails _ => state.thread = .ktcpSend ∨ state.thread = .kernelConnect ∧ state.exit ≠ .kthreadStop
  | _ => True

instance (state : State) (event : Event) : Decidable (unrefused state event) :=
  match event with
  | .threadFails _ => inferInstanceAs (Decidable (_ ∨ _))
  | .init | .initFails | .thread | .connect | .send _ | .exit => isTrue trivial

/-- The thread takes an error path, and returns, only when it is stopped. -/
structure Unrefused (state : State) : Prop where
  created : ∀ err, state.thread ≠ .releaseUncreated err
  refused : ∀ err, state.thread = .releaseUnconnected err → state.shouldStop = true
  releasing : state.thread = .sockRelease → state.shouldStop = true
  ended : state.thread.ended = true → state.shouldStop = true

theorem unrefused_step (now : Unrefused state) (phases : Phases state) (holding : Holding state)
    (admitted : unrefused state event) (taken : state.step event = some next) : Unrefused next := by
  obtain ⟨_, taken⟩ := step_running taken
  have used := holding.held
  have flagged := phases.flagged
  obtain ⟨created, refused, releasing, ended⟩ := now
  cases event with
  | init =>
      unfold State.take State.load at taken
      constructor <;> grind -ring -linarith [ThreadPc.ended]
  | initFails =>
      unfold State.take at taken
      constructor <;> grind -ring -linarith
  | thread =>
      unfold State.take State.run at taken
      constructor <;> grind -ring -linarith [ThreadPc.ended, ThreadPc.holds]
  | threadFails err =>
      have position : state.thread = .ktcpSend ∨ state.thread = .kernelConnect ∧ state.exit ≠ .kthreadStop := admitted
      unfold State.take State.fails State.use at taken
      constructor <;> grind -ring -linarith [ThreadPc.ended, ThreadPc.holds]
  | connect =>
      unfold State.take State.connect State.use at taken
      constructor <;> grind -ring -linarith [ThreadPc.ended, ThreadPc.holds]
  | send count =>
      unfold State.take State.send State.use at taken
      constructor <;> grind -ring -linarith [ThreadPc.ended, ThreadPc.holds]
  | exit =>
      unfold State.take State.unload at taken
      constructor <;> grind -ring -linarith

/-- A thread that has got its socket makes no faulty release. -/
theorem faults_step (holding : Holding state) (created : ∀ err, state.thread ≠ .releaseUncreated err)
    (sound : state.ledger.faults = []) (taken : state.step event = some next) : next.ledger.faults = [] := by
  obtain ⟨_, taken⟩ := step_running taken
  cases event with
  | init =>
      unfold State.take State.load at taken
      grind -ring -linarith
  | initFails =>
      unfold State.take at taken
      grind -ring -linarith
  | thread =>
      cases position : state.thread with
      | releaseUncreated err => exact absurd position (created err)
      | sockRelease | releaseUnconnected err =>
          simp only [State.take, State.run, position, Option.some.injEq] at taken
          exact taken ▸ (faults_release (holding.held (position ▸ rfl))).trans sound
      | _ =>
          simp only [State.take, State.run, position, Option.some.injEq, reduceCtorEq] at taken
          all_goals exact taken ▸ sound
  | threadFails err =>
      unfold State.take State.fails State.use at taken
      grind -ring -linarith
  | connect =>
      unfold State.take State.connect State.use at taken
      grind -ring -linarith
  | send count =>
      unfold State.take State.send State.use at taken
      grind -ring -linarith
  | exit =>
      unfold State.take State.unload at taken
      grind -ring -linarith

/-- The statements that are left to a stopped thread. -/
def ThreadPc.remaining : ThreadPc → Nat
  | .kthread | .sockRelease | .releaseUncreated _ | .releaseUnconnected _ => 1
  | .kthreadShouldStop => 2
  | .ktcpSend | .schedule => 3
  | .strcpy => 4
  | .memset => 5
  | .kernelConnect => 6
  | .sockCreate => 7
  | .absent | .created | .exited _ => 0

theorem remaining_lt (holding : Holding state) (stopped : state.shouldStop = true) (mine : event.ofThread = true)
    (taken : state.take event = some next) : next.thread.remaining < state.thread.remaining := by
  have used := holding.held
  cases event with
  | init | initFails | exit => simp [Event.ofThread] at mine
  | thread =>
      unfold State.take State.run at taken
      grind -ring -linarith [ThreadPc.holds, ThreadPc.remaining]
  | threadFails err =>
      unfold State.take State.fails State.use at taken
      grind -ring -linarith [ThreadPc.holds, ThreadPc.remaining]
  | connect =>
      unfold State.take State.connect State.use at taken
      grind -ring -linarith [ThreadPc.holds, ThreadPc.remaining]
  | send count =>
      unfold State.take State.send State.use at taken
      grind -ring -linarith [ThreadPc.holds, ThreadPc.remaining]

/-- The calls of the thread that wait for the network. -/
def ThreadPc.networking : ThreadPc → Bool
  | .kernelConnect | .ktcpSend => true
  | _ => false

/-- A thread that has begun and not returned can go on, in two of its calls when the network answers. -/
theorem exists_take (running : state.crashed = false)
    (began : state.thread ≠ .absent ∧ state.thread ≠ .created ∧ state.thread.ended = false) :
    ∃ event next, event.ofThread = true ∧ (event = .thread ∨ state.thread.networking = true) ∧
      state.step event = some next := by
  have step (event : Event) : state.step event = state.take event := by rw [State.step, if_neg (by simp [running])]
  cases position : state.thread with
  | absent | created | exited result => simp [position, ThreadPc.ended] at began
  | kernelConnect => exact ⟨.connect, _, rfl, .inr rfl, by rw [step, State.take, State.connect, position]⟩
  | ktcpSend =>
      have taken : state.send 0 = some (state.use { state with
          thread := .kthreadShouldStop, sent := state.sent ++ state.buf.take 0 }) := by
        rw [State.send, position]
        exact if_pos (Nat.zero_le _)
      exact ⟨.send 0, _, rfl, .inr rfl, (step _).trans taken⟩
  | _ => exact ⟨.thread, _, rfl, .inl rfl, by rw [step, State.take, State.run, position]⟩

/-- A thread that gets its socket, and is not refused before the unloading, makes the unloading safe: the module uses no
pointer that is not live, and the call of `kthread_stop` waits for a thread that needs few more statements, sleeps only
in the two calls that wait for the network, and has released its socket. The condition is exact: each other failure
leads to a release of the unset pointer, or to a call of `kthread_stop` with a task that the kernel has freed. -/
theorem unload_exact :
    (∀ state, tcpClient.Reaches unrefused state → state.crashed = false ∧ state.ledger.faults = [] ∧
      (state.exit = .returned → state.thread.ended = true ∧ state.ledger.Cleared) ∧
      (state.exit = .wait →
        (∀ event next, event.ofThread = true → state.step event = some next →
          next.thread.remaining < state.thread.remaining) ∧
        (state.thread.ended = false → ∃ event next, event.ofThread = true ∧
          (event = .thread ∨ state.thread.networking = true) ∧ state.step event = some next) ∧
        (state.thread.ended = true → ∃ next, state.step .exit = some next ∧ next.exit = .returned))) ∧
    ∀ state event next, tcpClient.Reachable state → ¬ unrefused state event → state.step event = some next →
      ∃ events final, tcpClient.execute next events = some final ∧
        (final.crashed = true ∨ final.ledger.faults = [((), .uninitialised)]) := by
  constructor
  · intro state reached
    obtain ⟨phases, holding⟩ := sound_reached reached
    obtain ⟨now, sound⟩ : Unrefused state ∧ state.ledger.faults = [] := by
      refine reached.invariant (fun state => Unrefused state ∧ state.ledger.faults = []) ?_ ?_
      · rintro _ rfl
        exact ⟨⟨nofun, nofun, nofun, nofun⟩, rfl⟩
      · rintro state event next before ⟨now, sound⟩ admitted taken
        obtain ⟨phases, holding⟩ := sound_reached before
        exact ⟨unrefused_step now phases holding admitted taken, faults_step holding now.created sound taken⟩
    have running : state.crashed = false := by
      by_contra crash
      obtain ⟨position, ended⟩ := phases.blamed (by simpa using crash)
      exact phases.flagged.mp (now.ended ended) position
    refine ⟨running, sound, fun returned => ?_, fun waiting => ⟨?_, fun alive => ?_, fun ended => ?_⟩⟩
    · have ended := phases.ended returned
      refine ⟨ended, fun key => holding.only key fun holds => ?_⟩
      cases position : state.thread <;> simp [position, ThreadPc.ended, ThreadPc.holds] at ended holds
    · intro event next mine taken
      exact remaining_lt holding (phases.flagged.mpr (by simp [waiting])) mine (step_running taken).2
    · have began := phases.woken (phases.loaded (by simp [waiting]))
      exact exists_take running ⟨began.1, began.2, alive⟩
    · have taken : state.step .exit = some { state with exit := .returned } := by
        simp [State.step, running, State.take, State.unload, waiting, ended]
      exact ⟨_, taken, rfl⟩
  · intro state event next reached failed taken
    obtain ⟨phases, holding⟩ := sound_reached reached
    obtain ⟨running, step⟩ := step_running taken
    cases event with
    | init | initFails | thread | connect | send _ | exit => exact absurd trivial failed
    | threadFails err =>
        have calls := (Option.ite_none_right_eq_some.mp step).2
        cases position : state.thread with
        | ktcpSend => exact absurd (.inl position) failed
        | sockCreate =>
            obtain ⟨final, ran, faults⟩ := uncreated_release holding position taken
            exact ⟨[.thread], final, ran, .inr faults⟩
        | kernelConnect =>
            have idle : state.exit = .kthreadStop := by
              by_contra stopped
              exact failed (.inr ⟨position, stopped⟩)
            have loaded : state.init = .returned := by
              have absent := phases.absent
              have created := phases.created
              cases known : state.init <;> simp_all
            simp only [State.fails, position, holding.use (position ▸ rfl), Option.some.injEq] at calls
            subst calls
            refine ⟨[.thread, .exit], ?_⟩
            simp [Machine.execute, tcpClient, State.step, running, State.take, State.run, State.unload, idle, loaded,
              ThreadPc.ended]
        | _ => simp [State.fails, position] at calls

/-- The server refuses the connection after the call of `kthread_stop`. -/
def refusedEvents : List Event := [.init, .init, .thread, .thread, .exit, .threadFails (-111), .thread, .exit]

theorem unload_exact_refused : ∃ state, tcpClient.Reaches unrefused state ∧ state.exit = .returned ∧
    state.thread = .exited (-111) ∧ state.crashed = false ∧ state.ledger.faults = [] ∧ state.ledger.Cleared := by
  have initial : tcpClient.start {} := rfl
  have executed : (tcpClient.execute {} refusedEvents).map (fun state => (state.exit, state.thread)) =
      some (.returned, .exited (-111)) := by decide +kernel
  have admitted : tcpClient.admits unrefused {} refusedEvents = true := by decide +kernel
  obtain ⟨state, reached, shown⟩ := Machine.admits_shows initial refusedEvents admitted _ executed
  obtain ⟨returned, left⟩ := Prod.mk.inj shown
  obtain ⟨running, sound, cleared, _⟩ := unload_exact.1 state reached
  exact ⟨state, reached, returned, left, running, sound, (cleared returned).2⟩

end KernelStudio.TcpClient
