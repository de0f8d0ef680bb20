/-
This file proves what the realtime module keeps over all runs: how the expiries of its timer turn into passes of its
threads, how early a pass may begin, which threads are woken and how the module is unloaded.
-/

import KernelStudio.Construction.Realtime

namespace KernelStudio.Realtime

open Kthread Transition

/-- The function `realtime_init` has woken the thread. -/
def InitPc.woken : InitPc → Fin 3 → Bool
  | .create k, j | .bind k, j | .isErr k, j | .wake k, j => j < k
  | .start, _ | .done, _ => true
  | .failed, _ => false

/-- The function `realtime_exit` has set the stop flag of the thread. -/
def ExitPc.flagged : ExitPc → Fin 3 → Bool
  | .notStarted, _ | .cancel, _ => false
  | .stop k, j => j < k
  | .wake k, j | .join k, j => j ≤ k
  | .returned, _ => true

/-- The function `realtime_exit` has woken the thread. -/
def ExitPc.woken : ExitPc → Fin 3 → Bool
  | .notStarted, _ | .cancel, _ => false
  | .stop k, j | .wake k, j => j < k
  | .join k, j => j ≤ k
  | .returned, _ => true

/-- The function `realtime_exit` has joined the thread. -/
def ExitPc.joined : ExitPc → Fin 3 → Bool
  | .notStarted, _ | .cancel, _ => false
  | .stop k, j | .wake k, j | .join k, j => j < k
  | .returned, _ => true

/-- One expiry of so many wakes the thread. -/
def every : Fin 3 → Nat
  | 0 => 1
  | 1 => 2
  | 2 => 4

/-- The wake-ups of a thread among the first expiries. -/
def share (fired : Nat) (j : Fin 3) : Nat := (fired + every j - 1) / every j

/-- The expiries whose handler has passed the call for the thread. -/
def Timer.calls (fired : Nat) (j : Fin 3) : Timer → Nat
  | .wake k _ => if k ≤ j then fired - 1 else fired
  | .off | .armed _ | .rate _ | .forward _ => fired

/-- The expiries whose handler has incremented `rate`. -/
def Timer.counted (fired : Nat) : Timer → Nat
  | .wake _ _ | .rate _ => fired - 1
  | .off | .armed _ | .forward _ => fired

/-- The expiry of the timer lies on the grid or later. -/
def Timer.Late (started fired kt : Nat) : Timer → Prop
  | .off => True
  | .armed expiry => started + (fired + 1) * kt ≤ expiry
  | .wake _ expiry | .rate expiry | .forward expiry => 0 < fired ∧ started + fired * kt ≤ expiry

/-- The wake-ups that the thread has received. -/
def State.wakeUps (state : State) (j : Fin 3) : Nat :=
  (state.init.woken j).toNat + share (state.timer.calls state.fired j) j + (state.exit.woken j).toNat

variable {kt : Nat} {state next : State} {event : Event} {j k : Fin 3}

@[simp] theorem set_thread (cur : Thread) :
    (state.set j cur).thread k = if k = j then cur else state.thread k := Function.update_apply ..

theorem eq_zero_or_one_or_two (j : Fin 3) : j = 0 ∨ j = 1 ∨ j = 2 := by omega

/-- A test of the handler agrees with the count of expiries, also after `rate` has wrapped around. -/
theorem due_iff (n : Nat) : due (BitVec.ofNat 32 n) j = true ↔ n % every j = 0 := by
  rcases eq_zero_or_one_or_two j with rfl | rfl | rfl
  · simp [due, every, Nat.mod_one]
  · simp [due, every, ← BitVec.toNat_inj]
  · simp [due, every, ← BitVec.toNat_inj]

theorem share_succ (n : Nat) : share (n + 1) j = share n j + if n % every j = 0 then 1 else 0 := by
  unfold share
  by_cases wakes : n % every j = 0
  · rw [if_pos wakes]
    rcases eq_zero_or_one_or_two j with rfl | rfl | rfl <;> simp only [every] at * <;> omega
  · rw [if_neg wakes]
    rcases eq_zero_or_one_or_two j with rfl | rfl | rfl <;> simp only [every] at * <;> omega

/-- The wake-ups of a thread need this many expiries. -/
theorem lt_of_lt_share {n fired : Nat} (many : n < share fired j) : n * every j < fired := by
  unfold share at many
  rcases eq_zero_or_one_or_two j with rfl | rfl | rfl <;> simp only [every] at * <;> omega

theorem calls_le : state.timer.calls state.fired j ≤ state.fired := by
  unfold Timer.calls
  grind -ring -linarith

/-- What the positions of the two functions say about the threads and the timer. -/
structure Placed (state : State) : Prop where
  created : ∀ j, state.init = .isErr j ∨ state.init = .wake j → (state.thread j).pc ≠ .absent
  succeeds : state.init ≠ .failed
  idle : state.init ≠ .done → state.timer = .off ∧ state.exit = .notStarted ∧ state.fired = 0
  cancelled : state.timer ≠ .off → state.exit = .notStarted ∨ state.exit = .cancel
  crashed : state.crashed = true → ∃ j, state.init = .bind j ∧ (state.thread j).pc = .absent

/-- The expiries lie on the grid of the timer or later, and `rate` counts them. -/
structure Timed (kt : Nat) (state : State) : Prop where
  rate : state.rate = BitVec.ofNat 32 (state.timer.counted state.fired)
  elapsed : state.fired ≠ 0 → state.started + state.fired * kt ≤ state.now
  late : state.timer.Late state.started state.fired kt

/-- What each thread keeps. -/
structure Threads (kt : Nat) (state : State) : Prop where
  managed : ∀ j, (state.thread j).Managed (state.init.woken j) (state.exit.flagged j) (state.exit.joined j)
    (state.wakeUps j)
  paced : ∀ j, (state.thread j).Paced (state.started + kt) (every j * kt)

theorem placed_start (now : Nat) : Placed { now } := ⟨by simp, by simp, by simp, by simp, by simp⟩

theorem Placed.step (placed : Placed state) (taken : state.step kt event = some next) : Placed next := by
  obtain ⟨created, succeeds, idle, cancelled, crashed⟩ := placed
  unfold State.step at taken
  split at taken
  · exact absurd taken nofun
  · rename_i running
    cases event with
    | init =>
        simp only [State.initStep] at taken
        split at taken <;> simp only [Option.some.injEq, reduceCtorEq] at taken
        all_goals subst taken
        · constructor <;> grind -ring -linarith [State.set, Thread.create]
        · constructor <;> grind -ring -linarith [State.set, Thread.create]
        · constructor <;> grind -ring -linarith [State.set, Thread.create]
        · rename_i j position
          rcases eq_zero_or_one_or_two j with rfl | rfl | rfl <;> constructor <;>
            simp_all [State.wakeUpProcess, State.set, following]
        · constructor <;> grind -ring -linarith [State.set, Thread.create]
    | createFails =>
        simp only [State.createFails] at taken
        split at taken <;> simp only [Option.some.injEq, reduceCtorEq] at taken
        subst taken
        constructor <;> grind -ring -linarith
    | timer =>
        simp only [State.timerStep] at taken
        have loaded : state.init ≠ .done → state.timer = .off := fun early => (idle early).1
        split at taken
        · grind -ring -linarith
        · split at taken <;> simp only [Option.some.injEq, reduceCtorEq] at taken
          subst taken
          constructor <;> grind -ring -linarith
        · rename_i j expiry position
          simp only [Option.some.injEq] at taken
          subst taken
          split <;> constructor <;> grind -ring -linarith [State.wakeUpProcess, State.set]
        · simp only [Option.some.injEq] at taken
          subst taken
          constructor <;> grind -ring -linarith
        · simp only [Option.some.injEq] at taken
          subst taken
          constructor <;> grind -ring -linarith
    | exit =>
        simp only [State.exitStep] at taken
        split at taken
        · split at taken <;> simp only [Option.some.injEq, reduceCtorEq] at taken
          subst taken
          constructor <;> grind -ring -linarith
        · split at taken <;> simp only [Option.some.injEq, reduceCtorEq] at taken
          all_goals subst taken
          all_goals constructor <;> grind -ring -linarith
        · simp only [Option.some.injEq] at taken
          subst taken
          constructor <;> grind -ring -linarith [State.set]
        · simp only [Option.some.injEq] at taken
          subst taken
          constructor <;> grind -ring -linarith [State.wakeUpProcess, State.set]
        · split at taken <;> simp only [Option.some.injEq, reduceCtorEq] at taken
          subst taken
          constructor <;> grind -ring -linarith
        · exact absurd taken nofun
    | thread j =>
        obtain ⟨cur, ran, same⟩ := Option.map_eq_some_iff.mp taken
        subst same
        refine ⟨fun k position => ?_, succeeds, idle, cancelled, fun broken => absurd broken running⟩
        have before : (state.thread k).pc ≠ .absent := created k position
        rw [set_thread]
        split
        · exact pc_ne_absent_of_run ran
        · exact before
    | tick duration =>
        simp only [Option.some.injEq] at taken
        exact taken ▸ ⟨created, succeeds, idle, cancelled, crashed⟩

theorem timed_start (kt now : Nat) : Timed kt { now } := ⟨rfl, nofun, trivial⟩

theorem Timed.timerStep (timed : Timed kt state) (taken : state.timerStep kt = some next) : Timed kt next := by
  obtain ⟨rate, elapsed, late⟩ := timed
  unfold State.timerStep at taken
  split at taken
  · exact absurd taken nofun
  · rename_i expiry position
    split at taken <;> simp only [Option.some.injEq, reduceCtorEq] at taken
    subst taken
    rw [position] at rate late
    simp only [Timer.Late] at late
    exact ⟨rate, fun _ => by dsimp only; omega, Nat.succ_pos _, late⟩
  · rename_i j expiry position
    simp only [Option.some.injEq] at taken
    subst taken
    rw [position] at rate late
    rcases eq_zero_or_one_or_two j with rfl | rfl | rfl <;> split <;> exact ⟨rate, elapsed, late⟩
  · rename_i expiry position
    simp only [Option.some.injEq] at taken
    subst taken
    rw [position] at rate late
    refine ⟨?_, elapsed, late⟩
    obtain ⟨positive, _⟩ := late
    obtain ⟨before, fired⟩ := Nat.exists_eq_add_of_lt positive
    simp only [rate, Timer.counted, fired, Nat.zero_add, Nat.add_sub_cancel]
    exact (BitVec.ofNat_add before 1).symm
  · rename_i expiry position
    simp only [Option.some.injEq] at taken
    subst taken
    rw [position] at rate late
    refine ⟨rate, elapsed, ?_⟩
    have forward : expiry + kt ≤ hrtimerForward state.now expiry kt := le_hrtimerForward state.now expiry kt
    simp only [Timer.Late, Nat.add_mul] at *
    omega

theorem Timed.step (timed : Timed kt state) (placed : Placed state) (taken : state.step kt event = some next) :
    Timed kt next := by
  unfold State.step at taken
  split at taken
  · exact absurd taken nofun
  · cases event with
    | init =>
        have early (running : state.init ≠ .done) : state.fired = 0 := (placed.idle running).2.2
        simp only [State.initStep] at taken
        split at taken <;> simp only [Option.some.injEq, reduceCtorEq] at taken
        all_goals subst taken
        · exact ⟨timed.rate, timed.elapsed, timed.late⟩
        · split <;> exact ⟨timed.rate, timed.elapsed, timed.late⟩
        · exact ⟨timed.rate, timed.elapsed, timed.late⟩
        · exact ⟨timed.rate, timed.elapsed, timed.late⟩
        · rename_i position
          obtain ⟨off, _, none⟩ := placed.idle (position ▸ nofun)
          refine ⟨?_, fun some => absurd none some, ?_⟩
          · simpa [off, Timer.counted] using timed.rate
          · simp [Timer.Late, none]
    | createFails =>
        simp only [State.createFails] at taken
        split at taken <;> simp only [Option.some.injEq, reduceCtorEq] at taken
        exact taken ▸ ⟨timed.rate, timed.elapsed, timed.late⟩
    | timer => exact timed.timerStep taken
    | exit =>
        simp only [State.exitStep] at taken
        split at taken
        · split at taken <;> simp only [Option.some.injEq, reduceCtorEq] at taken
          exact taken ▸ ⟨timed.rate, timed.elapsed, timed.late⟩
        · split at taken <;> simp only [Option.some.injEq, reduceCtorEq] at taken
          all_goals rename_i position
          all_goals exact taken ▸ ⟨by simpa [position, Timer.counted] using timed.rate, timed.elapsed, trivial⟩
        · simp only [Option.some.injEq] at taken
          exact taken ▸ ⟨timed.rate, timed.elapsed, timed.late⟩
        · simp only [Option.some.injEq] at taken
          exact taken ▸ ⟨timed.rate, timed.elapsed, timed.late⟩
        · split at taken <;> simp only [Option.some.injEq, reduceCtorEq] at taken
          exact taken ▸ ⟨timed.rate, timed.elapsed, timed.late⟩
        · exact absurd taken nofun
    | thread j =>
        obtain ⟨cur, _, same⟩ := Option.map_eq_some_iff.mp taken
        exact same ▸ ⟨timed.rate, timed.elapsed, timed.late⟩
    | tick duration =>
        simp only [Option.some.injEq] at taken
        exact taken ▸ ⟨timed.rate, fun fired => Nat.le_add_right_of_le (timed.elapsed fired), timed.late⟩

theorem share_zero : share 0 j = 0 := by
  rcases eq_zero_or_one_or_two j with rfl | rfl | rfl <;> rfl

theorem threads_start (kt now : Nat) : Threads kt { now } := by
  refine ⟨fun j => ?_, fun _ => .inl (spaced_nil _ _)⟩
  simpa [InitPc.woken, ExitPc.flagged, ExitPc.joined, ExitPc.woken, State.wakeUps, Timer.calls, share_zero]
    using managed_absent

/-- A step for one thread keeps the others, when it keeps what is said about them. -/
theorem Threads.set {cur : Thread} (threads : Threads kt state) (started : next.started = state.started)
    (thread : next.thread = Function.update state.thread j cur)
    (others : ∀ k ≠ j, next.init.woken k = state.init.woken k ∧ next.exit.flagged k = state.exit.flagged k ∧
      next.exit.joined k = state.exit.joined k ∧ next.wakeUps k = state.wakeUps k)
    (managed : cur.Managed (next.init.woken j) (next.exit.flagged j) (next.exit.joined j) (next.wakeUps j))
    (paced : cur.Paced (state.started + kt) (every j * kt)) : Threads kt next := by
  refine ⟨fun k => ?_, fun k => ?_⟩
  · by_cases same : k = j
    · simpa [thread, same] using managed
    · obtain ⟨woken, flagged, joined, wakeUps⟩ := others k same
      rw [thread, Function.update_of_ne same, woken, flagged, joined, wakeUps]
      exact threads.managed k
  · by_cases same : k = j
    · simpa [thread, started, same] using paced
    · rw [thread, Function.update_of_ne same, started]
      exact threads.paced k

/-- A step that leaves the threads alone. -/
theorem Threads.keep (threads : Threads kt state) (started : next.started = state.started)
    (thread : next.thread = state.thread)
    (kept : ∀ k, next.init.woken k = state.init.woken k ∧ next.exit.flagged k = state.exit.flagged k ∧
      next.exit.joined k = state.exit.joined k ∧ next.wakeUps k = state.wakeUps k) : Threads kt next := by
  refine ⟨fun k => ?_, fun k => ?_⟩
  · obtain ⟨woken, flagged, joined, wakeUps⟩ := kept k
    rw [thread, woken, flagged, joined, wakeUps]
    exact threads.managed k
  · rw [thread, started]
    exact threads.paced k

/-- As long as the timer has not been started, a thread receives no wake-up behind the first one. -/
theorem Placed.wakeUps (placed : Placed state) (early : state.init ≠ .done) :
    state.wakeUps j = (state.init.woken j).toNat := by
  obtain ⟨off, running, none⟩ := placed.idle early
  simp [State.wakeUps, off, running, none, Timer.calls, share_zero, ExitPc.woken]

/-- The positions behind a wake-up, behind a stop and behind a join differ for one thread only. -/
theorem woken_following : ((following j).elim InitPc.start InitPc.create).woken k =
    ((InitPc.wake j).woken k || decide (k = j)) := by
  revert j k
  decide

theorem flagged_stop : (ExitPc.wake j).flagged k = ((ExitPc.stop j).flagged k || decide (k = j)) := by
  revert j k
  decide

theorem woken_join : (ExitPc.join j).woken k = ((ExitPc.wake j).woken k || decide (k = j)) := by
  revert j k
  decide

theorem joined_following : ((following j).elim ExitPc.returned ExitPc.stop).joined k =
    ((ExitPc.join j).joined k || decide (k = j)) := by
  revert j k
  decide

theorem kept_following : ((following j).elim ExitPc.returned ExitPc.stop).flagged k = (ExitPc.join j).flagged k ∧
    ((following j).elim ExitPc.returned ExitPc.stop).woken k = (ExitPc.join j).woken k := by
  revert j k
  decide

theorem Threads.initStep (threads : Threads kt state) (placed : Placed state)
    (taken : state.initStep kt = some next) : Threads kt next := by
  obtain ⟨now, thread, rate, timer, init, exit, started, fired, crashed⟩ := state
  unfold State.initStep at taken
  have silent (early : init ≠ .done) (j : Fin 3) : (thread j).releases = [] :=
    (threads.managed j).releases_nil (placed.wakeUps early)
  cases init with
  | create j =>
      simp only [Option.some.injEq] at taken
      subst taken
      refine threads.set (j := j) rfl rfl (fun k other => ⟨rfl, rfl, rfl, rfl⟩) ?_
        (paced_of_releases_nil (silent nofun j))
      exact (threads.managed j).create (by simp [InitPc.woken])
  | bind j =>
      simp only [Option.some.injEq] at taken
      subst taken
      split <;> exact threads.keep rfl rfl fun k => ⟨rfl, rfl, rfl, rfl⟩
  | isErr j =>
      simp only [Option.some.injEq] at taken
      subst taken
      rw [if_neg (placed.created j (.inl rfl))]
      exact threads.keep rfl rfl fun k => ⟨rfl, rfl, rfl, rfl⟩
  | wake j =>
      simp only [Option.some.injEq] at taken
      subst taken
      have fresh : (InitPc.wake j).woken j = false := by simp [InitPc.woken]
      refine threads.set (j := j) rfl rfl (fun k other => ?_) ?_ (threads.paced j).wake
      · simp [State.wakeUpProcess, State.set, State.wakeUps, woken_following, other]
      · have managed := (threads.managed j).wake (placed.created j (.inr rfl))
        simp only [State.wakeUpProcess, State.set, State.wakeUps, woken_following, fresh] at managed ⊢
        simpa [Nat.add_comm, Nat.add_left_comm] using managed
  | start =>
      simp only [Option.some.injEq] at taken
      subst taken
      obtain ⟨off, running, none⟩ := placed.idle nofun
      refine ⟨fun j => ?_, fun j => paced_of_releases_nil (silent nofun j)⟩
      have managed := threads.managed j
      simp only [State.wakeUps, Timer.calls, InitPc.woken] at off managed ⊢
      simpa only [off, Timer.calls] using managed
  | done | failed => exact absurd taken nofun

/-- A call of the handler counts for its own thread only. -/
theorem calls_following {fired expiry : Nat} (positive : 0 < fired) :
    ((following j).elim (Timer.rate expiry) fun k => .wake k expiry).calls fired k =
      (Timer.wake j expiry).calls fired k + if k = j then 1 else 0 := by
  rcases eq_zero_or_one_or_two j with rfl | rfl | rfl <;> rcases eq_zero_or_one_or_two k with rfl | rfl | rfl <;>
    simp [following, Timer.calls] <;> omega

theorem Threads.timerStep (threads : Threads kt state) (placed : Placed state) (timed : Timed kt state)
    (taken : state.timerStep kt = some next) : Threads kt next := by
  obtain ⟨now, thread, rate, timer, init, exit, started, fired, crashed⟩ := state
  unfold State.timerStep at taken
  cases timer with
  | off => exact absurd taken nofun
  | armed expiry =>
      simp only at taken
      split at taken <;> simp only [Option.some.injEq, reduceCtorEq] at taken
      subst taken
      exact threads.keep rfl rfl fun k => ⟨rfl, rfl, rfl, by simp [State.wakeUps, Timer.calls]⟩
  | wake j expiry =>
      simp only [Option.some.injEq] at taken
      obtain ⟨positive, _⟩ : 0 < fired ∧ started + fired * kt ≤ expiry := timed.late
      have counted : rate = BitVec.ofNat 32 (fired - 1) := timed.rate
      have own : (Timer.wake j expiry).calls fired j = fired - 1 := by simp [Timer.calls]
      have begun : init = .done := by
        by_contra early
        exact absurd (placed.idle early).1 nofun
      have created : (thread j).pc ≠ .absent := by
        intro absent
        have managed := (threads.managed j).begun
        simp [Thread.begun, absent, begun, InitPc.woken] at managed
      split at taken
      · rename_i wakes
        rw [counted, due_iff] at wakes
        subst taken
        refine threads.set (j := j) rfl rfl (fun k other => ⟨rfl, rfl, rfl, ?_⟩) ?_ (threads.paced j).wake
        · simp [State.wakeUpProcess, State.set, State.wakeUps, calls_following positive, other]
        · have managed := (threads.managed j).wake created
          simp only [State.wakeUpProcess, State.set, State.wakeUps, calls_following positive, own, if_true,
            share_succ, if_pos wakes, begun] at managed ⊢
          simpa [InitPc.woken, Nat.add_assoc, Nat.add_comm, Nat.add_left_comm] using managed
      · rename_i silent
        rw [counted, due_iff] at silent
        subst taken
        refine threads.keep rfl rfl fun k => ⟨rfl, rfl, rfl, ?_⟩
        by_cases same : k = j
        · subst same
          simp [State.wakeUps, calls_following positive, own, share_succ, silent]
        · simp [State.wakeUps, calls_following positive, same]
  | rate expiry =>
      simp only [Option.some.injEq] at taken
      exact taken ▸ threads.keep rfl rfl fun k => ⟨rfl, rfl, rfl, rfl⟩
  | forward expiry =>
      simp only [Option.some.injEq] at taken
      exact taken ▸ threads.keep rfl rfl fun k => ⟨rfl, rfl, rfl, rfl⟩

theorem Threads.exitStep (threads : Threads kt state) (placed : Placed state)
    (taken : state.exitStep = some next) : Threads kt next := by
  obtain ⟨now, thread, rate, timer, init, exit, started, fired, crashed⟩ := state
  unfold State.exitStep at taken
  have begun (left : exit ≠ .notStarted) : init = .done := by
    by_contra early
    exact absurd (placed.idle early).2.1 left
  cases exit with
  | notStarted =>
      simp only at taken
      split at taken <;> simp only [Option.some.injEq, reduceCtorEq] at taken
      exact taken ▸ threads.keep rfl rfl fun k => ⟨rfl, rfl, rfl, rfl⟩
  | cancel =>
      simp only at taken
      split at taken <;> simp only [Option.some.injEq, reduceCtorEq] at taken
      all_goals subst taken
      all_goals exact threads.keep rfl rfl fun k => ⟨rfl, by simp [ExitPc.flagged], by simp [ExitPc.joined],
        by simp [State.wakeUps, ExitPc.woken, Timer.calls]⟩
  | stop j =>
      simp only [Option.some.injEq] at taken
      subst taken
      refine threads.set (j := j) rfl rfl (fun k other => ?_) ?_ (threads.paced j).stop
      · exact ⟨rfl, by simp [State.set, flagged_stop, other], rfl, rfl⟩
      · have managed := (threads.managed j).stop
        simp only [State.set, flagged_stop, decide_true, Bool.or_true]
        exact managed
  | wake j =>
      simp only [Option.some.injEq] at taken
      subst taken
      have created : (thread j).pc ≠ .absent := by
        intro absent
        have managed := (threads.managed j).begun
        simp [Thread.begun, absent, begun (by simp), InitPc.woken] at managed
      have fresh : (ExitPc.wake j).woken j = false := by simp [ExitPc.woken]
      refine threads.set (j := j) rfl rfl (fun k other => ?_) ?_ (threads.paced j).wake
      · exact ⟨rfl, rfl, rfl, by simp [State.wakeUpProcess, State.set, State.wakeUps, woken_join, other]⟩
      · have managed := (threads.managed j).wake created
        simp only [State.wakeUpProcess, State.set, State.wakeUps, woken_join, fresh, begun (by simp), decide_true,
          Bool.or_true, Bool.toNat_true, Bool.toNat_false] at managed ⊢
        exact managed
  | join j =>
      simp only at taken
      split at taken <;> simp only [Option.some.injEq, reduceCtorEq] at taken
      rename_i left
      subst taken
      refine threads.set (j := j) rfl (Function.update_eq_self j thread).symm (fun k other => ?_) ?_ (threads.paced j)
      · exact ⟨rfl, kept_following.1, by simp [joined_following, other], by simp [State.wakeUps, kept_following.2]⟩
      · have managed := (threads.managed j).join left
        simpa [State.wakeUps, kept_following, joined_following] using managed
  | returned => cases taken

/-- A thread that the handler has woken twice or more has left that many expiries behind. -/
theorem Threads.prompt (threads : Threads kt state) (timed : Timed kt state)
    (pending : (state.thread j).pc = .schedule .running) : (state.thread j).shouldStop = true ∨
      state.started + kt + (state.thread j).releases.length * (every j * kt) ≤ state.now := by
  by_cases stopped : (state.thread j).shouldStop = true
  · exact .inl stopped
  · right
    have managed := threads.managed j
    have silent : state.exit.woken j = false := by
      have flag := managed.flag
      revert flag
      cases state.exit <;> simp [ExitPc.flagged, ExitPc.woken] <;> grind -ring -linarith
    have begun : (state.init.woken j).toNat = 1 := by
      have begun := managed.begun
      simpa [Thread.begun, pending] using begun.symm
    have balance := managed.balance
    simp only [Thread.balance, managed.begun, Thread.pending, pending, if_true, State.wakeUps, silent,
      Bool.toNat_false] at balance
    have share : (state.thread j).releases.length < share (state.timer.calls state.fired j) j := by omega
    have fired : (state.thread j).releases.length * every j < state.fired :=
      lt_of_lt_of_le (lt_of_lt_share share) calls_le
    have elapsed := timed.elapsed (Nat.ne_zero_of_lt fired)
    have scaled : ((state.thread j).releases.length * every j + 1) * kt ≤ state.fired * kt :=
      Nat.mul_le_mul_right kt fired
    rw [Nat.add_mul, Nat.one_mul, Nat.mul_assoc] at scaled
    omega

theorem Threads.step (threads : Threads kt state) (placed : Placed state) (timed : Timed kt state)
    (taken : state.step kt event = some next) : Threads kt next := by
  unfold State.step at taken
  split at taken
  · exact absurd taken nofun
  · cases event with
    | init => exact threads.initStep placed taken
    | createFails =>
        simp only [State.createFails] at taken
        split at taken <;> simp only [Option.some.injEq, reduceCtorEq] at taken
        rename_i position
        subst taken
        exact threads.keep rfl rfl fun k => ⟨by simp [position, InitPc.woken], rfl, rfl,
          by simp [State.wakeUps, position, InitPc.woken]⟩
    | timer => exact threads.timerStep placed timed taken
    | exit => exact threads.exitStep placed taken
    | thread j =>
        obtain ⟨cur, ran, same⟩ := Option.map_eq_some_iff.mp taken
        subst same
        exact threads.set (j := j) rfl rfl (fun k _ => ⟨rfl, rfl, rfl, rfl⟩) ((threads.managed j).run ran)
          ((threads.paced j).run ran (threads.prompt timed))
    | tick duration =>
        simp only [Option.some.injEq] at taken
        exact taken ▸ threads.keep rfl rfl fun k => ⟨rfl, rfl, rfl, rfl⟩

/-- What every reachable state keeps. -/
theorem kept (reached : (realtime kt).Reachable state) : Placed state ∧ Timed kt state ∧ Threads kt state := by
  refine reached.invariant (fun state => Placed state ∧ Timed kt state ∧ Threads kt state) ?_ ?_
  · rintro state ⟨now, rfl⟩
    exact ⟨placed_start now, timed_start kt now, threads_start kt now⟩
  · rintro state event next - ⟨placed, timed, threads⟩ - taken
    exact ⟨placed.step taken, timed.step placed taken, threads.step placed timed taken⟩

/-- The labels of a load whose calls all succeed. -/
def loads : List Event := List.replicate 13 .init

theorem initial : (realtime 1).start { now := 0 } := ⟨0, rfl⟩

/-- Each wake-up of the handler is used for one pass of its thread, is about to be, or was absorbed by a thread
that was awake. The stop of the thread adds one wake-up. -/
theorem expiries_accounted (reached : (realtime kt).Reachable state) (loaded : state.init = .done) (j : Fin 3) :
    (state.thread j).releases.length + (state.thread j).pending + (state.thread j).absorbed =
      share (state.timer.calls state.fired j) j + (state.exit.woken j).toNat := by
  have managed := (kept reached).2.2.managed j
  have balance := managed.balance
  simp only [Thread.balance, managed.begun, State.wakeUps, loaded, InitPc.woken, Bool.toNat_true] at balance
  omega

theorem expiries_accounted_absorbed : ∃ state, (realtime 1).Reachable state ∧
    (state.thread 0).releases.length + (state.thread 0).pending + (state.thread 0).absorbed = 1 := by
  have executed : ((realtime 1).execute { now := 0 } (loads ++ [.tick 1, .timer, .timer])).map
      (fun state => (state.init, share (state.timer.calls state.fired 0) 0 + (state.exit.woken 0).toNat)) =
        some (.done, 1) := by decide +kernel
  obtain ⟨state, reached, shown⟩ := Machine.execute_shows initial _ _ executed
  simp only [Prod.mk.injEq] at shown
  exact ⟨state, reached, (expiries_accounted reached shown.1 0).trans shown.2⟩

/-- A pass of a thread never begins before its own expiries have had the time for it. The last pass of a stopped
thread is excepted, since the stop may have caused it. -/
theorem release_not_early (reached : (realtime kt).Reachable state) (j : Fin 3) {i : Nat}
    (inside : i < (state.thread j).releases.length)
    (earlier : (state.thread j).shouldStop = true → i + 1 < (state.thread j).releases.length) :
    state.started + kt + i * (every j * kt) ≤ (state.thread j).releases[i] :=
  ((kept reached).2.2.paced j).le inside earlier

theorem release_not_early_first : ∃ state, (realtime 1).Reachable state ∧
    ∃ inside : 0 < (state.thread 0).releases.length, state.started + 1 + 0 * (every 0 * 1) ≤ (state.thread 0).releases[0] := by
  have executed : ((realtime 1).execute { now := 0 } (loads ++ List.replicate 5 (.thread 0) ++
      [.tick 1, .timer, .timer, .thread 0])).map
      (fun state => ((state.thread 0).releases.length, (state.thread 0).shouldStop)) = some (1, false) := by
    decide +kernel
  obtain ⟨state, reached, shown⟩ := Machine.execute_shows initial _ _ executed
  simp only [Prod.mk.injEq] at shown
  have inside : 0 < (state.thread 0).releases.length := by omega
  exact ⟨state, reached, inside, release_not_early reached 0 inside fun stopped => by simp [shown.2] at stopped⟩

/-- The function `realtime_init` never returns an error: a failed creation has no other end than a crash. Each thread
that is woken has been created, and only `kthread_stop` wakes a thread that may have returned. A module that has been
unloaded has neither a timer nor a thread left. -/
theorem threads_valid (reached : (realtime kt).Reachable state) : state.init ≠ .failed ∧
    (∀ j, state.init = .bind j → (state.thread j).pc = .absent → ∀ event next, state.step kt event = some next →
      next.crashed = true ∨ next.init = .bind j ∧ (next.thread j).pc = .absent) ∧
    (∀ event j, state.wakes event = some j →
      (state.thread j).pc ≠ .absent ∧ (event ≠ .exit → (state.thread j).pc ≠ .exited)) ∧
    (state.exit = .returned → state.timer = .off ∧ ∀ j, (state.thread j).pc = .exited) := by
  obtain ⟨placed, timed, threads⟩ := kept reached
  have woken (j : Fin 3) (begun : state.init.woken j = true) : (state.thread j).pc ≠ .absent := by
    intro absent
    have managed := (threads.managed j).begun
    simp [Thread.begun, absent, begun] at managed
  have loaded (early : state.timer ≠ .off ∨ state.exit ≠ .notStarted) : state.init = .done := by
    by_contra before
    obtain ⟨off, running, _⟩ := placed.idle before
    exact early.elim (absurd off) (absurd running)
  have unstopped (j : Fin 3) (running : state.exit.flagged j = false) : (state.thread j).pc ≠ .exited := by
    intro left
    have flagged := (threads.managed j).leaves left
    simp [running] at flagged
  refine ⟨placed.succeeds, ?_, ?_, ?_⟩
  · intro j position absent event next taken
    obtain ⟨off, running, _⟩ := placed.idle (by simp [position])
    unfold State.step at taken
    split at taken
    · cases taken
    · cases event with
      | init =>
          simp only [State.initStep, position, absent, if_true, Option.some.injEq] at taken
          exact .inl (taken ▸ rfl)
      | createFails => simp [State.createFails, position] at taken
      | timer => simp [State.timerStep, off] at taken
      | exit => simp [State.exitStep, running, position] at taken
      | thread k =>
          obtain ⟨cur, ran, same⟩ := Option.map_eq_some_iff.mp taken
          have other : j ≠ k := by
            rintro rfl
            simp [Thread.run, absent] at ran
          subst same
          exact .inr ⟨position, by simpa [other] using absent⟩
      | tick duration =>
          simp only [Option.some.injEq] at taken
          exact .inr (taken ▸ ⟨position, absent⟩)
  · intro event j wakes
    cases event with
    | init =>
        simp only [State.wakes] at wakes
        split at wakes <;> simp only [Option.some.injEq, reduceCtorEq] at wakes
        rename_i position
        subst wakes
        obtain ⟨_, running, _⟩ := placed.idle (by simp [position])
        exact ⟨placed.created _ (.inr position), fun _ => unstopped _ (running ▸ rfl)⟩
    | timer =>
        simp only [State.wakes] at wakes
        split at wakes
        · rename_i k expiry position
          have begun : state.init = .done := loaded (.inl (by simp [position]))
          refine ⟨woken j (begun ▸ rfl), fun _ => unstopped j ?_⟩
          rcases placed.cancelled (by simp [position]) with same | same <;> rw [same] <;> rfl
        · cases wakes
    | exit =>
        simp only [State.wakes] at wakes
        split at wakes
        · rename_i position
          exact ⟨woken j (loaded (.inr (by simp [position])) ▸ rfl), fun other => absurd rfl other⟩
        · cases wakes
    | createFails | thread | tick => cases wakes
  · intro returned
    refine ⟨?_, fun j => (threads.managed j).joined (returned ▸ rfl)⟩
    by_contra running
    rcases placed.cancelled running with same | same <;> simp [returned] at same

theorem threads_valid_unloaded : ∃ state, (realtime 1).Reachable state ∧ state.timer = .off ∧
    ∀ j, (state.thread j).pc = .exited := by
  have executed : ((realtime 1).execute { now := 0 } (loads ++ [.exit, .exit] ++
      [0, 1, 2].flatMap fun j => [.exit, .exit, .thread j, .exit])).map State.exit = some .returned := by
    decide +kernel
  obtain ⟨state, reached, shown⟩ := Machine.execute_shows initial _ _ executed
  exact ⟨state, reached, (threads_valid reached).2.2.2 shown⟩

/-- A lost thread that `realtime_exit` waits for keeps the module from being unloaded, since the timer is off. -/
theorem step_lost (waits : state.exit = .join j ∧ (state.thread j).Lost true ∧ state.init = .done ∧ state.timer = .off)
    (taken : state.step kt event = some next) :
    next.exit = .join j ∧ (next.thread j).Lost true ∧ next.init = .done ∧ next.timer = .off := by
  obtain ⟨joining, lost, loaded, off⟩ := waits
  unfold State.step at taken
  split at taken
  · exact absurd taken nofun
  · cases event with
    | init => simp [State.initStep, loaded] at taken
    | createFails => simp [State.createFails, loaded] at taken
    | timer => simp [State.timerStep, off] at taken
    | exit =>
        have running : (state.thread j).pc ≠ .exited := by
          unfold Thread.Lost at lost
          grind -ring -linarith
        simp [State.exitStep, joining, running] at taken
    | thread k =>
        obtain ⟨cur, ran, same⟩ := Option.map_eq_some_iff.mp taken
        subst same
        refine ⟨joining, ?_, loaded, off⟩
        rw [set_thread]
        split
        · rename_i same
          exact (same ▸ lost).run ran
        · exact lost
    | tick duration =>
        simp only [Option.some.injEq] at taken
        exact taken ▸ ⟨joining, lost, loaded, off⟩

/-- A stopped thread that has heard its stop returns by its own statements alone. -/
theorem execute_heard (running : state.crashed = false) (stopped : (state.thread j).shouldStop = true)
    (created : (state.thread j).pc ≠ .absent) (woken : (state.thread j).pc ≠ .created)
    (heard : ¬ (state.thread j).Lost true) : ∃ n final, n ≤ (state.thread j).remaining (data j) ∧
      (realtime kt).execute state (List.replicate n (.thread j)) = some final ∧ (final.thread j).pc = .exited ∧
        final.exit = state.exit := by
  -- the thread hears its stop at each of its statements, and the unload waits
  let property (current : State) := current.crashed = false ∧ (current.thread j).shouldStop = true ∧
    (current.thread j).pc ≠ .absent ∧ (current.thread j).pc ≠ .created ∧ ¬ (current.thread j).Lost true ∧
      current.exit = state.exit
  have advance (current : State) (holds : property current) (left : (current.thread j).pc ≠ .exited) :
      ∃ event next, event = .thread j ∧ (realtime kt).step current event = some next ∧ property next ∧
        (next.thread j).remaining (data j) < (current.thread j).remaining (data j) := by
    obtain ⟨running, stopped, created, woken, heard, same⟩ := holds
    obtain ⟨cur, ran, shorter, kept, present, begun⟩ := exists_run_of_not_lost (data j) current.now stopped
      ⟨created, left⟩ woken heard
    refine ⟨.thread j, current.set j cur, rfl, by simp [realtime, State.step, running, ran],
      ⟨running, by simpa using (shouldStop_run ran).trans stopped, by simpa using present, by simpa using begun,
        by simpa using kept, same⟩, by simpa using shorter⟩
  obtain ⟨events, final, short, threads, executed, ⟨_, _, _, _, _, same⟩, exited⟩ :=
    Machine.exists_execute advance ⟨running, stopped, created, woken, heard, rfl⟩
  rw [List.eq_replicate_of_mem threads] at executed
  exact ⟨events.length, final, short, executed, exited, same⟩

/-- The position of the thread decides whether `kthread_stop` returns. If its wake-up has come between the test of the
flag and the sleep, no run ever leaves the call. Otherwise the thread returns by its own statements. -/
theorem stop_decides (reached : (realtime kt).Reachable state) (joining : state.exit = .join j) :
    ((state.thread j).Lost true → ∀ events final, (realtime kt).execute state events = some final → final.exit = .join j) ∧
    (¬ (state.thread j).Lost true → ∃ n final, n ≤ data j + 3 ∧
      (realtime kt).execute state (List.replicate n (.thread j)) = some final ∧ (final.thread j).pc = .exited ∧
        final.exit = .join j) := by
  obtain ⟨placed, timed, threads⟩ := kept reached
  have loaded : state.init = .done := by
    by_contra before
    simpa [joining] using (placed.idle before).2.1
  have off : state.timer = .off := by
    by_contra running
    simpa [joining] using placed.cancelled running
  have running : state.crashed = false := by
    by_contra crashed
    obtain ⟨k, position, _⟩ := placed.crashed (by simpa using crashed)
    simp [loaded] at position
  constructor
  · intro lost events final executed
    have waits := Machine.execute_keeps
      (fun state => state.exit = .join j ∧ (state.thread j).Lost true ∧ state.init = .done ∧ state.timer = .off)
      events (fun _ _ _ _ => step_lost) ⟨joining, lost, loaded, off⟩ executed
    exact waits.1
  · intro heard
    have begun := (threads.managed j).begun
    have flag := (threads.managed j).flag
    simp only [joining, loaded, ExitPc.flagged, InitPc.woken, le_refl, decide_true, Bool.toNat_true] at begun flag
    have present : (state.thread j).pc ≠ .absent ∧ (state.thread j).pc ≠ .created := by
      unfold Thread.begun at begun
      grind -ring -linarith
    obtain ⟨n, final, few, executed, exited, same⟩ := execute_heard running flag present.1 present.2 heard
    refine ⟨n, final, few.trans ?_, executed, exited, same.trans joining⟩
    unfold Thread.remaining
    split <;> omega

theorem stop_decides_lost : ∃ state, (realtime 1).Reachable state ∧
    ∀ events final, (realtime 1).execute state events = some final → final.exit = .join 0 := by
  have executed : ((realtime 1).execute { now := 0 } (loads ++ [.thread 0, .thread 0] ++ List.replicate 4 .exit)).map
      (fun state => (state.exit, (state.thread 0).pc)) = some (.join 0, .body) := by decide +kernel
  obtain ⟨state, reached, shown⟩ := Machine.execute_shows initial _ _ executed
  simp only [Prod.mk.injEq] at shown
  exact ⟨state, reached, (stop_decides reached shown.1).1 (.inl ⟨shown.2, rfl⟩)⟩

end KernelStudio.Realtime
