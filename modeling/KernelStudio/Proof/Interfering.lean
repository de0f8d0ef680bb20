/-
This file proves for which periods the interfering module keeps its passes a period apart, and when it can be
unloaded.
-/

import KernelStudio.Construction.Interfering

namespace KernelStudio.Interfering

open Kthread Transition

/-- The function `interfering_init` has woken the thread. -/
def InitPc.woken : InitPc → Bool
  | .start | .done => true
  | .inputPolicy | .create | .isErr | .wake | .failed => false

/-- The function `interfering_exit` has set the stop flag of the thread. -/
def ExitPc.flagged : ExitPc → Bool
  | .wake | .join | .returned => true
  | .notStarted | .cancel | .stop => false

/-- The function `interfering_exit` has woken the thread. -/
def ExitPc.woken : ExitPc → Bool
  | .join | .returned => true
  | .notStarted | .cancel | .stop | .wake => false

/-- The expiries whose handler has woken the thread. -/
def Timer.calls (fired : Nat) : Timer → Nat
  | .wake _ => fired - 1
  | .off | .armed _ | .forward _ => fired

/-- The expiry of the timer lies on the grid or later. -/
def Timer.Late (started fired kt : Nat) : Timer → Prop
  | .off => True
  | .armed expiry => started + (fired + 1) * kt ≤ expiry
  | .wake expiry | .forward expiry => 0 < fired ∧ started + fired * kt ≤ expiry

/-- The wake-ups that the thread has received. -/
def State.wakeUps (state : State) : Nat :=
  state.init.woken.toNat + state.timer.calls state.fired + state.exit.woken.toNat

variable {period : BitVec 32} {state next : State} {event : Event}

/-- What a run keeps: the positions, the grid of the timer and the thread with its releases. -/
structure Kept (state : State) : Prop where
  created : state.init = .wake → state.thread.pc ≠ .absent
  idle : state.init ≠ .done → state.timer = .off ∧ state.exit = .notStarted ∧ state.fired = 0
  cancelled : state.timer ≠ .off → state.exit = .notStarted ∨ state.exit = .cancel
  elapsed : state.fired ≠ 0 → state.started + state.fired * state.kt ≤ state.now
  late : state.timer.Late state.started state.fired state.kt
  managed : state.thread.Managed state.init.woken state.exit.flagged (state.exit = .returned) state.wakeUps
  paced : state.thread.Paced (state.started + state.kt) state.kt

theorem kept_start {now : Nat} {numIter inputPolicy : BitVec 32} :
    Kept { now, period, numIter, inputPolicy, kt := ktimeSet period } where
  created := nofun
  idle _ := ⟨rfl, rfl, rfl⟩
  cancelled := nofun
  elapsed := nofun
  late := trivial
  managed := managed_absent
  paced := .inl (spaced_nil _ _)

/-- As long as the timer has not been started, the thread receives no wake-up behind the first one. -/
theorem Kept.releases_nil (kept : Kept state) (early : state.init ≠ .done) : state.thread.releases = [] := by
  obtain ⟨off, running, none⟩ := kept.idle early
  refine kept.managed.releases_nil ?_
  simp [State.wakeUps, off, running, none, Timer.calls, ExitPc.woken]

theorem Kept.initStep (kept : Kept state) (taken : state.initStep = some next) : Kept next := by
  obtain ⟨now, period, numIter, inputPolicy, kt, thread, timer, init, exit, started, fired⟩ := state
  have silent := kept.releases_nil
  obtain ⟨created, idle, cancelled, elapsed, late, managed, paced⟩ := kept
  unfold State.initStep at taken
  cases init with
  | inputPolicy =>
      simp only [Option.some.injEq] at taken
      subst taken
      split <;> exact ⟨nofun, fun _ => idle nofun, cancelled, elapsed, late, managed, paced⟩
  | create =>
      simp only [Option.some.injEq] at taken
      subst taken
      exact ⟨nofun, fun _ => idle nofun, cancelled, elapsed, late, managed.create rfl,
        paced_of_releases_nil (silent nofun)⟩
  | isErr =>
      simp only [Option.some.injEq] at taken
      subst taken
      split
      · exact ⟨nofun, fun _ => idle nofun, cancelled, elapsed, late, managed, paced⟩
      · rename_i present
        exact ⟨fun _ => present, fun _ => idle nofun, cancelled, elapsed, late, managed, paced⟩
  | wake =>
      simp only [Option.some.injEq] at taken
      subst taken
      refine ⟨nofun, fun _ => idle nofun, cancelled, elapsed, late, ?_, paced.wake⟩
      have woken := managed.wake (created rfl)
      simpa [State.wakeUps, InitPc.woken, Nat.add_comm, Nat.add_left_comm] using woken
  | start =>
      simp only [Option.some.injEq] at taken
      subst taken
      obtain ⟨off, running, none⟩ := idle nofun
      simp only at off none running
      subst off none running
      refine ⟨nofun, nofun, fun _ => .inl rfl, nofun, ?_, managed, paced_of_releases_nil (silent nofun)⟩
      simp [Timer.Late]
  | done | failed => exact absurd taken nofun

theorem Kept.timerStep (kept : Kept state) (taken : state.timerStep = some next) : Kept next := by
  obtain ⟨now, period, numIter, inputPolicy, kt, thread, timer, init, exit, started, fired⟩ := state
  obtain ⟨created, idle, cancelled, elapsed, late, managed, paced⟩ := kept
  have loaded (running : timer ≠ .off) : init = .done := by
    by_contra early
    exact running (idle early).1
  unfold State.timerStep at taken
  cases timer with
  | off => cases taken
  | armed expiry =>
      simp only at taken
      split at taken <;> simp only [Option.some.injEq, reduceCtorEq] at taken
      subst taken
      have begun : init = .done := loaded (by simp)
      simp only [Timer.Late] at late
      refine ⟨created, fun early => absurd begun early, fun _ => cancelled (by simp), fun _ => ?_,
        ⟨Nat.succ_pos _, late⟩, managed, paced⟩
      dsimp only
      omega
  | wake expiry =>
      simp only [Option.some.injEq] at taken
      subst taken
      have begun : init = .done := loaded (by simp)
      obtain ⟨positive, onGrid⟩ : 0 < fired ∧ started + fired * kt ≤ expiry := late
      have present : thread.pc ≠ .absent := by
        intro absent
        have first := managed.begun
        simp [Thread.begun, absent, begun, InitPc.woken] at first
      refine ⟨fun early => by simp [begun] at early, fun early => absurd begun early, fun _ => cancelled (by simp),
        elapsed, ⟨positive, onGrid⟩, ?_, paced.wake⟩
      have woken := managed.wake present
      simp only [State.wakeUps, Timer.calls, begun, InitPc.woken, Bool.toNat_true] at woken ⊢
      convert woken using 1
      omega
  | forward expiry =>
      simp only [Option.some.injEq] at taken
      subst taken
      have begun : init = .done := loaded (by simp)
      have forward : expiry + kt ≤ hrtimerForward now expiry kt := le_hrtimerForward now expiry kt
      simp only [Timer.Late] at late
      refine ⟨created, fun early => absurd begun early, fun _ => cancelled (by simp), elapsed, ?_, managed, paced⟩
      simp only [Timer.Late, Nat.add_mul]
      omega

theorem Kept.exitStep (kept : Kept state) (taken : state.exitStep = some next) : Kept next := by
  obtain ⟨now, period, numIter, inputPolicy, kt, thread, timer, init, exit, started, fired⟩ := state
  obtain ⟨created, idle, cancelled, elapsed, late, managed, paced⟩ := kept
  have loaded (left : exit ≠ .notStarted) : init = .done := by
    by_contra early
    exact left (idle early).2.1
  have stopped (later : exit ≠ .notStarted ∧ exit ≠ .cancel) : timer = .off := by
    by_contra running
    exact (cancelled running).elim later.1 later.2
  unfold State.exitStep at taken
  cases exit with
  | notStarted =>
      simp only at taken
      split at taken <;> simp only [Option.some.injEq, reduceCtorEq] at taken
      rename_i begun
      exact taken ▸ ⟨created, fun early => absurd begun early, fun _ => .inr rfl, elapsed, late, managed, paced⟩
  | cancel =>
      have begun : init = .done := loaded (by simp)
      simp only at taken
      split at taken <;> simp only [Option.some.injEq, reduceCtorEq] at taken
      all_goals exact taken ▸ ⟨created, fun early => absurd begun early, fun running => absurd rfl running, elapsed,
        trivial, managed, paced⟩
  | stop =>
      have begun : init = .done := loaded (by simp)
      have off : timer = .off := stopped (by simp)
      simp only [Option.some.injEq] at taken
      exact taken ▸ ⟨created, fun early => absurd begun early, fun running => absurd off running, elapsed, late,
        managed.stop, paced.stop⟩
  | wake =>
      have begun : init = .done := loaded (by simp)
      have off : timer = .off := stopped (by simp)
      simp only [Option.some.injEq] at taken
      subst taken
      have present : thread.pc ≠ .absent := by
        intro absent
        have first := managed.begun
        simp [Thread.begun, absent, begun, InitPc.woken] at first
      refine ⟨fun early => by simp [begun] at early, fun early => absurd begun early,
        fun running => absurd off running, elapsed, late, ?_, paced.wake⟩
      have woken := managed.wake present
      simp only [State.wakeUps, begun, InitPc.woken, Bool.toNat_true] at woken ⊢
      exact woken
  | join =>
      have begun : init = .done := loaded (by simp)
      have off : timer = .off := stopped (by simp)
      simp only at taken
      split at taken <;> simp only [Option.some.injEq, reduceCtorEq] at taken
      rename_i left
      exact taken ▸ ⟨created, fun early => absurd begun early, fun running => absurd off running, elapsed, late,
        managed.join left, paced⟩
  | returned => cases taken

/-- A pending release of a thread that is not stopped has an expiry of its own behind it. -/
theorem Kept.prompt (kept : Kept state) (pending : state.thread.pc = .schedule .running) :
    state.thread.shouldStop = true ∨
      state.started + state.kt + state.thread.releases.length * state.kt ≤ state.now := by
  by_cases stopped : state.thread.shouldStop = true
  · exact .inl stopped
  · right
    have flag := kept.managed.flag
    have silent : state.exit.woken = false := by
      revert flag
      cases state.exit <;> simp [ExitPc.flagged, ExitPc.woken, stopped]
    have begun := kept.managed.begun
    have balance := kept.managed.balance
    have calls : state.timer.calls state.fired ≤ state.fired := by
      unfold Timer.calls
      grind
    simp only [Thread.balance, begun, Thread.pending, pending, if_true, State.wakeUps, silent, Bool.toNat_false]
      at balance
    have fired : state.thread.releases.length + 1 ≤ state.fired := by omega
    have elapsed := kept.elapsed (Nat.ne_zero_of_lt fired)
    have scaled : (state.thread.releases.length + 1) * state.kt ≤ state.fired * state.kt :=
      Nat.mul_le_mul_right state.kt fired
    rw [Nat.add_mul, Nat.one_mul] at scaled
    omega

theorem Kept.step (kept : Kept state) (taken : state.step event = some next) : Kept next := by
  cases event with
  | init => exact kept.initStep taken
  | timer => exact kept.timerStep taken
  | exit => exact kept.exitStep taken
  | createFails =>
      simp only [State.step, State.createFails] at taken
      split at taken <;> simp only [Option.some.injEq, reduceCtorEq] at taken
      rename_i position
      subst taken
      refine ⟨nofun, fun _ => kept.idle (position ▸ nofun), kept.cancelled, kept.elapsed, kept.late, ?_, kept.paced⟩
      simpa [State.wakeUps, position, InitPc.woken] using kept.managed
  | thread =>
      obtain ⟨thread, ran, same⟩ := Option.map_eq_some_iff.mp taken
      exact same ▸ ⟨fun _ => pc_ne_absent_of_run ran, kept.idle, kept.cancelled, kept.elapsed, kept.late,
        kept.managed.run ran, kept.paced.run ran kept.prompt⟩
  | writePeriod value | writeNumIter value =>
      simp only [State.step, Option.some.injEq] at taken
      exact taken ▸ ⟨kept.created, kept.idle, kept.cancelled, kept.elapsed, kept.late, kept.managed, kept.paced⟩
  | tick duration =>
      simp only [State.step, Option.some.injEq] at taken
      exact taken ▸ ⟨kept.created, kept.idle, kept.cancelled,
        fun fired => Nat.le_add_right_of_le (kept.elapsed fired), kept.late, kept.managed, kept.paced⟩

theorem kept (reached : (interfering period).Reachable state) : Kept state :=
  reached.invariant Kept (by rintro state ⟨now, numIter, inputPolicy, rfl⟩; exact kept_start)
    fun _ _ _ _ holds _ taken => holds.step taken

/-- The interval of the timer is the one that was computed from the first period. -/
theorem kt_eq (reached : (interfering period).Reachable state) : state.kt = ktimeSet period := by
  refine reached.invariant (fun state => state.kt = ktimeSet period) ?_ ?_
  · rintro state ⟨now, numIter, inputPolicy, rfl⟩
    rfl
  · rintro state event next - before - taken
    rw [← before]
    cases event with
    | init =>
        simp only [interfering, State.step, State.initStep] at taken
        grind
    | createFails =>
        simp only [interfering, State.step, State.createFails] at taken
        grind
    | timer =>
        simp only [interfering, State.step, State.timerStep] at taken
        grind
    | exit =>
        simp only [interfering, State.step, State.exitStep] at taken
        grind
    | thread =>
        obtain ⟨thread, _, same⟩ := Option.map_eq_some_iff.mp taken
        exact same ▸ rfl
    | writePeriod | writeNumIter | tick =>
        simp only [interfering, State.step, Option.some.injEq] at taken
        exact taken ▸ rfl

/-- The nanoseconds of a period in milliseconds. -/
def nanoseconds (period : BitVec 32) : Nat := period.toNat * 1000000

theorem ktimeSet_mod (period : BitVec 32) : ktimeSet period = period.toNat * 1000000 % 4294967296 := by
  rw [ktimeSet, BitVec.toNat_mul]
  rfl

/-- The product does not wrap around for the periods below 4295 milliseconds. -/
theorem ktimeSet_eq (small : period.toNat ≤ 4294) : ktimeSet period = nanoseconds period := by
  rw [ktimeSet_mod]
  exact Nat.mod_eq_of_lt (by omega)

theorem ktimeSet_lt (large : 4294 < period.toNat) : ktimeSet period < nanoseconds period := by
  rw [ktimeSet_mod, nanoseconds]
  have bound := Nat.mod_lt (period.toNat * 1000000) (show 0 < 4294967296 by decide)
  omega

/-- The labels that take the thread to sleep, let the interval pass and wake the thread. -/
def firstRelease (kt : Nat) : List Event :=
  List.replicate 5 .init ++ List.replicate 5 .thread ++ [.tick kt, .timer, .timer, .thread]

/-- The first pass of a thread that sleeps begins as soon as the interval has passed. -/
theorem execute_firstRelease (sleeps : period ≠ 0) (kt : Nat) :
    ((interfering period).execute { now := 0, period, numIter := 0, inputPolicy := 0, kt } (firstRelease kt)).map
      (fun state => (state.started, state.thread.shouldStop, state.thread.releases)) = some (0, false, [kt]) := by
  have nonzero : ¬ period = 0#32 := sleeps
  simp [firstRelease, List.replicate, Machine.execute, interfering, State.step, State.initStep, State.timerStep,
    State.sleeps, nonzero, Thread.create, Thread.wakeUpProcess, Pc.wake, Thread.run]

/-- No pass begins before its number of periods has passed since the start of the timer. Only the last pass of a stopped
thread is excepted, which its stop has caused. -/
def PeriodKept (gap : Nat) (state : State) : Prop :=
  ∀ i, (inside : i < state.thread.releases.length) →
    (state.thread.shouldStop = true → i + 1 < state.thread.releases.length) →
      state.started + (i + 1) * gap ≤ state.thread.releases[i]

theorem not_periodKept {gap kt : Nat} (early : kt < gap)
    (shown : (state.started, state.thread.shouldStop, state.thread.releases) = (0, false, [kt])) :
    ¬ PeriodKept gap state := by
  simp only [Prod.mk.injEq] at shown
  obtain ⟨started, running, releases⟩ := shown
  intro spaced
  have first := spaced 0 (by simp [releases]) (by simp [running])
  simp only [releases, started, List.getElem_cons_zero, Nat.zero_add, Nat.one_mul] at first
  exact absurd first (Nat.not_le_of_lt early)

/-- The passes that the timer causes keep to the period, counted from the start of the timer, in all runs exactly when
the period is at most 4294 milliseconds. Above, the product with the nanoseconds wraps around and the timer runs too
fast. -/
theorem period_kept_iff (period : BitVec 32) :
    (∀ state, (interfering period).Reachable state → PeriodKept (nanoseconds period) state) ↔
      period.toNat ≤ 4294 := by
  constructor
  · intro spaced
    by_contra large
    have sleeps : period ≠ 0 := by
      rintro rfl
      exact large (Nat.zero_le _)
    have initial : (interfering period).start
      { now := 0, period, numIter := 0, inputPolicy := 0, kt := ktimeSet period } := ⟨0, 0, 0, rfl⟩
    obtain ⟨state, reached, shown⟩ :=
      Machine.execute_shows initial _ _ (execute_firstRelease sleeps (ktimeSet period))
    exact not_periodKept (ktimeSet_lt (Nat.lt_of_not_le large)) shown (spaced state reached)
  · intro small state reached i inside earlier
    have late := (kept reached).paced.le inside earlier
    rw [kt_eq reached, ktimeSet_eq small] at late
    rw [Nat.add_mul, Nat.one_mul]
    omega

/-- The last period that is kept, and the first one that wraps around. -/
theorem period_kept_iff_wrapped :
    (∀ state, (interfering 4294).Reachable state → PeriodKept (nanoseconds 4294) state) ∧
      ∃ state, (interfering 4295).Reachable state ∧ ¬ PeriodKept (nanoseconds 4295) state := by
  refine ⟨(period_kept_iff 4294).mpr (by decide), ?_⟩
  by_contra none
  have wrapped := (period_kept_iff 4295).mp fun state reached => by
    by_contra early
    exact none ⟨state, reached, early⟩
  exact absurd wrapped (by decide)

/-- A lost thread stays lost as long as the period is not written. -/
theorem step_lost (waits : state.exit = .join ∧ state.thread.Lost state.sleeps ∧ state.init = .done ∧ state.timer = .off)
    (quiet : ∀ value, event ≠ .writePeriod value) (taken : state.step event = some next) :
    next.exit = .join ∧ next.thread.Lost next.sleeps ∧ next.init = .done ∧ next.timer = .off := by
  obtain ⟨joining, lost, loaded, off⟩ := waits
  cases event with
  | init => simp [State.step, State.initStep, loaded] at taken
  | createFails => simp [State.step, State.createFails, loaded] at taken
  | timer => simp [State.step, State.timerStep, off] at taken
  | exit =>
      have running : state.thread.pc ≠ .exited := by
        unfold Thread.Lost at lost
        grind
      simp [State.step, State.exitStep, joining, running] at taken
  | thread =>
      obtain ⟨thread, ran, same⟩ := Option.map_eq_some_iff.mp taken
      exact same ▸ ⟨joining, lost.run ran, loaded, off⟩
  | writePeriod value => exact absurd rfl (quiet value)
  | writeNumIter value | tick duration =>
      simp only [State.step, Option.some.injEq] at taken
      exact taken ▸ ⟨joining, lost, loaded, off⟩

/-- A stopped thread that has heard its stop returns by its own statements alone. -/
theorem execute_heard (stopped : state.thread.shouldStop = true) (created : state.thread.pc ≠ .absent)
    (woken : state.thread.pc ≠ .created) (heard : ¬ state.thread.Lost state.sleeps) :
    ∃ n final, n ≤ state.thread.remaining state.numIter.toNat ∧
      (interfering period).execute state (List.replicate n .thread) = some final ∧ final.thread.pc = .exited ∧
        final.exit = state.exit := by
  -- the statements of the thread leave the parameters alone
  let property (current : State) := current.thread.shouldStop = true ∧ current.thread.pc ≠ .absent ∧
    current.thread.pc ≠ .created ∧ ¬ current.thread.Lost current.sleeps ∧ current.exit = state.exit ∧
      current.numIter = state.numIter
  have advance (current : State) (holds : property current) (left : current.thread.pc ≠ .exited) :
      ∃ event next, event = .thread ∧ (interfering period).step current event = some next ∧ property next ∧
        next.thread.remaining state.numIter.toNat < current.thread.remaining state.numIter.toNat := by
    obtain ⟨stopped, created, woken, heard, same, number⟩ := holds
    obtain ⟨thread, ran, shorter, kept, present, begun⟩ := exists_run_of_not_lost current.numIter.toNat
      current.now stopped ⟨created, left⟩ woken heard
    exact ⟨.thread, { current with thread }, rfl, by simp [interfering, State.step, ran],
      ⟨(shouldStop_run ran).trans stopped, present, begun, kept, same, number⟩, number ▸ shorter⟩
  obtain ⟨events, final, short, threads, executed, ⟨_, _, _, _, same, _⟩, exited⟩ :=
    Machine.exists_execute advance ⟨stopped, created, woken, heard, rfl, rfl⟩
  rw [List.eq_replicate_of_mem threads] at executed
  exact ⟨events.length, final, short, executed, exited, same⟩

/-- When `interfering_exit` waits for the thread, the position of the thread and the present period decide whether the
module can be unloaded: a thread that is about to sleep never returns unless the period is written, and any other
returns by its own statements. -/
theorem unload_decides (reached : (interfering period).Reachable state) (joining : state.exit = .join) :
    (state.thread.Lost state.sleeps → ∀ events final, (∀ value, .writePeriod value ∉ events) →
      (interfering period).execute state events = some final → final.exit = .join) ∧
    (¬ state.thread.Lost state.sleeps → ∃ n final, n ≤ state.numIter.toNat + 3 ∧
      (interfering period).execute state (List.replicate n .thread) = some final ∧ final.thread.pc = .exited ∧
        final.exit = .join) := by
  have holds := kept reached
  have loaded : state.init = .done := by
    by_contra before
    simpa [joining] using (holds.idle before).2.1
  have off : state.timer = .off := by
    by_contra running
    simpa [joining] using holds.cancelled running
  constructor
  · intro lost events final quiet executed
    have waits := Machine.execute_keeps
      (fun state => state.exit = .join ∧ state.thread.Lost state.sleeps ∧ state.init = .done ∧ state.timer = .off)
      events (fun event known _ _ holds => step_lost holds fun value same => quiet value (same ▸ known))
      ⟨joining, lost, loaded, off⟩ executed
    exact waits.1
  · intro heard
    have begun := holds.managed.begun
    have flag := holds.managed.flag
    simp only [joining, loaded, ExitPc.flagged, InitPc.woken, Bool.toNat_true] at begun flag
    have present : state.thread.pc ≠ .absent ∧ state.thread.pc ≠ .created := by
      unfold Thread.begun at begun
      grind
    obtain ⟨n, final, few, executed, exited, same⟩ := execute_heard flag present.1 present.2 heard
    refine ⟨n, final, few.trans ?_, executed, exited, same.trans joining⟩
    unfold Thread.remaining
    split <;> omega

theorem unload_decides_busy : ∃ state, (interfering 0).Reachable state ∧ ∃ n final, n ≤ state.numIter.toNat + 3 ∧
    (interfering 0).execute state (List.replicate n .thread) = some final ∧ final.thread.pc = .exited ∧
      final.exit = .join := by
  have initial : (interfering 0).start { now := 0, period := 0, numIter := 2, inputPolicy := 0, kt := ktimeSet 0 } :=
    ⟨0, 2, 0, rfl⟩
  have executed : ((interfering 0).execute { now := 0, period := 0, numIter := 2, inputPolicy := 0, kt := ktimeSet 0 }
      (List.replicate 5 .init ++ [.thread, .thread] ++ List.replicate 4 .exit)).map
        (fun state => (state.exit, state.thread.pc, state.period)) = some (.join, .body, 0) := by decide +kernel
  obtain ⟨state, reached, shown⟩ := Machine.execute_shows initial _ _ executed
  simp only [Prod.mk.injEq] at shown
  obtain ⟨joining, position, period⟩ := shown
  exact ⟨state, reached, (unload_decides reached joining).2 (by simp [Thread.Lost, State.sleeps, position, period])⟩

end KernelStudio.Interfering
