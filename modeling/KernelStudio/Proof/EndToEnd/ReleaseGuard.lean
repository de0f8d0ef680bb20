/-
This file proves the distance between consecutive releases of one subtask.
A release is due when the clock is a period past the last release, and a timer expires only then.
-/

import KernelStudio.Proof.EndToEnd.ReleaseChain
import Mathlib.Data.List.Chain

namespace KernelStudio.EndToEnd

open Transition

variable {header : Header} {state next : State}

theorem Pc.executing_of_early {pc : Pc} (early : pc.early = true) : pc.executing = 0 := by
  cases pc with
  | schedule taskState => rfl
  | _ => first | rfl | contradiction

/-- A quiet record holds no token. -/
theorem Sub.Quiet.supply {cur : Sub} (quiet : cur.Quiet) : cur.supply = 0 := by
  rw [Sub.supply, cur.armed_none quiet.timer, (Pc.woken_of_early quiet.early).1,
    Pc.executing_of_early quiet.early]

/-- A first subtask holds one token at most, and none before the start timer has passed it. -/
structure Single (header : Header) (k : Nat) (state : State) : Prop where
  token : (state.sub (header.task k).subtaskStartIdx).supply ≤ 1
  waits : state.calTimer.passed k = false → (state.sub (header.task k).subtaskStartIdx).Quiet

theorem single_of_quiet (quiet : ∀ i, (state.sub i).Quiet) (k : Nat) : Single header k state :=
  ⟨by rw [(quiet _).supply]; exact Nat.zero_le 1, fun _ => quiet _⟩

/-- The start timer gives one token to a quiet first subtask. -/
theorem single_cal (wf : header.WellFormed) {k : Nat} (inside : k < header.taskTot)
    (single : Single header k state) (taken : header.step state .cal = some next) : Single header k next := by
  rcases step_cal_first wf inside taken with ⟨_, left, passed, woken⟩ | ⟨same, record⟩
  · have quiet := single.waits left
    have empty := quiet.supply
    have one := (Pc.woken_wake_le (state.sub (header.task k).subtaskStartIdx).pc).2
    refine ⟨?_, fun again => by simp [passed] at again⟩
    rw [woken, Sub.supply, Sub.wakeUpProcess_pc, Pc.executing_wake,
      Sub.armed_none _ ((Sub.wakeUpProcess_timer _).trans quiet.timer)]
    rw [Sub.supply] at empty
    omega
  · exact ⟨record ▸ single.token, fun left => record ▸ single.waits (same ▸ left)⟩

/-- A timer of a first subtask turns its token into a wake-up or loses it. -/
theorem single_fire {k i : Nat} (single : Single header k state)
    (taken : header.step state (.fire i) = some next) : Single header k next := by
  obtain ⟨expiry, armed, _, rfl⟩ := step_fire taken
  by_cases own : (header.task k).subtaskStartIdx = i
  · subst own
    have token := single.token
    have one := (Pc.woken_wake_le (state.sub (header.task k).subtaskStartIdx).pc).2
    rw [Sub.supply, Sub.armed_some _ armed] at token
    refine ⟨?_, fun left => ?_⟩
    · simp only [State.set_sub, Function.update_self, Sub.supply, Sub.wakeUpProcess_pc, Sub.removeHrtimer_pc,
        Pc.executing_wake]
      rw [Sub.armed_none _ (by simp)]
      omega
    · rw [(single.waits left).timer] at armed
      contradiction
  · exact ⟨by simpa [own] using single.token, fun left => by simpa [own] using single.waits left⟩

/-- A thread adds no token to a first subtask. -/
theorem single_thread {guard : Guard State Event} (wf : header.WellFormed)
    (reached : header.runMode.Reaches guard state) (before : state.exit = .notStarted) {k i : Nat}
    (inside : k < header.taskTot) (single : Single header k state)
    (taken : header.step state (.thread i) = some next) : Single header k next := by
  have startup := startup_reached reached before
  obtain ⟨cur, signal, statement, -, rfl⟩ := step_thread taken
  obtain ⟨_, _, first⟩ := wf.first inside
  have actor := startup.inside statement.started.1
  have records := step_thread_sub state i cur signal (header.task k).subtaskStartIdx
  by_cases own : (header.task k).subtaskStartIdx = i
  · subst own
    rw [if_pos rfl] at records
    have later := wf.successorIdx_eq actor
    have kept := statement.supply (timerReady_reached reached before) (startup.alive _).1 first (by omega)
    refine ⟨?_, fun left => ?_⟩
    · rw [records]
      exact Nat.le_trans kept.1 single.token
    · obtain ⟨quiet, silent⟩ := statement.quiet (single.waits (by simpa using left)) (startup.alive _).1
      rw [records, silent]
      exact quiet
  · have missed := statement.first_untouched wf reached actor first own
    rw [if_neg own, Signal.apply_of_not_aims missed] at records
    exact ⟨records ▸ single.token, fun left => records ▸ single.waits (by simpa using left)⟩

/-- No run before the unload gives a first subtask two tokens. -/
theorem single_reached {guard : Guard State Event} (wf : header.WellFormed) {k : Nat}
    (inside : k < header.taskTot) (reached : header.runMode.Reaches guard state)
    (before : state.exit = .notStarted) : Single header k state := by
  refine runMode_invariant (Single header k) (fun now => single_of_quiet (loaded_quiet now) k) ?_ reached before
  intro current event following visited early single _ running taken
  cases event with
  | init =>
      exact single_of_quiet (step_init_quiet (startup_reached visited early) taken).2.2 k
  | exit => exact absurd rfl running
  | cal => exact single_cal wf inside single taken
  | fire i => exact single_fire single taken
  | thread i => exact single_thread wf visited early inside single taken
  | tick duration =>
      rw [step_tick taken]
      exact ⟨single.token, single.waits⟩

/-- A release is due when it is the first one or a period has passed since the last one. -/
def Sub.Due (cur : Sub) (period now : Nat) : Prop :=
  cur.releases = [] ∨ cur.lastReleaseTime + period ≤ now

/-- The releases of a record are a period apart, and so will be the next one. -/
structure Sub.Spaced (cur : Sub) (period now : Nat) : Prop where
  armed : ∀ expiry, cur.timer = some expiry → cur.lastReleaseTime + period ≤ expiry
  woken : cur.pc.woken = 1 → cur.Due period now
  history : cur.releases.IsChain fun earlier later => earlier + period ≤ later
  recorded : ∀ last ∈ cur.releases.getLast?, last = cur.lastReleaseTime
  unreleased : cur.lastReleaseTime = 0 → cur.releases = []

namespace Sub

variable {cur : Sub} {period now : Nat}

/-- A quiet record has nothing to keep apart. -/
theorem Quiet.spaced (quiet : cur.Quiet) : cur.Spaced period now where
  armed expiry armed := by simp [quiet.timer] at armed
  woken _ := .inl quiet.releases
  history := by simp [quiet.releases]
  recorded := by simp [quiet.releases]
  unreleased _ := quiet.releases

/-- Time alone keeps releases apart. -/
theorem Spaced.later (spaced : cur.Spaced period now) {later : Nat} (passes : now ≤ later) :
    cur.Spaced period later :=
  { spaced with woken := fun woken => (spaced.woken woken).imp id fun due => Nat.le_trans due passes }

/-- A wake-up keeps releases apart when a release is due. -/
theorem Spaced.wake (spaced : cur.Spaced period now) (due : cur.Due period now) :
    cur.wakeUpProcess.Spaced period now :=
  { spaced with woken := fun _ => due }

/-- A timer start keeps releases apart when it expires a period after the last one. -/
theorem Spaced.start (spaced : cur.Spaced period now) {expiry : Nat}
    (late : cur.lastReleaseTime + period ≤ expiry) : (cur.hrtimerStart expiry).Spaced period now :=
  { spaced with armed := fun _ armed => Option.some.inj armed ▸ late }

/-- A timer that leaves its queue keeps releases apart. -/
theorem Spaced.remove (spaced : cur.Spaced period now) : cur.removeHrtimer.Spaced period now :=
  { spaced with armed := fun _ again => by simp at again }

/-- A due release extends the history. -/
theorem Spaced.release (spaced : cur.Spaced period now) (due : cur.Due period now)
    (idle : cur.timer = none) (positive : 0 < now) : ({ cur with
      lastReleaseTime := now, releases := cur.releases ++ [now], pc := .subtaskFunc } : Sub).Spaced period now where
  armed expiry armed := by simp [idle] at armed
  woken woken := by contradiction
  history := by
    refine spaced.history.append (.singleton now) fun last known first same => ?_
    obtain rfl : now = first := by simpa using same
    rcases due with none | late
    · simp [none] at known
    · rw [spaced.recorded last known]
      exact late
  recorded := by simp
  unreleased zero := absurd zero (Nat.ne_of_gt positive)

end Sub

/-- A statement keeps the releases of its own subtask apart unless it releases past an armed timer. -/
theorem Statement.spaced {i : Nat} {cur : Sub} {signal : Signal}
    (statement : Statement header state i cur signal)
    (spaced : (state.sub i).Spaced (header.periodTime i) state.now)
    (clear : (state.sub i).pc = .lastReleaseTime → (state.sub i).timer = none ∧ 0 < state.now) :
    cur.Spaced (header.periodTime i) state.now := by
  cases statement
  case lastReleaseTime position =>
    obtain ⟨idle, positive⟩ := clear position
    exact spaced.release (spaced.woken (by rw [position]; rfl)) idle positive
  case schedule position =>
    exact { spaced with woken := fun _ => spaced.woken (by rw [position]; rfl) }
  case hrtimerInit =>
    exact { spaced with
      armed := fun _ armed => by contradiction
      woken := fun woken => absurd woken Nat.zero_ne_one }
  case rearmFirst more | rearmLater more =>
    refine { spaced with woken := fun woken => ?_ }
    rcases more with ⟨_, rfl⟩ | ⟨_, rfl⟩ <;> exact absurd woken Nat.zero_ne_one
  all_goals exact { spaced with woken := fun woken => absurd woken Nat.zero_ne_one }

/-- A call keeps releases apart when a wake-up is due and a timer expires late enough. -/
def Signal.Allowed (signal : Signal) (header : Header) (state : State) : Prop :=
  match signal with
  | .none => True
  | .wake i => (state.sub i).Due (header.periodTime i) state.now
  | .start i expiry => (state.sub i).lastReleaseTime + header.periodTime i ≤ expiry

/-- The releases of each subtask are a period apart, and a thread that is about to wake its
successor has seen that the release is due. -/
structure Guarded (header : Header) (state : State) : Prop where
  spaced : ∀ i < header.subtaskTot, (state.sub i).Spaced (header.periodTime i) state.now
  ts : ∀ i, (state.sub i).pc = .releaseGuard → (state.sub i).ts ≤ state.now
  due : ∀ i, (state.sub i).pc = .wakeSuccessor →
    (state.sub (header.successorIdx i)).Due (header.periodTime (header.successorIdx i)) state.now

theorem guarded_of_quiet (quiet : ∀ i, (state.sub i).Quiet) : Guarded header state where
  spaced i _ := (quiet i).spaced
  ts i position := by
    have early := (quiet i).early
    simp [position, Pc.early] at early
  due i position := by
    have early := (quiet i).early
    simp [position, Pc.early] at early

theorem Sub.SameWork.due {cur before : Sub} (same : cur.SameWork before) {period now : Nat} :
    cur.Due period now ↔ before.Due period now := by
  rw [Sub.Due, Sub.Due, same.releases, same.lastReleaseTime]

/-- A call moves no thread into or out of the guard and the wake-up behind it. -/
theorem Signal.apply_guard (signal : Signal) (i : Nat) (cur : Sub) :
    ((signal.apply i cur).pc = .releaseGuard ↔ cur.pc = .releaseGuard) ∧
      ((signal.apply i cur).pc = .wakeSuccessor ↔ cur.pc = .wakeSuccessor) := by
  rcases signal.apply_pc i cur with same | woken
  · rw [same]
    exact ⟨Iff.rfl, Iff.rfl⟩
  · rw [woken]
    cases cur.pc <;> simp [Pc.wake]

/-- An allowed call keeps the release guard. -/
theorem guarded_signal (guarded : Guarded header state) {signal : Signal}
    (allowed : signal.Allowed header state) : Guarded header (state.signal signal) where
  spaced i inside := by
    rw [State.signal_sub, State.signal_now]
    have before := guarded.spaced i inside
    cases signal with
    | none => exact before
    | wake target =>
        by_cases aimed : i = target
        · subst aimed
          rw [Signal.apply_wake_self]
          exact before.wake allowed
        · simpa [Signal.apply, aimed] using before
    | start target expiry =>
        by_cases aimed : i = target
        · subst aimed
          rw [Signal.apply_start_self]
          exact before.start allowed
        · simpa [Signal.apply, aimed] using before
  ts i position := by
    rw [State.signal_sub, (signal.apply_guard i _).1] at position
    rw [State.signal_sub, (signal.apply_work i _).ts, State.signal_now]
    exact guarded.ts i position
  due i position := by
    rw [State.signal_sub, (signal.apply_guard i _).2] at position
    rw [State.signal_sub, (signal.apply_work _ _).due, State.signal_now]
    exact guarded.due i position

/-- Only the release statement changes the release times. -/
theorem Statement.due {i : Nat} {cur : Sub} {signal : Signal}
    (statement : Statement header state i cur signal) (other : (state.sub i).pc ≠ .lastReleaseTime)
    {period now : Nat} : cur.Due period now ↔ (state.sub i).Due period now := by
  cases statement
  case lastReleaseTime position => exact absurd position other
  all_goals exact Iff.rfl

/-- The release guard finds the release of its successor due. -/
theorem Sub.Spaced.due_of_guard {cur : Sub} {period now : Nat} (spaced : cur.Spaced period now) {ts : Nat}
    (past : ts ≤ now) (due : releaseDue ts period cur.lastReleaseTime = true) : cur.Due period now := by
  simp only [releaseDue, Bool.or_eq_true, decide_eq_true_eq] at due
  rcases due with zero | late
  · exact .inl (spaced.unreleased zero)
  · exact .inr (by omega)

/-- The clock has just been read when a thread comes to the guard. -/
theorem Statement.reads {i : Nat} {cur : Sub} {signal : Signal}
    (statement : Statement header state i cur signal) (position : cur.pc = .releaseGuard) :
    cur.ts = state.now := by
  cases statement
  case successorTs => rfl
  case rearmFirst more | rearmLater more => rcases more with ⟨_, rfl⟩ | ⟨_, rfl⟩ <;> simp at position
  all_goals simp at position

/-- The guard has just been tested when a thread comes to the wake-up. -/
theorem Statement.tested {i : Nat} {cur : Sub} {signal : Signal}
    (statement : Statement header state i cur signal) (position : cur.pc = .wakeSuccessor) :
    (state.sub i).pc = .releaseGuard ∧ releaseDue (state.sub i).ts (header.periodTime i)
      (state.sub (header.successorIdx i)).lastReleaseTime = true := by
  cases statement
  case guardDue place due => exact ⟨place, due⟩
  case rearmFirst more | rearmLater more => rcases more with ⟨_, rfl⟩ | ⟨_, rfl⟩ <;> simp at position
  all_goals simp at position

/-- A subtask releases only when no timer is left over and no predecessor is about to wake it. -/
structure ReleaseClear (header : Header) (state : State) (i : Nat) : Prop where
  idle : (state.sub i).timer = none
  alone : ∀ p < header.subtaskTot, header.successorIdx p = i → (state.sub p).pc ≠ .wakeSuccessor

instance (header : Header) (state : State) (i : Nat) : Decidable (ReleaseClear header state i) :=
  decidable_of_iff ((state.sub i).timer = none ∧
      ∀ p < header.subtaskTot, header.successorIdx p = i → (state.sub p).pc ≠ .wakeSuccessor)
    ⟨fun both => ⟨both.1, both.2⟩, fun clear => ⟨clear.idle, clear.alone⟩⟩

/-- A statement without its call keeps the release guard. -/
theorem guarded_statement {guard : Guard State Event} (wf : header.WellFormed)
    (reached : header.runMode.Reaches guard state) (before : state.exit = .notStarted)
    (guarded : Guarded header state) {i : Nat} {cur : Sub} {signal : Signal}
    (statement : Statement header state i cur signal)
    (clear : (state.sub i).pc = .lastReleaseTime → ReleaseClear header state i) :
    Guarded header (state.set i cur) := by
  have startup := startup_reached reached before
  have actor := startup.inside statement.started.1
  have late : (state.sub i).pc = .lastReleaseTime → (state.sub i).timer = none ∧ 0 < state.now :=
    fun position => ⟨(clear position).idle, startup.clock_of_late (i := i) (by rw [position]; rfl)⟩
  refine ⟨fun j inside => ?_, fun j position => ?_, fun j position => ?_⟩
  · by_cases own : j = i
    · subst own
      simpa using statement.spaced (guarded.spaced j actor) late
    · simpa [own] using guarded.spaced j inside
  · by_cases own : j = i
    · subst own
      simp only [State.set_sub, Function.update_self, State.set_now] at position ⊢
      exact Nat.le_of_eq (statement.reads position)
    · simp only [State.set_sub, Function.update_of_ne own] at position ⊢
      exact guarded.ts j position
  · by_cases own : j = i
    · subst own
      simp only [State.set_sub, Function.update_self] at position
      obtain ⟨place, due⟩ := statement.tested position
      have pair := wf.consecutive actor (notifying_reached reached (by rw [place]; rfl))
      have later := wf.successorIdx_eq actor
      rw [← later] at pair
      have same : header.periodTime (header.successorIdx j) = header.periodTime j := by
        rw [Header.periodTime, pair.parent_eq, Header.periodTime]
      rw [← same] at due
      simp only [State.set_sub, State.set_now]
      rw [Function.update_of_ne (by omega)]
      exact (guarded.spaced _ pair.after).due_of_guard (guarded.ts j place) due
    · simp only [State.set_sub, Function.update_of_ne own] at position
      have due := guarded.due j position
      by_cases target : header.successorIdx j = i
      · subst target
        have known : j < header.subtaskTot := startup.inside (by simp [position])
        have other : (state.sub (header.successorIdx j)).pc ≠ .lastReleaseTime :=
          fun place => (clear place).alone j known rfl position
        simpa using (statement.due other).mpr due
      · simpa [target] using due

/-- Each call of a thread keeps releases apart. -/
theorem Statement.allowed {guard : Guard State Event} (wf : header.WellFormed)
    (reached : header.runMode.Reaches guard state) (before : state.exit = .notStarted)
    (guarded : Guarded header state) {i : Nat} {cur : Sub} {signal : Signal}
    (statement : Statement header state i cur signal) : signal.Allowed header (state.set i cur) := by
  have actor := (startup_reached reached before).inside statement.started.1
  have later := wf.successorIdx_eq actor
  cases statement
  case rearmFirst => simp [Signal.Allowed]
  case wakeSuccessor position =>
    have due := guarded.due i position
    have other : header.successorIdx i ≠ i := by omega
    simpa [Signal.Allowed, other] using due
  case startSuccessor position =>
    have pair := wf.consecutive actor (notifying_reached reached (by rw [position]; rfl))
    have other : header.successorIdx i ≠ i := by omega
    rw [← later] at pair
    simp [Signal.Allowed, other, Header.periodTime, pair.parent_eq, Nat.add_comm]
  all_goals trivial

/-- The release statement of a successor finds the release clear. -/
def Header.releasesClear (header : Header) (state : State) (event : Event) : Prop :=
  ∀ i < header.subtaskTot, event = .thread i → (header.subtask i).subtaskId ≠ 0 →
    (state.sub i).pc = .lastReleaseTime → ReleaseClear header state i

instance (header : Header) (state : State) (event : Event) : Decidable (header.releasesClear state event) :=
  inferInstanceAs (Decidable (∀ i < header.subtaskTot, _ → _ → _ → _))

/-- A first subtask always finds its release clear. -/
theorem releaseClear_first {guard : Guard State Event} (wf : header.WellFormed)
    (reached : header.runMode.Reaches guard state) (before : state.exit = .notStarted) {i : Nat}
    (inside : i < header.subtaskTot) (first : (header.subtask i).subtaskId = 0)
    (position : (state.sub i).pc = .lastReleaseTime) : ReleaseClear header state i where
  idle := by
    obtain ⟨known, _, place⟩ := wf.position inside
    have token := (single_reached wf known reached before).token
    rw [first, Nat.add_zero, Header.firstIdx, Header.parent] at place
    rw [← place, Sub.supply, position] at token
    cases timer : (state.sub i).timer with
    | none => rfl
    | some expiry =>
        rw [Sub.armed_some _ timer] at token
        contradiction
  alone p known target waking := by
    have pair := wf.consecutive known (notifying_reached reached (by rw [waking]; rfl))
    have next := pair.next
    rw [← wf.successorIdx_eq known, target, first] at next
    omega

/-- The start timer wakes only subtasks that have not been released. -/
theorem guarded_cal {guard : Guard State Event} (wf : header.WellFormed)
    (reached : header.runMode.Reaches guard state) (before : state.exit = .notStarted)
    (guarded : Guarded header state) (taken : header.step state .cal = some next) : Guarded header next := by
  rcases step_cal taken with ⟨_, _, _, rfl⟩ | ⟨m, position, known, rfl⟩ | ⟨_, _, _, rfl⟩
  · exact ⟨guarded.spaced, guarded.ts, guarded.due⟩
  · have same : Guarded header { state with calTimer := .running (m + 1) } :=
      ⟨guarded.spaced, guarded.ts, guarded.due⟩
    have quiet := (single_reached wf known reached before).waits (by simp [position, CalTimer.passed])
    exact guarded_signal same (.inl quiet.releases)
  · exact ⟨guarded.spaced, guarded.ts, guarded.due⟩

/-- A timer releases its subtask a period after the last release. -/
theorem guarded_fire (startup : Startup header state) (ready : TimerReady header state)
    (guarded : Guarded header state) {i : Nat} (taken : header.step state (.fire i) = some next) :
    Guarded header next := by
  obtain ⟨expiry, armed, expired, rfl⟩ := step_fire taken
  have inside : i < header.subtaskTot := by
    apply startup.inside
    intro unborn
    rw [(ready.fresh i (by rw [unborn]; rfl)).2] at armed
    contradiction
  have removed : Guarded header (state.set i (state.sub i).removeHrtimer) := by
    refine ⟨fun j known => ?_, fun j position => ?_, fun j position => ?_⟩
    · by_cases own : j = i
      · subst own
        simpa using (guarded.spaced j inside).remove
      · simpa [own] using guarded.spaced j known
    · by_cases own : j = i
      · subst own
        simpa [(Sub.removeHrtimer_work _).ts] using guarded.ts j (by simpa using position)
      · simpa [own] using guarded.ts j (by simpa [own] using position)
    · have due := guarded.due j (by
        by_cases own : j = i
        · subst own
          simpa using position
        · simpa [own] using position)
      by_cases target : header.successorIdx j = i
      · subst target
        simpa using (Sub.removeHrtimer_work _).due.mpr due
      · simpa [target] using due
  rw [← State.set_wake]
  refine guarded_signal removed (.inr ?_)
  have late := (guarded.spaced i inside).armed expiry armed
  simp only [State.set_sub, Function.update_self, (Sub.removeHrtimer_work _).lastReleaseTime, State.set_now]
  omega

/-- The release guard holds in each run whose releases are clear. -/
theorem guarded_reached (wf : header.WellFormed) (reached : header.runMode.Reaches header.releasesClear state)
    (before : state.exit = .notStarted) : Guarded header state := by
  refine runMode_invariant (Guarded header) (fun now => guarded_of_quiet (loaded_quiet now)) ?_ reached before
  intro current event following visited early guarded admitted running taken
  have startup := startup_reached visited early
  cases event with
  | init => exact guarded_of_quiet (step_init_quiet startup taken).2.2
  | exit => exact absurd rfl running
  | cal => exact guarded_cal wf visited early guarded taken
  | fire i => exact guarded_fire startup (timerReady_reached visited early) guarded taken
  | thread i =>
      obtain ⟨cur, signal, statement, -, rfl⟩ := step_thread taken
      have inside := startup.inside statement.started.1
      have clear (position : (current.sub i).pc = .lastReleaseTime) : ReleaseClear header current i := by
        by_cases first : (header.subtask i).subtaskId = 0
        · exact releaseClear_first wf visited early inside first position
        · exact admitted i inside rfl first position
      exact guarded_signal (guarded_statement wf visited early guarded statement clear)
        (statement.allowed wf visited early guarded)
  | tick duration =>
      rw [step_tick taken]
      exact ⟨fun i inside => (guarded.spaced i inside).later (Nat.le_add_right _ _),
        fun i position => Nat.le_trans (guarded.ts i position) (Nat.le_add_right _ _),
        fun i position => (guarded.due i position).imp id fun due => Nat.le_trans due (Nat.le_add_right _ _)⟩

/-- While no successor is released past an armed timer or a predecessor that is about to wake it, any
two consecutive releases of each subtask are at least one period apart. -/
theorem releases_period_apart (table : Table) {i : Nat} (inside : i < table.subtaskTot) {state : State}
    (reached : table.runMode.Reaches table.releasesClear state) (before : state.exit = .notStarted) :
    (state.sub i).releases.IsChain fun earlier later => earlier + table.periodTime i ≤ later :=
  ((guarded_reached table.wellFormed reached before).spaced i inside).history

/-- Two jobs of the pair, each of which releases the successor at once. -/
def twoJobsEvents : List Event :=
  pairTable.boot ++ List.replicate 13 (.thread 0) ++ List.replicate 10 (.thread 1) ++
    [.tick 2000000, .fire 0] ++ List.replicate 10 (.thread 0) ++ List.replicate 2 (.thread 1)

/-- The two releases of the successor are one period apart. -/
theorem releases_period_apart_pair :
    ∃ state : State, (state.sub 1).releases = [100000000, 102000000] ∧
      (state.sub 1).releases.IsChain fun earlier later => earlier + pairTable.periodTime 1 ≤ later := by
  have initial : pairTable.runMode.start (.loaded 0) := ⟨0, rfl⟩
  have admitted : pairTable.runMode.admits pairTable.releasesClear (.loaded 0) twoJobsEvents = true := by
    decide +kernel
  have executed : ((pairTable.runMode.execute (.loaded 0) twoJobsEvents).map fun state =>
      ((state.sub 1).releases, state.exit)) = some ([100000000, 102000000], .notStarted) := by decide +kernel
  obtain ⟨state, reached, shown⟩ := Machine.admits_shows initial twoJobsEvents admitted _ executed
  simp only [Prod.mk.injEq] at shown
  exact ⟨state, shown.1, releases_period_apart pairTable (by decide) reached shown.2⟩

/-- The third job of the predecessor tests the guard, then the timer of the second job releases the
successor, and then the predecessor wakes it once more. -/
def staleGuardEvents : List Event :=
  pairTable.boot ++ List.replicate 13 (.thread 0) ++ [.tick 1000000] ++ List.replicate 10 (.thread 1) ++
    [.tick 1000000, .fire 0] ++ List.replicate 13 (.thread 0) ++
    [.tick 2000000, .fire 0] ++ List.replicate 9 (.thread 0) ++
    [.fire 1] ++ List.replicate 10 (.thread 1) ++ [.thread 0] ++ List.replicate 2 (.thread 1)

/-- A stale guard releases the successor twice at the same time. -/
theorem releases_too_close :
    ∃ state, pairTable.runMode.Reachable state ∧ state.exit = .notStarted ∧
      ¬ (state.sub 1).releases.IsChain fun earlier later => earlier + pairTable.periodTime 1 ≤ later := by
  have initial : pairTable.runMode.start (.loaded 0) := ⟨0, rfl⟩
  have executed : ((pairTable.runMode.execute (.loaded 0) staleGuardEvents).map fun state =>
      ((state.sub 1).releases, state.exit)) =
      some ([101000000, 104000000, 104000000], .notStarted) := by decide +kernel
  obtain ⟨state, reached, shown⟩ := Machine.execute_shows initial staleGuardEvents _ executed
  simp only [Prod.mk.injEq] at shown
  refine ⟨state, reached, shown.2, ?_⟩
  rw [shown.1]
  decide

end KernelStudio.EndToEnd
