/-
This file proves the order of the load: threads exist before the start timer is armed,
and nothing is released before it expires.
-/

import KernelStudio.Proof.EndToEnd.Step

namespace KernelStudio.EndToEnd

open Transition

/-- These statements come before the first return of `schedule()`. -/
def Pc.early : Pc → Bool
  | .unborn | .created | .kthread | .hrtimerInit | .timerFunction | .kthreadShouldStop
  | .setCurrentState | .schedule .interruptible | .schedule .asleep => true
  | _ => false

/-- A quiet record has no armed timer and no history. -/
structure Sub.Quiet (cur : Sub) : Prop where
  early : cur.pc.early = true
  timer : cur.timer = none
  lastReleaseTime : cur.lastReleaseTime = 0
  releases : cur.releases = []
  completed : cur.completed = 0
  stamps : cur.stamps = []
  reports : cur.reports = []

/-- A statement of a quiet thread keeps the record quiet and calls nobody. -/
theorem Statement.quiet {header : Header} {state : State} {i : Nat} {cur : Sub} {signal : Signal}
    (statement : Statement header state i cur signal) (quiet : (state.sub i).Quiet)
    (stays : (state.sub i).shouldStop = false) : cur.Quiet ∧ signal = .none := by
  have early := quiet.early
  cases statement
  case exit stopped => simp [stays] at stopped
  case hrtimerInit => exact ⟨{ quiet with early := rfl, timer := rfl }, rfl⟩
  case kthread | timerFunction | kthreadShouldStop | setCurrentState | sleep =>
    exact ⟨{ quiet with early := rfl }, rfl⟩
  all_goals rename_i position
  all_goals simp_all [Pc.early]

/-- The positions of the load determine which threads do not exist yet. -/
def InitPc.born (header : Header) : InitPc → Nat
  | .loop i | .create i => i
  | .wake i => i + 1
  | .start | .done => header.subtaskTot

def InitPc.InRange (header : Header) : InitPc → Prop
  | .loop i => i ≤ header.subtaskTot
  | .create i | .wake i => i < header.subtaskTot
  | .start | .done => True

/-- The start timer has not expired yet. -/
def CalTimer.waiting : CalTimer → Bool
  | .off | .armed _ => true
  | .running _ | .done => false

/-- This invariant orders the load, the start timer and the first releases. -/
structure Startup (header : Header) (state : State) : Prop where
  loading : state.init ≠ .done → state.calTimer = .off
  inRange : state.init.InRange header
  unborn : ∀ i, state.init.born header ≤ i → (state.sub i).pc = .unborn
  waking : ∀ i, state.init = .wake i → (state.sub i).pc = .created
  created : ∀ i, (state.sub i).pc = .created → state.init = .wake i
  quiet : state.calTimer.waiting = true → ∀ i, (state.sub i).Quiet
  alive : ∀ i, (state.sub i).shouldStop = false ∧ (state.sub i).pc ≠ .exited
  expiry : ∀ expiry, state.calTimer = .armed expiry → 0 < expiry
  clock : state.calTimer.waiting = false → 0 < state.now

theorem loaded_quiet (now i : Nat) : ((State.loaded now).sub i).Quiet :=
  ⟨rfl, rfl, rfl, rfl, rfl, rfl, rfl⟩

theorem startup_loaded (header : Header) (now : Nat) : Startup header (.loaded now) where
  loading _ := rfl
  inRange := Nat.zero_le _
  unborn _ _ := rfl
  waking _ position := by simp [State.loaded] at position
  created _ position := by simp [State.loaded] at position
  quiet _ := loaded_quiet now
  alive _ := ⟨rfl, by simp [State.loaded]⟩
  expiry _ armed := by simp [State.loaded] at armed
  clock waiting := by simp [State.loaded, CalTimer.waiting] at waiting

variable {header : Header} {state next : State}

/-- A running thread has been created, so its index is in range. -/
theorem Startup.inside (startup : Startup header state) {i : Nat} (alive : (state.sub i).pc ≠ .unborn) :
    i < header.subtaskTot := by
  by_contra outside
  apply alive
  apply startup.unborn
  have range := startup.inRange
  cases position : state.init <;> simp only [position, InitPc.InRange, InitPc.born] at range ⊢ <;> omega

/-- A statement keeps an unstopped thread alive. -/
theorem Statement.alive {i : Nat} {cur : Sub} {signal : Signal}
    (statement : Statement header state i cur signal) (stays : (state.sub i).shouldStop = false) :
    cur.shouldStop = false ∧ cur.pc ≠ .exited ∧ cur.pc ≠ .created := by
  cases statement
  case exit stopped => simp [stays] at stopped
  case rearmFirst | rearmLater =>
    rename_i more
    rcases more with ⟨_, rfl⟩ | ⟨_, rfl⟩ <;> simp [stays]
  all_goals simp [stays]

/-- Only a thread that has been started executes statements. -/
theorem Statement.started {i : Nat} {cur : Sub} {signal : Signal}
    (statement : Statement header state i cur signal) :
    (state.sub i).pc ≠ .unborn ∧ (state.sub i).pc ≠ .created := by
  cases statement
  case exit position _ => rcases position with position | position <;> simp [position]
  all_goals simp_all

theorem Pc.wake_eq_unborn {pc : Pc} : pc.wake = .unborn ↔ pc = .unborn := by cases pc <;> simp [Pc.wake]

theorem Pc.wake_ne_created (pc : Pc) : pc.wake ≠ .created := by cases pc <;> simp [Pc.wake]

theorem Pc.wake_eq_exited {pc : Pc} : pc.wake = .exited ↔ pc = .exited := by cases pc <;> simp [Pc.wake]

/-- A call changes neither the stop flag nor the existence of a thread. -/
theorem Signal.apply_alive (signal : Signal) (i : Nat) (cur : Sub) :
    (signal.apply i cur).shouldStop = cur.shouldStop ∧
      ((signal.apply i cur).pc = .exited ↔ cur.pc = .exited) ∧
      ((signal.apply i cur).pc = .unborn ↔ cur.pc = .unborn) := by
  cases signal with
  | none => simp [Signal.apply]
  | wake target =>
      by_cases aimed : i = target
      · simp [Signal.apply, aimed, Sub.wakeUpProcess, Pc.wake_eq_exited, Pc.wake_eq_unborn]
      · simp [Signal.apply, aimed]
  | start target expiry =>
      by_cases aimed : i = target
      · simp [Signal.apply, aimed, Sub.hrtimerStart]
      · simp [Signal.apply, aimed]

/-- No call creates a thread. -/
theorem Signal.apply_created {signal : Signal} {i : Nat} {cur : Sub}
    (created : (signal.apply i cur).pc = .created) : cur.pc = .created := by
  cases signal <;> simp only [Signal.apply] at created
  · exact created
  · split at created
    · exact absurd created (Pc.wake_ne_created _)
    · exact created
  · split at created <;> exact created

/-- A thread past its first sleep shows that time has passed. -/
theorem Startup.released_of_late (startup : Startup header state) {i : Nat}
    (late : (state.sub i).pc.early = false) : state.calTimer.waiting = false := by
  by_contra waiting
  have quiet := startup.quiet (by simpa using waiting) i
  simp [quiet.early] at late

/-- A thread past its first sleep reads a clock that is not zero. -/
theorem Startup.clock_of_late (startup : Startup header state) {i : Nat}
    (late : (state.sub i).pc.early = false) : 0 < state.now :=
  startup.clock (startup.released_of_late late)

/-- While the module loads, the start timer is off and each record is quiet. -/
theorem Startup.quiet_loading (startup : Startup header state) (loading : state.init ≠ .done) (i : Nat) :
    (state.sub i).Quiet :=
  startup.quiet (by rw [startup.loading loading]; rfl) i

/-- The load clears the record of a subtask before its thread exists. -/
theorem Startup.clear (startup : Startup header state) {i : Nat} (position : state.init = .loop i)
    (inside : i < header.subtaskTot) :
    Startup header ({ state with init := .create i }.set i { state.sub i with lastReleaseTime := 0 }) := by
  have off := startup.loading (by simp [position])
  have quiet := startup.quiet_loading (by simp [position])
  have unborn := startup.unborn
  simp only [position, InitPc.born] at unborn
  refine { startup with
    loading := fun _ => off
    inRange := inside
    unborn := ?_
    waking := fun j waking => by simp at waking
    created := ?_
    quiet := fun _ => ?_
    alive := ?_ }
  all_goals intro j
  all_goals by_cases same : j = i
  all_goals simp only [State.set_sub, same, Function.update_self, ne_eq, not_false_eq_true,
    Function.update_of_ne]
  · exact fun _ => unborn i (Nat.le_refl i)
  · exact unborn j
  · exact fun created => by simp [startup.created i created] at position
  · exact fun created => by simp [startup.created j created] at position
  · exact { quiet i with lastReleaseTime := rfl }
  · exact quiet j
  · exact startup.alive i
  · exact startup.alive j

/-- The load creates the thread that it wakes next. -/
theorem Startup.create (startup : Startup header state) {i : Nat} (position : state.init = .create i) :
    Startup header ({ state with init := .wake i }.set i { state.sub i with pc := .created }) := by
  have off := startup.loading (by simp [position])
  have quiet := startup.quiet_loading (by simp [position])
  have range := startup.inRange
  have unborn := startup.unborn
  simp only [position, InitPc.InRange, InitPc.born] at range unborn
  refine { startup with
    loading := fun _ => off
    inRange := range
    unborn := ?_
    waking := ?_
    created := ?_
    quiet := fun _ => ?_
    alive := ?_ }
  all_goals intro j
  all_goals by_cases same : j = i
  all_goals simp only [State.set_sub, State.set_init, same, Function.update_self, ne_eq,
    not_false_eq_true, Function.update_of_ne, InitPc.born]
  · omega
  · exact fun later => unborn j (by omega)
  · exact fun _ => trivial
  · exact fun other => absurd (InitPc.wake.inj other).symm same
  · exact fun _ => trivial
  · exact fun created => by simp [startup.created j created] at position
  · exact { quiet i with early := rfl }
  · exact quiet j
  · exact ⟨(startup.alive i).1, by simp⟩
  · exact startup.alive j

/-- The load wakes the thread it has created. -/
theorem Startup.wake (startup : Startup header state) {i : Nat} (position : state.init = .wake i) :
    Startup header ({ state with init := .loop (i + 1) }.signal (.wake i)) := by
  have off := startup.loading (by simp [position])
  have quiet := startup.quiet_loading (by simp [position])
  have created := startup.waking i position
  have range := startup.inRange
  have unborn := startup.unborn
  simp only [position, InitPc.InRange, InitPc.born] at range unborn
  refine { startup with
    loading := fun _ => off
    inRange := range
    unborn := ?_
    waking := fun j waking => by simp at waking
    created := ?_
    quiet := fun _ => ?_
    alive := ?_ }
  all_goals intro j
  case refine_2 =>
    -- the wake-up ends the only position in which a thread is merely created
    intro created
    simp only [State.signal_sub] at created
    have same := startup.created j (Signal.apply_created created)
    rw [position, InitPc.wake.injEq] at same
    simp [Signal.apply, same, Pc.wake_ne_created] at created
  · intro later
    simp only [State.signal_sub]
    exact (((Signal.wake i).apply_alive j (state.sub j)).2.2).mpr (unborn j later)
  · by_cases same : j = i
    · simp only [State.signal_sub, Signal.apply, same]
      exact { quiet i with early := by simp [created, Pc.wake, Pc.early] }
    · simpa [Signal.apply, same] using quiet j
  · have kept := (Signal.wake i).apply_alive j (state.sub j)
    simpa [kept.1, kept.2.1] using startup.alive j

/-- The load branch creates and wakes only threads that do not exist yet. -/
theorem startup_init (startup : Startup header state) (taken : header.step state .init = some next) :
    Startup header next := by
  rcases step_init taken with ⟨i, position, inside, rfl⟩ | ⟨i, position, outside, rfl⟩ |
    ⟨i, position, rfl⟩ | ⟨i, position, rfl⟩ | ⟨position, rfl⟩
  · exact startup.clear position inside
  · have range := startup.inRange
    have unborn := startup.unborn
    simp only [position, InitPc.InRange, InitPc.born] at range unborn
    refine { startup with
      loading := fun _ => startup.loading (by simp [position])
      inRange := trivial
      unborn := fun j later => unborn j (Nat.le_trans range later)
      waking := fun j waking => ?_
      created := fun j created => ?_ }
    · simp at waking
    · simp [startup.created j created] at position
  · exact startup.create position
  · exact startup.wake position
  · have unborn := startup.unborn
    simp only [position, InitPc.born] at unborn
    refine { startup with
      loading := fun loading => absurd rfl loading
      inRange := trivial
      unborn := unborn
      waking := fun j waking => ?_
      created := fun j created => ?_
      quiet := fun _ => startup.quiet_loading (by simp [position])
      expiry := ?_
      clock := fun released => ?_ }
    · simp at waking
    · simp [startup.created j created] at position
    · intro expiry armed
      simp only [CalTimer.armed.injEq] at armed
      omega
    · simp [CalTimer.waiting] at released

/-- The start timer releases nobody before it expires. -/
theorem startup_cal (startup : Startup header state) (taken : header.step state .cal = some next) :
    Startup header next := by
  have loaded : state.calTimer ≠ .off → state.init = .done := by
    intro active
    by_contra loading
    exact active (startup.loading loading)
  rcases step_cal taken with ⟨expiry, position, expired, rfl⟩ | ⟨k, position, inside, rfl⟩ |
    ⟨k, position, outside, rfl⟩
  all_goals have done := loaded (by simp [position])
  · exact { startup with
      loading := fun loading => absurd done loading
      quiet := by simp [CalTimer.waiting]
      expiry := by simp
      clock := fun _ => Nat.lt_of_lt_of_le (startup.expiry expiry position) expired }
  · refine { startup with
      loading := fun loading => absurd done loading
      unborn := ?_
      waking := ?_
      created := ?_
      quiet := by simp [CalTimer.waiting]
      alive := ?_
      expiry := by simp
      clock := fun _ => startup.clock (by rw [position]; rfl) }
    · intro i later
      simp only [State.signal_sub]
      exact (((Signal.wake _).apply_alive i (state.sub i)).2.2).mpr (startup.unborn i later)
    · intro i waking
      simp [done] at waking
    · intro i created
      exact startup.created i (Signal.apply_created (by simpa using created))
    · intro i
      have kept := (Signal.wake (header.task k).subtaskStartIdx).apply_alive i (state.sub i)
      simpa [kept.1, kept.2.1] using startup.alive i
  · exact { startup with
      loading := fun loading => absurd done loading
      quiet := by simp [CalTimer.waiting]
      expiry := by simp
      clock := fun _ => startup.clock (by rw [position]; rfl) }

/-- An armed subtask timer means that the start timer has expired. -/
theorem startup_fire (startup : Startup header state) {i : Nat}
    (taken : header.step state (.fire i) = some next) : Startup header next := by
  obtain ⟨expiry, armed, expired, rfl⟩ := step_fire taken
  have released : state.calTimer.waiting = false := by
    by_contra waiting
    have quiet := startup.quiet (by simpa using waiting) i
    simp [quiet.timer] at armed
  have done : state.init = .done := by
    by_contra loading
    rw [startup.loading loading] at released
    contradiction
  refine { startup with unborn := ?_, waking := ?_, created := ?_, quiet := ?_, alive := ?_ }
  · intro j later
    by_cases same : j = i
    · subst same
      simpa [Pc.wake_eq_unborn] using startup.unborn j later
    · simpa [same] using startup.unborn j later
  · intro j waking
    simp [done] at waking
  · intro j created
    by_cases same : j = i
    · subst same
      simp [Pc.wake_ne_created] at created
    · exact startup.created j (by simpa [same] using created)
  · intro waiting
    simp [released] at waiting
  · intro j
    by_cases same : j = i
    · subst same
      simpa [Pc.wake_eq_exited, Sub.wakeUpProcess, Sub.removeHrtimer] using startup.alive j
    · simpa [same] using startup.alive j

/-- A thread acts on another thread only after the start timer has expired. -/
theorem startup_thread (startup : Startup header state) {i : Nat}
    (taken : header.step state (.thread i) = some next) : Startup header next := by
  obtain ⟨cur, signal, statement, -, rfl⟩ := step_thread taken
  have after := statement.alive (startup.alive i).1
  have records := step_thread_sub state i cur signal
  refine
    { loading := by simpa using startup.loading
      inRange := by simpa using startup.inRange
      unborn := ?_
      waking := ?_
      created := ?_
      quiet := ?_
      alive := ?_
      expiry := by simpa using startup.expiry
      clock := by simpa using startup.clock }
  · intro j later
    have other : j ≠ i := by
      intro same
      exact statement.started.1 (startup.unborn i (by simpa [same] using later))
    rw [records, if_neg other]
    exact ((signal.apply_alive j _).2.2).mpr (startup.unborn j (by simpa using later))
  · intro j waking
    simp only [State.signal_init, State.set_init] at waking
    have quiet := startup.quiet_loading (by simp [waking])
    have silent := (statement.quiet (quiet i) (startup.alive i).1).2
    have created := startup.waking j waking
    have other : j ≠ i := by
      intro same
      exact statement.started.2 (same ▸ created)
    rw [records, if_neg other, silent]
    exact created
  · intro j created
    rw [records] at created
    have before := Signal.apply_created created
    split at before
    · exact absurd before after.2.2
    · simpa using startup.created j before
  · intro waiting j
    have quiet := startup.quiet (by simpa using waiting)
    obtain ⟨stays, silent⟩ := statement.quiet (quiet i) (startup.alive i).1
    rw [records, silent]
    by_cases same : j = i
    · simpa [Signal.apply, same] using stays
    · simpa [Signal.apply, same] using quiet j
  · intro j
    rw [records]
    have kept := signal.apply_alive j (if j = i then cur else state.sub j)
    rw [kept.1, ne_eq, kept.2.1]
    split
    · exact ⟨after.1, after.2.1⟩
    · exact startup.alive j

/-- Each step before the unload keeps the order of the load. -/
theorem startup_step (startup : Startup header state) {event : Event} (running : event ≠ .exit)
    (taken : header.step state event = some next) : Startup header next := by
  cases event with
  | init => exact startup_init startup taken
  | exit => exact absurd rfl running
  | cal => exact startup_cal startup taken
  | fire i => exact startup_fire startup taken
  | thread i => exact startup_thread startup taken
  | tick duration =>
      rw [step_tick taken]
      exact { startup with clock := fun released => Nat.lt_of_lt_of_le (startup.clock released) (by simp) }

/-- A step of the load leaves each record quiet. -/
theorem step_init_quiet (startup : Startup header state) (taken : header.step state .init = some next) :
    (∀ i, (state.sub i).Quiet) ∧ next.calTimer.waiting = true ∧ ∀ i, (next.sub i).Quiet := by
  have loading : state.init ≠ .done ∧ next.calTimer.waiting = true := by
    rcases step_init taken with ⟨i, position, _, rfl⟩ | ⟨i, position, _, rfl⟩ |
      ⟨i, position, rfl⟩ | ⟨i, position, rfl⟩ | ⟨position, rfl⟩
    all_goals simp [startup.loading, position, CalTimer.waiting]
  exact ⟨startup.quiet_loading loading.1, loading.2, (startup_init startup taken).quiet loading.2⟩

/-- The order of the load holds in every state before the unload. -/
theorem startup_reached {guard : Guard State Event} (reached : header.runMode.Reaches guard state)
    (before : state.exit = .notStarted) : Startup header state :=
  runMode_invariant (Startup header) (startup_loaded header)
    (fun _ _ _ _ _ startup _ running taken => startup_step startup running taken) reached before

end KernelStudio.EndToEnd
