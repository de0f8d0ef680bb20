/-
This file says once what each step of the run-mode machine can do.
The later invariants use these inversions and never unfold the machine.
-/

import KernelStudio.Construction.EndToEnd.RunMode

namespace KernelStudio.EndToEnd

open Transition

namespace State

variable (state : State) (i : Nat) (cur : Sub)

@[simp] theorem set_sub : (state.set i cur).sub = Function.update state.sub i cur := rfl

@[simp] theorem set_now : (state.set i cur).now = state.now := rfl

@[simp] theorem set_init : (state.set i cur).init = state.init := rfl

@[simp] theorem set_exit : (state.set i cur).exit = state.exit := rfl

@[simp] theorem set_calTimer : (state.set i cur).calTimer = state.calTimer := rfl

end State

namespace Sub

variable (cur : Sub) (expiry : Nat)

@[simp] theorem wakeUpProcess_pc : cur.wakeUpProcess.pc = cur.pc.wake := rfl

@[simp] theorem wakeUpProcess_timer : cur.wakeUpProcess.timer = cur.timer := rfl

@[simp] theorem hrtimerStart_pc : (cur.hrtimerStart expiry).pc = cur.pc := rfl

@[simp] theorem hrtimerStart_timer : (cur.hrtimerStart expiry).timer = some expiry := rfl

@[simp] theorem removeHrtimer_pc : cur.removeHrtimer.pc = cur.pc := rfl

@[simp] theorem removeHrtimer_timer : cur.removeHrtimer.timer = none := rfl

end Sub

/-- The two records agree on the fields that only the load and the subtask's own thread write. -/
structure Sub.SameWork (cur before : Sub) : Prop where
  lastReleaseTime : cur.lastReleaseTime = before.lastReleaseTime
  ts : cur.ts = before.ts
  ddl : cur.ddl = before.ddl
  releases : cur.releases = before.releases
  completed : cur.completed = before.completed
  stamps : cur.stamps = before.stamps
  reports : cur.reports = before.reports

namespace Sub

variable (cur : Sub) (expiry : Nat)

theorem SameWork.rfl : cur.SameWork cur := by constructor <;> exact Eq.refl _

theorem SameWork.trans {last middle first : Sub} (late : last.SameWork middle)
    (early : middle.SameWork first) : last.SameWork first := by
  constructor
  · exact late.lastReleaseTime.trans early.lastReleaseTime
  · exact late.ts.trans early.ts
  · exact late.ddl.trans early.ddl
  · exact late.releases.trans early.releases
  · exact late.completed.trans early.completed
  · exact late.stamps.trans early.stamps
  · exact late.reports.trans early.reports

theorem SameWork.symm {cur before : Sub} (same : cur.SameWork before) : before.SameWork cur := by
  constructor
  · exact same.lastReleaseTime.symm
  · exact same.ts.symm
  · exact same.ddl.symm
  · exact same.releases.symm
  · exact same.completed.symm
  · exact same.stamps.symm
  · exact same.reports.symm

theorem wakeUpProcess_work : cur.wakeUpProcess.SameWork cur := by constructor <;> rfl

theorem hrtimerStart_work : (cur.hrtimerStart expiry).SameWork cur := by constructor <;> rfl

theorem removeHrtimer_work : cur.removeHrtimer.SameWork cur := by constructor <;> rfl

end Sub

/-- A call changes the record of its own target only. -/
def Signal.apply (signal : Signal) (i : Nat) (cur : Sub) : Sub :=
  match signal with
  | .none => cur
  | .wake target => if i = target then cur.wakeUpProcess else cur
  | .start target expiry => if i = target then cur.hrtimerStart expiry else cur

namespace State

variable (state : State) (signal : Signal)

@[simp] theorem signal_sub (i : Nat) : (state.signal signal).sub i = signal.apply i (state.sub i) := by
  cases signal <;> simp only [State.signal, Signal.apply, set_sub, Function.update_apply]
  all_goals split
  all_goals simp_all

@[simp] theorem signal_now : (state.signal signal).now = state.now := by cases signal <;> rfl

@[simp] theorem signal_init : (state.signal signal).init = state.init := by cases signal <;> rfl

@[simp] theorem signal_exit : (state.signal signal).exit = state.exit := by cases signal <;> rfl

@[simp] theorem signal_calTimer : (state.signal signal).calTimer = state.calTimer := by
  cases signal <;> rfl

end State

theorem State.set_wake (state : State) (i : Nat) (cur : Sub) :
    (state.set i cur).signal (.wake i) = state.set i cur.wakeUpProcess := by
  simp [State.signal, State.set]

/-- A call aims at this subtask. -/
def Signal.aims (signal : Signal) (i : Nat) : Bool :=
  match signal with
  | .none => false
  | .wake target => target = i
  | .start target _ => target = i

theorem Signal.wake_misses {target i : Nat} (other : target ≠ i) : (Signal.wake target).aims i = false :=
  decide_eq_false other

theorem Signal.start_misses {target i : Nat} (other : target ≠ i) (expiry : Nat) :
    (Signal.start target expiry).aims i = false := decide_eq_false other

@[simp] theorem Signal.apply_wake_self (i : Nat) (cur : Sub) :
    (Signal.wake i).apply i cur = cur.wakeUpProcess := if_pos rfl

@[simp] theorem Signal.apply_start_self (i expiry : Nat) (cur : Sub) :
    (Signal.start i expiry).apply i cur = cur.hrtimerStart expiry := if_pos rfl

theorem Signal.apply_of_not_aims {signal : Signal} {i : Nat} (other : signal.aims i = false) (cur : Sub) :
    signal.apply i cur = cur := by
  cases signal with
  | none => rfl
  | wake target => exact if_neg fun same => of_decide_eq_false other same.symm
  | start target expiry => exact if_neg fun same => of_decide_eq_false other same.symm

variable {header : Header} {state next : State}

/-- A call writes nothing but a position or an expiry. -/
theorem Signal.apply_work (signal : Signal) (i : Nat) (cur : Sub) : (signal.apply i cur).SameWork cur := by
  cases signal with
  | none => exact .rfl cur
  | wake target =>
      by_cases aimed : i = target
      · simpa [Signal.apply, aimed] using cur.wakeUpProcess_work
      · simpa [Signal.apply, aimed] using Sub.SameWork.rfl cur
  | start target expiry =>
      by_cases aimed : i = target
      · simpa [Signal.apply, aimed] using cur.hrtimerStart_work expiry
      · simpa [Signal.apply, aimed] using Sub.SameWork.rfl cur

/-- A timer fires when it is armed and expired, and its handler wakes its own thread. -/
theorem step_fire {i : Nat} (taken : header.step state (.fire i) = some next) :
    ∃ expiry, (state.sub i).timer = some expiry ∧ expiry ≤ state.now ∧
      next = state.set i (state.sub i).removeHrtimer.wakeUpProcess := by
  simp only [Header.step, State.fire] at taken
  split at taken
  · contradiction
  · rename_i expiry armed
    split at taken
    · rename_i expired
      refine ⟨expiry, armed, expired, ?_⟩
      rw [← Option.some.inj taken, State.set_wake]
    · contradiction

/-- The start timer expires, wakes one first subtask, or ends its handler. -/
theorem step_cal (taken : header.step state .cal = some next) :
    (∃ expiry, state.calTimer = .armed expiry ∧ expiry ≤ state.now ∧
        next = { state with calTimer := .running 0 }) ∨
    (∃ k, state.calTimer = .running k ∧ k < header.taskTot ∧
        next = { state with calTimer := .running (k + 1) }.signal (.wake (header.task k).subtaskStartIdx)) ∨
    (∃ k, state.calTimer = .running k ∧ header.taskTot ≤ k ∧ next = { state with calTimer := .done }) := by
  simp only [Header.step, Header.calStep] at taken
  split at taken
  · contradiction
  · contradiction
  · rename_i expiry armed
    split at taken
    · rename_i expired
      exact .inl ⟨expiry, armed, expired, (Option.some.inj taken).symm⟩
    · contradiction
  · rename_i k running
    by_cases more : k < header.taskTot
    · rw [if_pos more] at taken
      exact .inr (.inl ⟨k, running, more, (Option.some.inj taken).symm⟩)
    · rw [if_neg more] at taken
      exact .inr (.inr ⟨k, running, Nat.le_of_not_lt more, (Option.some.inj taken).symm⟩)

/-- The load branch clears, creates and wakes each thread, and then arms the start timer. -/
theorem step_init (taken : header.step state .init = some next) :
    (∃ i, state.init = .loop i ∧ i < header.subtaskTot ∧
        next = { state with init := .create i }.set i { state.sub i with lastReleaseTime := 0 }) ∨
    (∃ i, state.init = .loop i ∧ header.subtaskTot ≤ i ∧ next = { state with init := .start }) ∨
    (∃ i, state.init = .create i ∧
        next = { state with init := .wake i }.set i { state.sub i with pc := .created }) ∨
    (∃ i, state.init = .wake i ∧ next = { state with init := .loop (i + 1) }.signal (.wake i)) ∨
    (state.init = .start ∧
        next = { state with calTimer := .armed (state.now + 100000000), init := .done }) := by
  simp only [Header.step, Header.initStep] at taken
  split at taken
  · rename_i i position
    by_cases more : i < header.subtaskTot
    · rw [if_pos more] at taken
      exact .inl ⟨i, position, more, (Option.some.inj taken).symm⟩
    · rw [if_neg more] at taken
      exact .inr (.inl ⟨i, position, Nat.le_of_not_lt more, (Option.some.inj taken).symm⟩)
  · rename_i i position
    exact .inr (.inr (.inl ⟨i, position, (Option.some.inj taken).symm⟩))
  · rename_i i position
    exact .inr (.inr (.inr (.inl ⟨i, position, (Option.some.inj taken).symm⟩)))
  · rename_i position
    exact .inr (.inr (.inr (.inr ⟨position, (Option.some.inj taken).symm⟩)))
  · contradiction

/-- The load takes no step after it has ended. -/
theorem step_loading (taken : header.step state .init = some next) : state.init ≠ .done := by
  intro ended
  simp [Header.step, Header.initStep, ended] at taken

/-- The unload branch stops, wakes, joins and cancels each subtask in turn. -/
theorem step_exit (taken : header.step state .exit = some next) :
    (state.exit = .notStarted ∧ state.init = .done ∧ next = { state with exit := .loop 0 }) ∨
    (∃ i, state.exit = .loop i ∧ i < header.subtaskTot ∧
        next = { state with exit := .wake i }.set i { state.sub i with shouldStop := true }) ∨
    (∃ i, state.exit = .loop i ∧ header.subtaskTot ≤ i ∧ next = { state with exit := .cancelCal }) ∨
    (∃ i, state.exit = .wake i ∧ next = { state with exit := .join i }.signal (.wake i)) ∨
    (∃ i, state.exit = .join i ∧ (state.sub i).pc = .exited ∧ next = { state with exit := .cancel i }) ∨
    (∃ i, state.exit = .cancel i ∧
        next = { state with exit := .loop (i + 1) }.set i (state.sub i).removeHrtimer) ∨
    (state.exit = .cancelCal ∧ (∀ k, state.calTimer ≠ .running k) ∧
        next = { state with calTimer := .off, exit := .returned }) := by
  simp only [Header.step, Header.exitStep] at taken
  split at taken
  · rename_i position
    split at taken
    · rename_i loaded
      exact .inl ⟨position, loaded, (Option.some.inj taken).symm⟩
    · contradiction
  · rename_i i position
    by_cases more : i < header.subtaskTot
    · rw [if_pos more] at taken
      exact .inr (.inl ⟨i, position, more, (Option.some.inj taken).symm⟩)
    · rw [if_neg more] at taken
      exact .inr (.inr (.inl ⟨i, position, Nat.le_of_not_lt more, (Option.some.inj taken).symm⟩))
  · rename_i i position
    exact .inr (.inr (.inr (.inl ⟨i, position, (Option.some.inj taken).symm⟩)))
  · rename_i i position
    split at taken
    · rename_i gone
      exact .inr (.inr (.inr (.inr (.inl ⟨i, position, gone, (Option.some.inj taken).symm⟩))))
    · contradiction
  · rename_i i position
    exact .inr (.inr (.inr (.inr (.inr (.inl ⟨i, position, (Option.some.inj taken).symm⟩)))))
  · rename_i position
    split at taken
    · contradiction
    · rename_i idle
      exact .inr (.inr (.inr (.inr (.inr (.inr ⟨position, idle, (Option.some.inj taken).symm⟩)))))
  · contradiction

theorem step_tick {duration : Nat} (taken : header.step state (.tick duration) = some next) :
    next = { state with now := state.now + duration } := (Option.some.inj taken).symm

/-- Each constructor is one statement of `run` with its test decided. -/
inductive Statement (header : Header) (state : State) (i : Nat) : Sub → Signal → Prop where
  | kthread (position : (state.sub i).pc = .kthread) (stays : (state.sub i).shouldStop = false) :
      Statement header state i { state.sub i with pc := .hrtimerInit } .none
  | exit (position : (state.sub i).pc = .kthread ∨ (state.sub i).pc = .kthreadShouldStop)
      (stopped : (state.sub i).shouldStop = true) :
      Statement header state i { state.sub i with pc := .exited } .none
  | hrtimerInit (position : (state.sub i).pc = .hrtimerInit) :
      Statement header state i { state.sub i with timer := none, handler := false, pc := .timerFunction } .none
  | timerFunction (position : (state.sub i).pc = .timerFunction) :
      Statement header state i { state.sub i with handler := true, pc := .kthreadShouldStop } .none
  | kthreadShouldStop (position : (state.sub i).pc = .kthreadShouldStop)
      (stays : (state.sub i).shouldStop = false) :
      Statement header state i { state.sub i with pc := .setCurrentState } .none
  | setCurrentState (position : (state.sub i).pc = .setCurrentState) :
      Statement header state i { state.sub i with pc := .schedule .interruptible } .none
  | sleep (position : (state.sub i).pc = .schedule .interruptible) :
      Statement header state i { state.sub i with pc := .schedule .asleep } .none
  | schedule (position : (state.sub i).pc = .schedule .running) :
      Statement header state i { state.sub i with pc := .lastReleaseTime } .none
  | lastReleaseTime (position : (state.sub i).pc = .lastReleaseTime) :
      Statement header state i { state.sub i with
        lastReleaseTime := state.now, releases := (state.sub i).releases ++ [state.now],
        pc := .subtaskFunc } .none
  | subtaskFunc (position : (state.sub i).pc = .subtaskFunc) :
      Statement header state i { state.sub i with
        completed := (state.sub i).completed + 1, pc := .ts } .none
  | ts (position : (state.sub i).pc = .ts) :
      Statement header state i { state.sub i with
        ts := state.now, stamps := (state.sub i).stamps ++ [state.now], pc := .ddl } .none
  | ddl (position : (state.sub i).pc = .ddl) :
      Statement header state i { state.sub i with
        ddl := header.relativeDdl i + (state.sub (header.firstIdx i)).lastReleaseTime, pc := .missedDdl } .none
  | missedDdl (position : (state.sub i).pc = .missedDdl) :
      Statement header state i { state.sub i with
        reports := (state.sub i).reports ++ [decide ((state.sub i).ddl < (state.sub i).ts)],
        pc := .rearm } .none
  | rearmFirst (position : (state.sub i).pc = .rearm) (first : (header.subtask i).subtaskId = 0)
      {after : Pc} (more : header.hasSuccessor i = true ∧ after = .successorTs ∨
        header.hasSuccessor i = false ∧ after = .kthreadShouldStop) :
      Statement header state i { state.sub i with pc := after }
        (.start i ((state.sub i).lastReleaseTime + header.periodTime i))
  | rearmLater (position : (state.sub i).pc = .rearm) (later : (header.subtask i).subtaskId ≠ 0)
      {after : Pc} (more : header.hasSuccessor i = true ∧ after = .successorTs ∨
        header.hasSuccessor i = false ∧ after = .kthreadShouldStop) :
      Statement header state i { state.sub i with pc := after } .none
  | successorTs (position : (state.sub i).pc = .successorTs) :
      Statement header state i { state.sub i with ts := state.now, pc := .releaseGuard } .none
  | guardDue (position : (state.sub i).pc = .releaseGuard)
      (due : releaseDue (state.sub i).ts (header.periodTime i)
        (state.sub (header.successorIdx i)).lastReleaseTime = true) :
      Statement header state i { state.sub i with pc := .wakeSuccessor } .none
  | guardEarly (position : (state.sub i).pc = .releaseGuard)
      (early : releaseDue (state.sub i).ts (header.periodTime i)
        (state.sub (header.successorIdx i)).lastReleaseTime = false) :
      Statement header state i { state.sub i with pc := .startSuccessor } .none
  | wakeSuccessor (position : (state.sub i).pc = .wakeSuccessor) :
      Statement header state i { state.sub i with pc := .kthreadShouldStop }
        (.wake (header.successorIdx i))
  | startSuccessor (position : (state.sub i).pc = .startSuccessor) :
      Statement header state i { state.sub i with pc := .kthreadShouldStop }
        (.start (header.successorIdx i)
          (header.periodTime i + (state.sub (header.successorIdx i)).lastReleaseTime))

/-- The function `run` executes exactly these statements. -/
theorem run_statement {i : Nat} {cur : Sub} {signal : Signal}
    (executed : header.run state i = some (cur, signal)) : Statement header state i cur signal := by
  cases position : (state.sub i).pc
  case' schedule taskState => cases taskState
  all_goals simp only [Header.run, position] at executed
  all_goals try contradiction
  all_goals simp only [Option.some.injEq, Prod.mk.injEq] at executed
  all_goals obtain ⟨rfl, rfl⟩ := executed
  case kthread =>
    by_cases stop : (state.sub i).shouldStop = true
    · rw [if_pos stop]
      exact .exit (.inl position) stop
    · rw [if_neg stop]
      exact .kthread position (by simpa using stop)
  case hrtimerInit => exact .hrtimerInit position
  case timerFunction => exact .timerFunction position
  case kthreadShouldStop =>
    by_cases stop : (state.sub i).shouldStop = true
    · rw [if_pos stop]
      exact .exit (.inr position) stop
    · rw [if_neg stop]
      exact .kthreadShouldStop position (by simpa using stop)
  case setCurrentState => exact .setCurrentState position
  case schedule.running => exact .schedule position
  case schedule.interruptible => exact .sleep position
  case lastReleaseTime => exact .lastReleaseTime position
  case subtaskFunc => exact .subtaskFunc position
  case ts => exact .ts position
  case ddl => exact .ddl position
  case missedDdl => exact .missedDdl position
  case rearm =>
    have more : header.hasSuccessor i = true ∧
          (if header.hasSuccessor i = true then Pc.successorTs else .kthreadShouldStop) = .successorTs ∨
        header.hasSuccessor i = false ∧
          (if header.hasSuccessor i = true then Pc.successorTs else .kthreadShouldStop) = .kthreadShouldStop := by
      cases header.hasSuccessor i <;> simp
    by_cases first : (header.subtask i).subtaskId = 0
    · rw [if_pos first]
      exact .rearmFirst position first more
    · rw [if_neg first]
      exact .rearmLater position first more
  case successorTs => exact .successorTs position
  case releaseGuard =>
    by_cases due : releaseDue (state.sub i).ts (header.periodTime i)
      (state.sub (header.successorIdx i)).lastReleaseTime = true
    · rw [if_pos due]
      exact .guardDue position due
    · rw [if_neg due]
      exact .guardEarly position (by simpa using due)
  case wakeSuccessor => exact .wakeSuccessor position
  case startSuccessor => exact .startSuccessor position

/-- Each of these statements is executed by `run`. -/
theorem Statement.run {i : Nat} {cur : Sub} {signal : Signal}
    (statement : Statement header state i cur signal) : header.run state i = some (cur, signal) := by
  cases statement
  case exit position stopped => rcases position with position | position <;> simp [Header.run, position, stopped]
  case rearmFirst position first _ more => rcases more with ⟨more, rfl⟩ | ⟨more, rfl⟩ <;>
    simp [Header.run, position, first, more]
  case rearmLater position later _ more => rcases more with ⟨more, rfl⟩ | ⟨more, rfl⟩ <;>
    simp [Header.run, position, later, more]
  all_goals simp_all [Header.run]

/-- A thread step executes one statement and then delivers its call. -/
theorem step_thread {i : Nat} (taken : header.step state (.thread i) = some next) :
    ∃ cur signal, Statement header state i cur signal ∧ header.call state (.thread i) = signal ∧
      next = (state.set i cur).signal signal := by
  obtain ⟨⟨cur, signal⟩, executed, rfl⟩ := Option.map_eq_some_iff.mp taken
  exact ⟨cur, signal, run_statement executed, by rw [Header.call, executed], rfl⟩

/-- After a thread step, a record changes by the actor's statement and by the actor's call. -/
theorem step_thread_sub (state : State) (i : Nat) (cur : Sub) (signal : Signal) (j : Nat) :
    ((state.set i cur).signal signal).sub j = signal.apply j (if j = i then cur else state.sub j) := by
  by_cases same : j = i <;> simp [same]

theorem Signal.apply_pc (signal : Signal) (j : Nat) (cur : Sub) :
    (signal.apply j cur).pc = cur.pc ∨ (signal.apply j cur).pc = cur.pc.wake := by
  cases signal with
  | none => exact .inl rfl
  | wake target =>
      by_cases aimed : j = target
      · simp [Signal.apply, aimed]
      · simp [Signal.apply, aimed]
  | start target expiry =>
      by_cases aimed : j = target
      · simp [Signal.apply, aimed]
      · simp [Signal.apply, aimed]

/-- No thread is moved by its own call. -/
theorem Statement.apply_pc {i : Nat} {cur : Sub} {signal : Signal}
    (statement : Statement header state i cur signal) : (signal.apply i cur).pc = cur.pc := by
  cases statement
  case wakeSuccessor =>
    simp only [Signal.apply]
    split <;> rfl
  case rearmFirst | startSuccessor =>
    simp only [Signal.apply]
    split <;> rfl
  all_goals rfl

/-- After the load, a record is written by its own thread, and others move it by a wake-up at most. -/
theorem step_sub {event : Event} (loaded : event ≠ .init) (taken : header.step state event = some next)
    (j : Nat) :
    ((next.sub j).SameWork (state.sub j) ∧
      ((next.sub j).pc = (state.sub j).pc ∨ (next.sub j).pc = (state.sub j).pc.wake)) ∨
    ∃ cur signal, event = .thread j ∧ Statement header state j cur signal ∧
      (next.sub j).SameWork cur ∧ (next.sub j).pc = cur.pc := by
  cases event with
  | init => exact absurd rfl loaded
  | exit =>
      left
      rcases step_exit taken with ⟨_, _, rfl⟩ | ⟨i, _, _, rfl⟩ | ⟨_, _, _, rfl⟩ | ⟨i, _, rfl⟩ |
        ⟨_, _, _, rfl⟩ | ⟨i, _, rfl⟩ | ⟨_, _, rfl⟩
      case inr.inr.inr.inl => exact ⟨State.signal_sub _ _ _ ▸ Signal.apply_work _ j _,
        State.signal_sub _ _ _ ▸ Signal.apply_pc _ j _⟩
      case inr.inl =>
        by_cases same : j = i
        · subst same
          exact ⟨by constructor <;> simp, by simp⟩
        · simpa [same] using Sub.SameWork.rfl _
      case inr.inr.inr.inr.inr.inl =>
        by_cases same : j = i
        · subst same
          simpa using Sub.removeHrtimer_work _
        · simpa [same] using Sub.SameWork.rfl _
      all_goals exact ⟨.rfl _, .inl rfl⟩
  | cal =>
      left
      rcases step_cal taken with ⟨_, _, _, rfl⟩ | ⟨k, _, _, rfl⟩ | ⟨_, _, _, rfl⟩
      · exact ⟨.rfl _, .inl rfl⟩
      · rw [State.signal_sub]
        exact ⟨Signal.apply_work _ j _, Signal.apply_pc _ j _⟩
      · exact ⟨.rfl _, .inl rfl⟩
  | fire i =>
      left
      obtain ⟨_, _, _, rfl⟩ := step_fire taken
      by_cases same : j = i
      · subst same
        simpa using (Sub.wakeUpProcess_work _).trans (Sub.removeHrtimer_work _)
      · simpa [same] using Sub.SameWork.rfl _
  | thread i =>
      obtain ⟨cur, signal, statement, -, rfl⟩ := step_thread taken
      rw [step_thread_sub]
      by_cases own : j = i
      · subst own
        rw [if_pos rfl]
        exact .inr ⟨cur, signal, rfl, statement, signal.apply_work j cur, statement.apply_pc⟩
      · rw [if_neg own]
        exact .inl ⟨signal.apply_work j _, signal.apply_pc j _⟩
  | tick duration =>
      rw [step_tick taken]
      exact .inl ⟨.rfl _, .inl rfl⟩

/-- Only the load moves the position of the load. -/
theorem step_init_same {event : Event} (loaded : event ≠ .init) (taken : header.step state event = some next) :
    next.init = state.init := by
  cases event with
  | init => exact absurd rfl loaded
  | exit =>
      rcases step_exit taken with ⟨_, _, rfl⟩ | ⟨i, _, _, rfl⟩ | ⟨_, _, _, rfl⟩ | ⟨i, _, rfl⟩ |
        ⟨_, _, _, rfl⟩ | ⟨i, _, rfl⟩ | ⟨_, _, rfl⟩
      all_goals simp
  | cal =>
      rcases step_cal taken with ⟨_, _, _, rfl⟩ | ⟨k, _, _, rfl⟩ | ⟨_, _, _, rfl⟩
      all_goals simp
  | fire i =>
      obtain ⟨_, _, _, rfl⟩ := step_fire taken
      rfl
  | thread i =>
      obtain ⟨_, _, _, _, rfl⟩ := step_thread taken
      simp
  | tick duration =>
      rw [step_tick taken]

/-- Only the unload moves the position of the unload. -/
theorem step_exit_same {event : Event} (running : event ≠ .exit) (taken : header.step state event = some next) :
    next.exit = state.exit := by
  cases event with
  | init =>
      rcases step_init taken with ⟨i, _, _, rfl⟩ | ⟨_, _, _, rfl⟩ | ⟨i, _, rfl⟩ | ⟨i, _, rfl⟩ | ⟨_, rfl⟩
      all_goals simp
  | exit => exact absurd rfl running
  | cal =>
      rcases step_cal taken with ⟨_, _, _, rfl⟩ | ⟨k, _, _, rfl⟩ | ⟨_, _, _, rfl⟩
      all_goals simp
  | fire i =>
      obtain ⟨_, _, _, rfl⟩ := step_fire taken
      rfl
  | thread i =>
      obtain ⟨_, _, _, _, rfl⟩ := step_thread taken
      simp
  | tick duration =>
      rw [step_tick taken]

/-- A thread is moved by its creation, by a wake-up or by its own statement. -/
theorem step_pc {event : Event} (taken : header.step state event = some next) (j : Nat) :
    (next.sub j).pc = (state.sub j).pc ∨ (next.sub j).pc = (state.sub j).pc.wake ∨
      (next.sub j).pc = .created ∨
      ∃ cur signal, Statement header state j cur signal ∧ (next.sub j).pc = cur.pc := by
  by_cases loading : event = .init
  · subst loading
    rcases step_init taken with ⟨i, _, _, rfl⟩ | ⟨_, _, _, rfl⟩ | ⟨i, _, rfl⟩ | ⟨i, _, rfl⟩ | ⟨_, rfl⟩
    case inr.inr.inr.inl =>
      rw [State.signal_sub]
      exact (Signal.apply_pc (.wake i) j (state.sub j)).imp id .inl
    case inl =>
      left
      by_cases same : j = i <;> simp [same]
    case inr.inr.inl =>
      by_cases same : j = i <;> simp [same]
    all_goals exact .inl rfl
  · rcases step_sub loading taken j with ⟨_, moved⟩ | ⟨cur, signal, _, statement, _, moved⟩
    · exact moved.imp id .inl
    · exact .inr (.inr (.inr ⟨cur, signal, statement, moved⟩))

/-- These positions belong to the notification of a successor. -/
def Pc.notifying : Pc → Bool
  | .successorTs | .releaseGuard | .wakeSuccessor | .startSuccessor => true
  | _ => false

@[simp] theorem Pc.notifying_wake (pc : Pc) : pc.wake.notifying = pc.notifying := by cases pc <;> rfl

/-- A thread calls for its successor, and a first subtask re-arms its own timer. -/
theorem Statement.aims {i : Nat} {cur : Sub} {signal : Signal}
    (statement : Statement header state i cur signal) {j : Nat} (aimed : signal.aims j = true) :
    j = i ∧ (header.subtask i).subtaskId = 0 ∨
      j = header.successorIdx i ∧ (state.sub i).pc.notifying = true := by
  cases statement
  case rearmFirst first _ _ => exact .inl ⟨(of_decide_eq_true aimed).symm, first⟩
  case wakeSuccessor position | startSuccessor position =>
    exact .inr ⟨(of_decide_eq_true aimed).symm, by rw [position]; rfl⟩
  all_goals contradiction

/-- Only a subtask with a successor notifies one. -/
theorem notifying_reached {guard : Guard State Event} (reached : header.runMode.Reaches guard state)
    {i : Nat} (position : (state.sub i).pc.notifying = true) : header.hasSuccessor i = true := by
  refine reached.invariant (fun current =>
    (current.sub i).pc.notifying = true → header.hasSuccessor i = true) ?_ ?_ position
  · rintro _ ⟨now, rfl⟩ impossible
    contradiction
  · intro current event following _ holds _ taken later
    rcases step_pc taken i with same | woken | created | ⟨cur, signal, statement, same⟩
    · exact holds (same ▸ later)
    · exact holds (by simpa [woken] using later)
    · rw [created] at later
      contradiction
    · rw [same] at later
      cases statement
      case rearmFirst more | rearmLater more =>
        rcases more with ⟨more, _⟩ | ⟨_, rfl⟩
        · exact more
        · exact absurd later Bool.false_ne_true
      case successorTs position | guardDue position _ | guardEarly position _ =>
        exact holds (by rw [position]; rfl)
      all_goals exact absurd later Bool.false_ne_true

/-- No step undoes the start of the unload. -/
theorem step_exit_backward {event : Event} (taken : header.step state event = some next)
    (before : next.exit = .notStarted) : state.exit = .notStarted ∧ event ≠ .exit := by
  have running : event ≠ .exit := by
    rintro rfl
    rcases step_exit taken with ⟨_, _, rfl⟩ | ⟨i, _, _, rfl⟩ | ⟨i, _, _, rfl⟩ | ⟨i, _, rfl⟩ |
      ⟨i, _, _, rfl⟩ | ⟨i, _, rfl⟩ | ⟨_, _, rfl⟩
    all_goals simp at before
  exact ⟨step_exit_same running taken ▸ before, running⟩

/-- A step lemma over the steps before the unload gives the run lemma. -/
theorem runMode_invariant {guard : Guard State Event} (property : State → Prop)
    (base : ∀ now, property (.loaded now))
    (preserved : ∀ state event next, header.runMode.Reaches guard state → state.exit = .notStarted →
      property state → guard state event → event ≠ .exit →
      header.step state event = some next → property next)
    (reached : header.runMode.Reaches guard state) (before : state.exit = .notStarted) : property state := by
  have early := reached.backward (fun current => current.exit = .notStarted)
    (fun _ _ _ taken later => (step_exit_backward taken later).1) before
  refine early.invariant property ?_ ?_
  · rintro _ ⟨now, rfl⟩
    exact base now
  · intro current event following visited holds admitted taken
    have position := step_exit_backward taken (admitted.2.2 _ taken)
    exact preserved current event following (visited.mono fun _ _ both => both.1) position.1 holds
      admitted.1 position.2 taken

end KernelStudio.EndToEnd
