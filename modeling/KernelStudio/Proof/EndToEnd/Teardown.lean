/-
This file follows the unload of the run mode in each order of its threads and timers.
A thread that has been joined stays exited, and nothing may be left that could wake it.
-/

import KernelStudio.Proof.EndToEnd.ReleaseChain

namespace KernelStudio.EndToEnd

open Transition

/-- The timer of this record has not expired at the given time. -/
def Sub.unexpired (cur : Sub) (now : Nat) : Bool :=
  match cur.timer with
  | none => true
  | some expiry => now < expiry

/-- The start timer has not expired at the given time. -/
def CalTimer.unexpired (calTimer : CalTimer) (now : Nat) : Bool :=
  match calTimer with
  | .armed expiry => now < expiry
  | _ => true

/-- The call `kthread_stop` has returned for the threads below this index. -/
def ExitPc.stopped (header : Header) : ExitPc → Nat
  | .notStarted => 0
  | .loop i | .wake i | .join i => i
  | .cancel i => i + 1
  | .cancelCal | .returned => header.subtaskTot

def ExitPc.InRange (header : Header) : ExitPc → Prop
  | .loop i => i ≤ header.subtaskTot
  | .wake i | .join i | .cancel i => i < header.subtaskTot
  | .notStarted | .cancelCal | .returned => True

/-- When `kthread_stop` returns, the timer of the joined thread is still waiting, and the start timer
has woken the thread's task or is waiting as well. -/
def Header.joinInTime (header : Header) (state : State) : ExitPc → Prop
  | .join i => (state.sub i).unexpired state.now = true ∧
      ((header.subtask i).subtaskId = 0 → state.calTimer.passed (header.subtask i).taskId = true ∨
        state.calTimer.waiting = true ∧ state.calTimer.unexpired state.now = true)
  | _ => True

/-- The timer of the joined thread does not expire while its cancel is the next call. -/
def State.cancelInTime (state : State) (later : Nat) : ExitPc → Prop
  | .cancel i => (state.sub i).unexpired later = true
  | _ => True

/-- Each cancel of the unload is reached before its timer expires. -/
def Header.unloadInTime (header : Header) (state : State) : Event → Prop
  | .exit => header.joinInTime state state.exit
  | .tick duration => state.cancelInTime (state.now + duration) state.exit ∧
      (0 < state.exit.stopped header → state.calTimer.unexpired (state.now + duration) = true)
  | _ => True

section

variable (header : Header) (state : State)

instance : (exit : ExitPc) → Decidable (header.joinInTime state exit)
  | .join _ => inferInstanceAs (Decidable (_ = _ ∧ (_ = _ → _ = _ ∨ _ = _ ∧ _ = _)))
  | .notStarted | .loop _ | .wake _ | .cancel _ | .cancelCal | .returned => isTrue trivial

instance (later : Nat) : (exit : ExitPc) → Decidable (state.cancelInTime later exit)
  | .cancel _ => inferInstanceAs (Decidable (_ = _))
  | .notStarted | .loop _ | .wake _ | .join _ | .cancelCal | .returned => isTrue trivial

instance : (event : Event) → Decidable (header.unloadInTime state event)
  | .exit => inferInstanceAs (Decidable (header.joinInTime state state.exit))
  | .tick _ => inferInstanceAs (Decidable (_ ∧ (_ → _)))
  | .init | .cal | .fire _ | .thread _ => isTrue trivial

end

/-- This invariant holds along an unload that stays ahead of the timers. -/
structure Unload (header : Header) (state : State) : Prop where
  loaded : state.exit ≠ .notStarted → state.init = .done
  inRange : state.exit.InRange header
  exited : ∀ i < state.exit.stopped header, (state.sub i).pc = .exited
  idle : ∀ i < state.exit.stopped header, state.exit ≠ .cancel i → (state.sub i).timer = none
  pending : ∀ i, state.exit = .cancel i → (state.sub i).unexpired state.now = true
  first : ∀ k < header.taskTot, (header.task k).subtaskStartIdx < state.exit.stopped header →
    state.calTimer.passed k = true ∨ state.calTimer.waiting = true ∧ state.calTimer.unexpired state.now = true
  off : state.exit = .returned → state.calTimer = .off

variable {header : Header} {state next : State}

/-- Only subtasks of the table have threads, also during the unload. -/
theorem inside_reached {guard : Guard State Event} (reached : header.runMode.Reaches guard state) {i : Nat}
    (born : (state.sub i).pc ≠ .unborn) : i < header.subtaskTot := by
  refine (reached.invariant (fun current => current.init.InRange header ∧
    ((current.sub i).pc ≠ .unborn → i < header.subtaskTot)) ?_ ?_).2 born
  · rintro _ ⟨now, rfl⟩
    exact ⟨Nat.zero_le _, fun born => absurd rfl born⟩
  · rintro current event following _ ⟨range, inside⟩ _ taken
    by_cases loading : event = .init
    · subst loading
      rcases step_init taken with ⟨j, position, more, rfl⟩ | ⟨j, position, _, rfl⟩ | ⟨j, position, rfl⟩ |
        ⟨j, position, rfl⟩ | ⟨position, rfl⟩
      all_goals rw [position] at range
      · refine ⟨more, fun later => inside ?_⟩
        by_cases same : i = j
        · subst same
          simpa using later
        · simpa [same] using later
      · exact ⟨trivial, inside⟩
      · refine ⟨range, fun later => ?_⟩
        by_cases same : i = j
        · exact same ▸ range
        · exact inside (by simpa [same] using later)
      · refine ⟨range, fun later => inside fun unborn => later ?_⟩
        rw [State.signal_sub]
        exact ((Signal.wake j).apply_alive i (current.sub i)).2.2.mpr unborn
      · exact ⟨trivial, inside⟩
    · refine ⟨?_, fun later => ?_⟩
      · rw [step_init_same loading taken]
        exact range
      · rcases step_sub loading taken i with ⟨_, same | woken⟩ | ⟨cur, signal, _, statement, _, _⟩
        · exact inside (same ▸ later)
        · exact inside fun unborn => later (by rw [woken, unborn]; rfl)
        · exact inside statement.started.1

/-- Nothing has been torn down before the unload. -/
theorem unload_of_notStarted (before : state.exit = .notStarted) : Unload header state where
  loaded other := absurd before other
  inRange := by rw [before]; trivial
  exited i stopped := by simp [before, ExitPc.stopped] at stopped
  idle i stopped := by simp [before, ExitPc.stopped] at stopped
  pending i position := by simp [before] at position
  first k _ stopped := by simp [before, ExitPc.stopped] at stopped
  off position := by simp [before] at position

/-- A step that touches no joined subtask keeps the teardown. -/
theorem Unload.frame (unload : Unload header state) (now : next.now = state.now)
    (init : next.init = state.init) (exit : next.exit = state.exit) (calTimer : next.calTimer = state.calTimer)
    (untouched : ∀ i < state.exit.stopped header, next.sub i = state.sub i) : Unload header next where
  loaded := by rw [exit, init]; exact unload.loaded
  inRange := by rw [exit]; exact unload.inRange
  exited := by
    rw [exit]
    intro i stopped
    rw [untouched i stopped]
    exact unload.exited i stopped
  idle := by
    rw [exit]
    intro i stopped
    rw [untouched i stopped]
    exact unload.idle i stopped
  pending := by
    rw [exit, now]
    intro i position
    rw [untouched i (by rw [position]; exact Nat.lt_succ_self i)]
    exact unload.pending i position
  first := by rw [exit, calTimer, now]; exact unload.first
  off := by rw [exit, calTimer]; exact unload.off

/-- An expired timer is not the timer of a joined thread. -/
theorem Unload.expired_outside (unload : Unload header state) {i expiry : Nat}
    (armed : (state.sub i).timer = some expiry) (expired : expiry ≤ state.now) :
    state.exit.stopped header ≤ i := by
  by_contra stopped
  by_cases cancelling : state.exit = .cancel i
  · have waits := unload.pending i cancelling
    simp only [Sub.unexpired, armed, decide_eq_true_eq] at waits
    omega
  · rw [unload.idle i (by omega) cancelling] at armed
    contradiction

/-- A joined thread executes no statement and no statement calls for it. -/
theorem Unload.silent_thread {guard : Guard State Event} (wf : header.WellFormed) (unload : Unload header state)
    (reached : header.runMode.Reaches guard state) {i : Nat} {cur : Sub} {signal : Signal}
    (statement : Statement header state i cur signal) {j : Nat} (stopped : j < state.exit.stopped header) :
    j ≠ i ∧ signal.aims j = false := by
  have actor := inside_reached reached statement.started.1
  have running : state.exit.stopped header ≤ i := by
    by_contra joined
    have gone := unload.exited i (by omega)
    cases statement
    case exit position _ => rcases position with position | position <;> simp [position] at gone
    all_goals simp_all
  refine ⟨by omega, ?_⟩
  by_contra aimed
  rcases statement.aims (by simpa using aimed) with ⟨self, _⟩ | ⟨direct, _⟩
  · omega
  · rw [wf.successorIdx_eq actor] at direct
    omega

/-- The handler of the start timer wakes only tasks whose first subtask still runs. -/
theorem Unload.handler_outside (unload : Unload header state) {k : Nat} (known : k < header.taskTot)
    (running : state.calTimer = .running k) : state.exit.stopped header ≤ (header.task k).subtaskStartIdx := by
  by_contra stopped
  rcases unload.first k known (by omega) with passed | ⟨waiting, _⟩
  · simp [running, CalTimer.passed] at passed
  · simp [running, CalTimer.waiting] at waiting

theorem unload_cal (unload : Unload header state) (taken : header.step state .cal = some next) :
    Unload header next := by
  rcases step_cal taken with ⟨expiry, position, expired, rfl⟩ | ⟨m, position, known, rfl⟩ |
    ⟨m, position, outside, rfl⟩
  · refine { unload with first := fun k known stopped => ?_, off := fun done => ?_ }
    · rcases unload.first k known stopped with passed | ⟨_, waits⟩
      · simp [position, CalTimer.passed] at passed
      · simp only [position, CalTimer.unexpired, decide_eq_true_eq] at waits
        omega
    · simp [unload.off done] at position
  · have target := unload.handler_outside known position
    have moved : Unload header { state with calTimer := .running (m + 1) } := by
      refine { unload with first := fun k known stopped => ?_, off := fun done => ?_ }
      · rcases unload.first k known stopped with passed | ⟨waiting, _⟩
        · simp only [position, CalTimer.passed, decide_eq_true_eq] at passed
          exact .inl (decide_eq_true (by omega))
        · simp [position, CalTimer.waiting] at waiting
      · simp [unload.off done] at position
    refine moved.frame rfl rfl rfl rfl fun i stopped => ?_
    rw [State.signal_sub]
    have bound : i < state.exit.stopped header := stopped
    exact Signal.apply_of_not_aims (Signal.wake_misses (by omega)) _
  · refine { unload with first := fun k _ _ => .inl rfl, off := fun done => ?_ }
    simp [unload.off done] at position

theorem unload_tick (unload : Unload header state) {duration : Nat}
    (inTime : header.unloadInTime state (.tick duration)) :
    Unload header { state with now := state.now + duration } := by
  obtain ⟨cancelling, waits⟩ := inTime
  refine { unload with pending := fun i position => ?_, first := fun k known stopped => ?_ }
  · change state.exit = .cancel i at position
    rw [position] at cancelling
    exact cancelling
  · have some := Nat.lt_of_le_of_lt (Nat.zero_le _) stopped
    exact (unload.first k known stopped).imp id fun both => ⟨both.1, waits some⟩

/-- A thread is joined after it has exited, and in time. -/
theorem Unload.join (wf : header.WellFormed) (unload : Unload header state) {i : Nat}
    (position : state.exit = .join i) (gone : (state.sub i).pc = .exited)
    (inTime : header.unloadInTime state .exit) : Unload header { state with exit := .cancel i } := by
  have range := unload.inRange
  have exited := unload.exited
  have idle := unload.idle
  have first := unload.first
  simp only [position, ExitPc.stopped, ExitPc.InRange] at range exited idle first
  simp only [Header.unloadInTime, Header.joinInTime, position] at inTime
  exact
    { loaded := fun _ => unload.loaded (by simp [position])
      inRange := range
      exited := fun j stopped => by
        rcases Nat.lt_succ_iff_lt_or_eq.mp stopped with before | rfl
        · exact exited j before
        · exact gone
      idle := fun j stopped other => idle j (by
        have bound : j < i + 1 := stopped
        have apart : j ≠ i := fun same => other (same ▸ rfl)
        omega) (by simp)
      pending := fun j cancelling => by
        obtain rfl : i = j := ExitPc.cancel.inj cancelling
        exact inTime.1
      first := fun k known stopped => by
        rcases Nat.lt_succ_iff_lt_or_eq.mp stopped with before | same
        · exact first k known before
        · have start := (wf.first known).2
          rw [same] at start
          rw [← start.1]
          exact inTime.2 start.2
      off := fun done => by simp at done }

/-- The timer of a joined thread is removed. -/
theorem Unload.cancel (unload : Unload header state) {i : Nat} (position : state.exit = .cancel i) :
    Unload header ({ state with exit := .loop (i + 1) }.set i (state.sub i).removeHrtimer) := by
  have range := unload.inRange
  have exited := unload.exited
  have idle := unload.idle
  have first := unload.first
  simp only [position, ExitPc.stopped, ExitPc.InRange] at range exited idle first
  exact
    { loaded := fun _ => unload.loaded (by simp [position])
      inRange := range
      exited := fun j stopped => by
        by_cases same : j = i
        · subst same
          simpa using exited j (Nat.lt_succ_self j)
        · simpa [same] using exited j stopped
      idle := fun j stopped _ => by
        by_cases same : j = i
        · subst same
          simp
        · simpa [same] using idle j stopped (by simpa using fun equal => same equal.symm)
      pending := fun j cancelling => by simp at cancelling
      first := first
      off := fun done => by simp at done }

theorem unload_exit (wf : header.WellFormed) (unload : Unload header state)
    (inTime : header.unloadInTime state .exit) (taken : header.step state .exit = some next) :
    Unload header next := by
  have range := unload.inRange
  have exited := unload.exited
  have idle := unload.idle
  have first := unload.first
  rcases step_exit taken with ⟨position, loaded, rfl⟩ | ⟨i, position, more, rfl⟩ | ⟨i, position, ended, rfl⟩ |
    ⟨i, position, rfl⟩ | ⟨i, position, gone, rfl⟩ | ⟨i, position, rfl⟩ | ⟨position, quiet, rfl⟩
  all_goals simp only [position, ExitPc.stopped, ExitPc.InRange] at range exited idle first
  · exact
      { loaded := fun _ => loaded
        inRange := Nat.zero_le _
        exited := fun i stopped => absurd stopped (Nat.not_lt_zero i)
        idle := fun i stopped => absurd stopped (Nat.not_lt_zero i)
        pending := fun i cancelling => by simp at cancelling
        first := fun k _ stopped => absurd stopped (Nat.not_lt_zero _)
        off := fun done => by simp at done }
  · have other (j : Nat) (stopped : j < i) : j ≠ i := by omega
    exact
      { loaded := fun _ => unload.loaded (by simp [position])
        inRange := more
        exited := fun j stopped => by simpa [other j stopped] using exited j stopped
        idle := fun j stopped _ => by simpa [other j stopped] using idle j stopped
        pending := fun j cancelling => by simp at cancelling
        first := first
        off := fun done => by simp at done }
  · obtain rfl : i = header.subtaskTot := by omega
    exact
      { loaded := fun _ => unload.loaded (by simp [position])
        inRange := trivial
        exited := exited
        idle := fun j stopped _ => idle j stopped (by simp)
        pending := fun j cancelling => by simp at cancelling
        first := first
        off := fun done => by simp at done }
  · have other (j : Nat) (stopped : j < i) : j ≠ i := by omega
    simp only [State.signal]
    exact
      { loaded := fun _ => unload.loaded (by simp [position])
        inRange := range
        exited := fun j stopped => by simpa [other j stopped] using exited j stopped
        idle := fun j stopped _ => by simpa [other j stopped] using idle j stopped
        pending := fun j cancelling => by simp at cancelling
        first := fun k known stopped => first k known stopped
        off := fun done => by simp at done }
  · exact unload.join wf position gone inTime
  · exact unload.cancel position
  · exact
      { loaded := fun _ => unload.loaded (by simp [position])
        inRange := trivial
        exited := exited
        idle := fun j stopped _ => idle j stopped (by simp)
        pending := fun j cancelling => by simp at cancelling
        first := fun _ _ _ => .inr ⟨rfl, rfl⟩
        off := fun _ => rfl }

/-- Each step of an unload in time keeps the teardown. -/
theorem unload_step {guard : Guard State Event} (wf : header.WellFormed)
    (reached : header.runMode.Reaches guard state) (unload : Unload header state) {event : Event}
    (inTime : header.unloadInTime state event) (taken : header.step state event = some next) :
    Unload header next := by
  cases event with
  | init =>
      by_cases before : state.exit = .notStarted
      · exact unload_of_notStarted ((step_exit_same (by simp) taken).trans before)
      · exact absurd (unload.loaded before) (step_loading taken)
  | exit => exact unload_exit wf unload inTime taken
  | cal => exact unload_cal unload taken
  | fire i =>
      obtain ⟨expiry, armed, expired, rfl⟩ := step_fire taken
      have outside := unload.expired_outside armed expired
      exact unload.frame rfl rfl rfl rfl fun j stopped =>
        Function.update_of_ne (Nat.ne_of_lt (Nat.lt_of_lt_of_le stopped outside)) _ _
  | thread i =>
      obtain ⟨cur, signal, statement, -, rfl⟩ := step_thread taken
      refine unload.frame (by simp) (by simp) (by simp) (by simp) fun j stopped => ?_
      obtain ⟨other, missed⟩ := unload.silent_thread wf reached statement stopped
      rw [step_thread_sub, if_neg other, Signal.apply_of_not_aims missed]
  | tick duration =>
      rw [step_tick taken]
      exact unload_tick unload inTime

/-- The teardown invariant holds along each unload in time. -/
theorem unload_reached (wf : header.WellFormed) (reached : header.runMode.Reaches header.unloadInTime state) :
    Unload header state := by
  refine reached.invariant (Unload header) ?_ ?_
  · rintro _ ⟨now, rfl⟩
    exact unload_of_notStarted rfl
  · exact fun _ _ _ visited unload inTime taken => unload_step wf visited unload inTime taken

/-- No joined thread can be woken, and no timer of the module is armed when the unload returns. -/
structure TornDown (header : Header) (state : State) : Prop where
  silent : ∀ i < state.exit.stopped header, ∀ event, event ≠ .exit →
    (header.step state event).isSome = true → header.call state event ≠ .wake i
  disarmed : state.exit = .returned →
    (∀ i < header.subtaskTot, (state.sub i).timer = none) ∧ state.calTimer = .off

/-- While each cancel of the unload is reached before its timer expires, no handler and no thread
wakes a thread that `kthread_stop` has joined, and no timer is left when the unload returns. -/
theorem teardown_safe (table : Table) {state : State}
    (reached : table.runMode.Reaches table.unloadInTime state) : TornDown table.toHeader state := by
  have unload := unload_reached table.wellFormed reached
  refine ⟨fun i stopped event running enabled call => ?_, fun done => ⟨fun i inside => ?_, unload.off done⟩⟩
  · obtain ⟨next, taken⟩ := Option.isSome_iff_exists.mp enabled
    cases event with
    | init =>
        have loaded := unload.loaded fun before => by simp [before, ExitPc.stopped] at stopped
        simp [Header.call, loaded] at call
    | exit => exact running rfl
    | cal =>
        rcases step_cal taken with ⟨_, position, _, _⟩ | ⟨k, position, known, _⟩ | ⟨k, position, ended, _⟩
        · simp [Header.call, position] at call
        · have outside := unload.handler_outside known position
          simp only [Header.call, position, if_pos known, Signal.wake.injEq] at call
          omega
        · simp [Header.call, position, Nat.not_lt.mpr ended] at call
    | fire j =>
        obtain ⟨expiry, armed, expired, _⟩ := step_fire taken
        have outside := unload.expired_outside armed expired
        have same := Signal.wake.inj call
        omega
    | thread j =>
        obtain ⟨cur, signal, statement, call', _⟩ := step_thread taken
        have missed := (unload.silent_thread table.wellFormed reached statement stopped).2
        rw [← call', call] at missed
        simp [Signal.aims] at missed
    | tick duration => contradiction
  · exact unload.idle i (by rw [done]; exact inside) (by simp [done])

/-- The unload joins the two threads of the pair right after the start timer has woken the task. -/
def unloadEvents : List Event :=
  pairTable.boot ++ List.replicate 3 .exit ++ List.replicate 11 (.thread 0) ++ List.replicate 4 .exit ++
    List.replicate 8 (.thread 1) ++ List.replicate 4 .exit

/-- The unload of the pair returns without an armed timer. -/
theorem teardown_safe_pair :
    ∃ state : State, state.exit = .returned ∧ TornDown pairTable.toHeader state := by
  have initial : pairTable.runMode.start (.loaded 0) := ⟨0, rfl⟩
  have admitted : pairTable.runMode.admits pairTable.unloadInTime (.loaded 0) unloadEvents = true := by
    decide +kernel
  have executed : ((pairTable.runMode.execute (.loaded 0) unloadEvents).map fun state => state.exit) =
      some .returned := by decide +kernel
  obtain ⟨state, reached, shown⟩ := Machine.admits_shows initial unloadEvents admitted _ executed
  exact ⟨state, shown, teardown_safe pairTable reached⟩

/-- The module is unloaded before its start timer expires. -/
def earlyUnloadEvents : List Event :=
  List.replicate 8 .init ++ List.replicate 6 (.thread 0) ++ List.replicate 3 .exit ++
    List.replicate 11 (.thread 0) ++ [.exit, .tick 100000000, .cal]

/-- The handler of the start timer wakes a thread that `kthread_stop` has joined. -/
theorem teardown_unsafe : ∃ state, pairTable.runMode.Reachable state ∧ ¬ TornDown pairTable.toHeader state := by
  have initial : pairTable.runMode.start (.loaded 0) := ⟨0, rfl⟩
  have executed : ((pairTable.runMode.execute (.loaded 0) earlyUnloadEvents).map fun state =>
      (state.exit, (pairTable.step state .cal).isSome, pairTable.call state .cal)) =
      some (.cancel 0, true, .wake 0) := by decide +kernel
  obtain ⟨state, reached, shown⟩ := Machine.execute_shows initial earlyUnloadEvents _ executed
  simp only [Prod.mk.injEq] at shown
  obtain ⟨position, enabled, call⟩ := shown
  refine ⟨state, reached, fun safe => ?_⟩
  exact safe.silent 0 (by rw [position]; decide) .cal (by decide) enabled call

end KernelStudio.EndToEnd
