/-
This file follows `kthread_stop` on a thread that is asleep, whose wake-up comes after the loop test.
The thread releases once more, while the unload of threads that are awake adds no release:
some run without an unload has released the same.
-/

import KernelStudio.Proof.EndToEnd.ReleaseGuard
import KernelStudio.Proof.EndToEnd.Teardown
import Mathlib.Data.List.Pairwise

namespace KernelStudio.EndToEnd

open Transition

/-- The log of a run shows each stop of a sleeping thread, each release and each job. -/
inductive Incident where
  | stopped (i : Nat)
  | release (i : Nat)
  | job (i : Nat)
  deriving DecidableEq

/-- The call of `kthread_stop` for a thread that is asleep, the statement that sets the release time
and the call of `subtask_func` are logged. -/
def Header.incidents (header : Header) (state : State) : Event → List Incident
  | .exit => match state.exit with
      | .loop i => if i < header.subtaskTot ∧ (state.sub i).pc = .schedule .asleep then [.stopped i] else []
      | _ => []
  | .thread i => match (state.sub i).pc with
      | .lastReleaseTime => [.release i]
      | .subtaskFunc => [.job i]
      | _ => []
  | .init | .cal | .fire _ | .tick _ => []

/-- A later incident is no work of the thread that has been stopped. -/
def Incident.Silent : Incident → Incident → Prop
  | .stopped i, .release j | .stopped i, .job j => i ≠ j
  | _, _ => True

/-- The call of `kthread_stop` does not find its thread asleep,
and its wake-up finds the thread neither marked nor asleep. -/
def Header.stopAwake (header : Header) (state : State) : ExitPc → Prop
  | .loop i => i < header.subtaskTot → (state.sub i).pc ≠ .schedule .asleep
  | .wake i => state.absorbs (.wake i) = true
  | _ => True

/-- Each `kthread_stop` of the unload finds its thread awake. -/
def Header.stopsAwake (header : Header) (state : State) : Event → Prop
  | .exit => header.stopAwake state state.exit
  | _ => True

/-- In addition, each release of a successor is clear. -/
def Header.stopsClear (header : Header) (state : State) (event : Event) : Prop :=
  header.stopsAwake state event ∧ header.releasesClear state event

section

variable (header : Header) (state : State)

instance : (earlier later : Incident) → Decidable (earlier.Silent later)
  | .stopped _, .release _ | .stopped _, .job _ => inferInstanceAs (Decidable (_ ≠ _))
  | .stopped _, .stopped _ | .release _, _ | .job _, _ => isTrue trivial

instance : (exit : ExitPc) → Decidable (header.stopAwake state exit)
  | .loop _ => inferInstanceAs (Decidable (_ → _ ≠ _))
  | .wake _ => inferInstanceAs (Decidable (_ = _))
  | .notStarted | .join _ | .cancel _ | .cancelCal | .returned => isTrue trivial

instance : (event : Event) → Decidable (header.stopsAwake state event)
  | .exit => inferInstanceAs (Decidable (header.stopAwake state state.exit))
  | .init | .cal | .fire _ | .thread _ | .tick _ => isTrue trivial

instance (event : Event) : Decidable (header.stopsClear state event) := inferInstanceAs (Decidable (_ ∧ _))

end

variable {header : Header} {state next image : State}

/-- The unload starts after the load has ended. -/
theorem loaded_reached {guard : Guard State Event} (reached : header.runMode.Reaches guard state) :
    state.exit ≠ .notStarted → state.init = .done := by
  refine reached.invariant (fun current => current.exit ≠ .notStarted → current.init = .done) ?_ ?_
  · rintro _ ⟨now, rfl⟩ started
    exact absurd rfl started
  · intro current event following _ loaded _ taken started
    change header.step current event = some following at taken
    by_cases unloading : event = .exit
    · subst unloading
      rw [step_init_same (by simp) taken]
      rcases step_exit taken with ⟨_, ended, _⟩ | ⟨_, position, _⟩ | ⟨_, position, _⟩ | ⟨_, position, _⟩ |
        ⟨_, position, _⟩ | ⟨_, position, _⟩ | ⟨position, _⟩
      · exact ended
      all_goals exact loaded (by simp [position])
    · rw [step_exit_same unloading taken] at started
      have ended := loaded started
      by_cases loading : event = .init
      · subst loading
        exact absurd ended (step_loading taken)
      · rw [step_init_same loading taken]
        exact ended

/-- The load takes no step once the unload has started. -/
theorem step_unloading {guard : Guard State Event} (reached : header.runMode.Reaches guard state)
    (started : state.exit ≠ .notStarted) {event : Event} (taken : header.step state event = some next) :
    event ≠ .init := by
  rintro rfl
  exact step_loading taken (loaded_reached reached started)

/-- An exited thread executes no statement. -/
theorem Statement.unexited {i : Nat} {cur : Sub} {signal : Signal}
    (statement : Statement header state i cur signal) : (state.sub i).pc ≠ .exited := by
  cases statement
  case exit position _ => rcases position with position | position <;> simp [position]
  all_goals simp_all

/-- An exited thread stays exited during the unload. -/
theorem step_exited {event : Event} (loaded : event ≠ .init) (taken : header.step state event = some next)
    {j : Nat} (gone : (state.sub j).pc = .exited) : (next.sub j).pc = .exited := by
  rcases step_sub loaded taken j with ⟨_, same | woken⟩ | ⟨_, _, _, statement, _, _⟩
  · exact same.trans gone
  · rw [woken, gone]
    rfl
  · exact absurd gone statement.unexited

/-- A step of the unload counts one more thread at most, and only when it has seen the thread exited. -/
theorem stopped_step (taken : header.step state .exit = some next) {i : Nat}
    (stopped : i < next.exit.stopped header) : i < state.exit.stopped header ∨ (state.sub i).pc = .exited := by
  rcases step_exit taken with ⟨position, _, rfl⟩ | ⟨j, position, _, rfl⟩ | ⟨j, position, ended, rfl⟩ |
    ⟨j, position, rfl⟩ | ⟨j, position, gone, rfl⟩ | ⟨j, position, rfl⟩ | ⟨position, _, rfl⟩
  all_goals rw [position]
  case inr.inr.inl => exact .inl (Nat.lt_of_lt_of_le stopped ended)
  case inr.inr.inr.inr.inl =>
    rcases Nat.lt_succ_iff_lt_or_eq.mp stopped with before | rfl
    · exact .inl before
    · exact .inr gone
  all_goals exact .inl stopped

/-- Each thread that `kthread_stop` has joined has exited. -/
theorem joined_reached {guard : Guard State Event} (reached : header.runMode.Reaches guard state) :
    ∀ i < state.exit.stopped header, (state.sub i).pc = .exited := by
  refine reached.invariant (fun current => ∀ i < current.exit.stopped header, (current.sub i).pc = .exited) ?_ ?_
  · rintro _ ⟨now, rfl⟩ i stopped
    exact absurd stopped (Nat.not_lt_zero i)
  · intro current event following visited exited _ taken i stopped
    change header.step current event = some following at taken
    by_cases unloading : event = .exit
    · subst unloading
      refine step_exited (by simp) taken ?_
      rcases stopped_step taken stopped with before | gone
      · exact exited i before
      · exact gone
    · rw [step_exit_same unloading taken] at stopped
      have started : current.exit ≠ .notStarted := fun same => by simp [same, ExitPc.stopped] at stopped
      exact step_exited (step_unloading visited started taken) taken (exited i stopped)

/-- Only the call of `kthread_stop` for a sleeping thread logs a stop. -/
theorem stopped_incident {event : Event} {i : Nat} (logs : .stopped i ∈ header.incidents state event) :
    event = .exit ∧ state.exit = .loop i ∧ i < header.subtaskTot ∧ (state.sub i).pc = .schedule .asleep := by
  cases event with
  | exit =>
      cases position : state.exit with
      | loop j =>
          simp only [Header.incidents, position] at logs
          split at logs
          · rename_i sleeps
            obtain rfl : i = j := Incident.stopped.inj (List.mem_singleton.mp logs)
            exact ⟨rfl, rfl, sleeps⟩
          · contradiction
      | _ => simp [Header.incidents, position] at logs
  | thread j =>
      simp only [Header.incidents] at logs
      split at logs <;> simp at logs
  | _ => simp [Header.incidents] at logs

/-- A log without the stop of a sleeping thread is silent. -/
theorem silent_of_awake {log : List Incident} (awake : ∀ i, .stopped i ∉ log) : log.Pairwise Incident.Silent := by
  refine List.pairwise_of_forall_mem_list fun earlier known later _ => ?_
  cases earlier with
  | stopped i => exact absurd known (awake i)
  | release i => exact trivial
  | job i => exact trivial

/-- While each stop finds its thread awake, no stop of a sleeping thread is logged. -/
theorem awake_reached {guard : Guard State Event}
    (awake : ∀ state event, guard state event → header.stopsAwake state event)
    {pair : State × List Incident}
    (reached : (header.runMode.logged header.incidents).Reaches guard.logged pair) :
    ∀ i, .stopped i ∉ pair.2 := by
  refine reached.invariant (fun current => ∀ i, .stopped i ∉ current.2) ?_ ?_
  · rintro pair ⟨_, empty⟩ i
    rw [empty]
    exact List.not_mem_nil
  · rintro ⟨current, log⟩ event ⟨following, later⟩ _ clear admitted taken i logged
    obtain ⟨_, rfl⟩ := Machine.logged_step taken
    rcases List.mem_append.mp logged with earlier | now
    · exact clear i earlier
    · obtain ⟨rfl, position, inside, sleeps⟩ := stopped_incident now
      have found := awake current .exit admitted
      simp only [Header.stopsAwake, position, Header.stopAwake] at found
      exact found inside sleeps

/-- The thread is inside `schedule()` or about to set its release time. -/
def Pc.returning : Pc → Bool
  | .schedule _ | .lastReleaseTime => true
  | _ => false

@[simp] theorem Pc.returning_wake (pc : Pc) : pc.wake.returning = pc.returning := by cases pc <;> rfl

/-- A thread leaves `schedule()` by its release only. -/
theorem Statement.returning {i : Nat} {cur : Sub} {signal : Signal}
    (statement : Statement header state i cur signal) (sleeps : (state.sub i).pc.returning = true) :
    cur.pc.returning = true ∨ (state.sub i).pc = .lastReleaseTime := by
  cases statement
  case sleep | schedule => exact .inl rfl
  case lastReleaseTime position => exact .inr position
  case exit position _ => rcases position with position | position <;> simp [position, Pc.returning] at sleeps
  all_goals simp_all [Pc.returning]

/-- Each thread that was asleep when it was stopped has released since or will release. -/
structure Woken (header : Header) (state : State) (log : List Incident) : Prop where
  inside : ∀ i, .stopped i ∈ log → i < header.subtaskTot
  started : ∀ i, .stopped i ∈ log → state.exit ≠ .notStarted
  released : ∀ i, .stopped i ∈ log → List.Sublist [.stopped i, .release i] log ∨ (state.sub i).pc.returning = true

theorem woken_step {guard : Guard State Event} (reached : header.runMode.Reaches guard state)
    {log : List Incident} (woken : Woken header state log) {event : Event}
    (taken : header.step state event = some next) : Woken header next (log ++ header.incidents state event) := by
  refine ⟨fun i logged => ?_, fun i logged => ?_, fun i logged => ?_⟩
  · rcases List.mem_append.mp logged with earlier | now
    · exact woken.inside i earlier
    · exact (stopped_incident now).2.2.1
  · intro before
    obtain ⟨position, running⟩ := step_exit_backward taken before
    rcases List.mem_append.mp logged with earlier | now
    · exact woken.started i earlier position
    · exact running (stopped_incident now).1
  · rcases List.mem_append.mp logged with earlier | now
    · rcases woken.released i earlier with released | sleeps
      · exact .inl (released.trans (List.sublist_append_left _ _))
      · have loaded := step_unloading reached (woken.started i earlier) taken
        rcases step_sub loaded taken i with ⟨_, same | moved⟩ | ⟨cur, signal, own, statement, _, same⟩
        · exact .inr (same ▸ sleeps)
        · exact .inr (by simpa [moved] using sleeps)
        · rcases statement.returning sleeps with still | position
          · exact .inr (same ▸ still)
          · left
            have released : header.incidents state event = [.release i] := by
              rw [own, Header.incidents, position]
            rw [released]
            exact (List.singleton_sublist.mpr earlier).append (List.Sublist.refl [Incident.release i])
    · obtain ⟨rfl, _, _, sleeps⟩ := stopped_incident now
      right
      rcases step_sub (by simp) taken i with ⟨_, same | moved⟩ | ⟨_, _, own, _⟩
      · rw [same, sleeps]
        rfl
      · rw [moved, sleeps]
        rfl
      · contradiction

/-- When the unload has returned, each thread that was asleep when it was stopped has released since. -/
theorem released_of_returned {guard : Guard State Event} {state : State} {log : List Incident}
    (reached : (header.runMode.logged header.incidents).Reaches guard.logged (state, log))
    (done : state.exit = .returned) {i : Nat} (logged : .stopped i ∈ log) :
    List.Sublist [.stopped i, .release i] log := by
  have woken : Woken header state log := by
    refine reached.invariant (fun current => Woken header current.1 current.2) ?_ ?_
    · rintro pair ⟨_, empty⟩
      constructor <;> simp [empty]
    · rintro ⟨current, earlier⟩ event ⟨following, later⟩ visited woken _ taken
      obtain ⟨moved, rfl⟩ := Machine.logged_step taken
      exact woken_step visited.forget woken moved
  rcases woken.released i logged with released | sleeps
  · exact released
  · have stopped : i < state.exit.stopped header := by
      rw [done]
      exact woken.inside i logged
    have gone := joined_reached reached.forget i stopped
    rw [gone] at sleeps
    contradiction

/-- At these positions the thread tests whether it has been stopped. -/
def Pc.testing : Pc → Bool
  | .kthread | .kthreadShouldStop => true
  | _ => false

theorem Pc.testing_wake {pc : Pc} (tests : pc.testing = true) : pc.wake.testing = true := by
  cases pc <;> first | rfl | contradiction

/-- The image of a record in a run without an unload. A thread that has exited still stands at its test. -/
structure Sub.Mirrors (cur image : Sub) : Prop where
  work : cur.SameWork image
  place : cur.pc = image.pc ∧ cur.timer = image.timer ∨ cur.pc = .exited ∧ image.pc.testing = true

namespace Sub.Mirrors

variable {cur image : Sub}

theorem wake (mirrors : cur.Mirrors image) : cur.wakeUpProcess.Mirrors image.wakeUpProcess where
  work := (wakeUpProcess_work cur).trans (mirrors.work.trans (wakeUpProcess_work image).symm)
  place := by
    rcases mirrors.place with ⟨position, timer⟩ | ⟨gone, tests⟩
    · exact .inl ⟨congrArg Pc.wake position, timer⟩
    · exact .inr ⟨congrArg Pc.wake gone, Pc.testing_wake tests⟩

theorem start (mirrors : cur.Mirrors image) (expiry : Nat) :
    (cur.hrtimerStart expiry).Mirrors (image.hrtimerStart expiry) where
  work := (hrtimerStart_work cur expiry).trans (mirrors.work.trans (hrtimerStart_work image expiry).symm)
  place := by
    rcases mirrors.place with ⟨position, _⟩ | exited
    · exact .inl ⟨position, rfl⟩
    · exact .inr exited

theorem remove (mirrors : cur.Mirrors image) : cur.removeHrtimer.Mirrors image.removeHrtimer where
  work := (removeHrtimer_work cur).trans (mirrors.work.trans (removeHrtimer_work image).symm)
  place := by
    rcases mirrors.place with ⟨position, _⟩ | exited
    · exact .inl ⟨position, rfl⟩
    · exact .inr exited

theorem call (mirrors : cur.Mirrors image) (signal : Signal) (i : Nat) :
    (signal.apply i cur).Mirrors (signal.apply i image) := by
  cases signal with
  | none => exact mirrors
  | wake target =>
      by_cases aimed : i = target
      · simpa [Signal.apply, aimed] using mirrors.wake
      · simpa [Signal.apply, aimed] using mirrors
  | start target expiry =>
      by_cases aimed : i = target
      · simpa [Signal.apply, aimed] using mirrors.start expiry
      · simpa [Signal.apply, aimed] using mirrors

/-- A thread that has not exited stands where its image stands. -/
theorem running (mirrors : cur.Mirrors image) (alive : cur.pc ≠ .exited) :
    image.pc = cur.pc ∧ image.timer = cur.timer := by
  rcases mirrors.place with ⟨position, timer⟩ | ⟨gone, _⟩
  · exact ⟨position.symm, timer.symm⟩
  · exact absurd gone alive

end Sub.Mirrors

/-- The image of a state in a run without an unload. -/
structure Mirrors (state image : State) : Prop where
  before : state.exit = .notStarted → image = state
  running : image.exit = .notStarted
  now : image.now = state.now
  calTimer : image.calTimer = state.calTimer ∨ state.exit = .returned ∧ state.calTimer = .off
  sub : ∀ i, (state.sub i).Mirrors (image.sub i)

/-- A state before the unload is its own image. -/
theorem mirrors_before (before : state.exit = .notStarted) : Mirrors state state where
  before _ := rfl
  running := before
  now := rfl
  calTimer := .inl rfl
  sub _ := ⟨.rfl _, .inl ⟨rfl, rfl⟩⟩

/-- A clear release is clear in the image as well. -/
theorem Mirrors.releasesClear (mirrors : Mirrors state image) {event : Event}
    (clear : header.releasesClear state event) : header.releasesClear image event := by
  intro i inside acts later position
  have place : (state.sub i).pc = .lastReleaseTime ∧ (state.sub i).timer = (image.sub i).timer := by
    rcases (mirrors.sub i).place with ⟨same, timer⟩ | ⟨_, tests⟩
    · exact ⟨same.trans position, timer⟩
    · rw [position] at tests
      contradiction
  have found := clear i inside acts later place.1
  refine ⟨place.2 ▸ found.idle, fun p known target waking => ?_⟩
  rcases (mirrors.sub p).place with ⟨same, _⟩ | ⟨_, tests⟩
  · exact found.alone p known target (same.trans waking)
  · rw [waking] at tests
    contradiction

/-- The image executes the same statement, or waits at the test where the thread exits. -/
theorem Statement.mirrors {i : Nat} {cur : Sub} {signal : Signal}
    (statement : Statement header state i cur signal) (startup : Startup header image)
    (mirrors : Mirrors state image) :
    (cur.Mirrors (image.sub i) ∧ signal = .none) ∨
      ∃ after, Statement header image i after signal ∧ cur.Mirrors after := by
  have own := mirrors.sub i
  obtain ⟨place, timer⟩ := own.running statement.unexited
  have now : state.now = image.now := mirrors.now.symm
  have last (j : Nat) := (mirrors.sub j).work.lastReleaseTime
  -- a statement that writes the position only has the same effect on the image
  have moved (pc : Pc) : ({ state.sub i with pc } : Sub).Mirrors { image.sub i with pc } :=
    ⟨{ own.work with }, .inl ⟨rfl, timer.symm⟩⟩
  cases statement
  case exit position _ =>
    refine .inl ⟨⟨{ own.work with }, .inr ⟨rfl, ?_⟩⟩, rfl⟩
    rw [place]
    rcases position with position | position <;> rw [position] <;> rfl
  all_goals right
  case kthread position _ => exact ⟨_, .kthread (place.trans position) (startup.alive i).1, moved _⟩
  case hrtimerInit position =>
    exact ⟨_, .hrtimerInit (place.trans position), { own.work with }, .inl ⟨rfl, rfl⟩⟩
  case timerFunction position =>
    exact ⟨_, .timerFunction (place.trans position), { own.work with }, .inl ⟨rfl, timer.symm⟩⟩
  case kthreadShouldStop position _ =>
    exact ⟨_, .kthreadShouldStop (place.trans position) (startup.alive i).1, moved _⟩
  case setCurrentState position => exact ⟨_, .setCurrentState (place.trans position), moved _⟩
  case sleep position => exact ⟨_, .sleep (place.trans position), moved _⟩
  case schedule position => exact ⟨_, .schedule (place.trans position), moved _⟩
  case lastReleaseTime position =>
    have released : (state.sub i).releases ++ [state.now] = (image.sub i).releases ++ [image.now] := by
      rw [own.work.releases, now]
    exact ⟨_, .lastReleaseTime (place.trans position),
      { own.work with lastReleaseTime := now, releases := released }, .inl ⟨rfl, timer.symm⟩⟩
  case subtaskFunc position =>
    exact ⟨_, .subtaskFunc (place.trans position),
      { own.work with completed := congrArg Nat.succ own.work.completed }, .inl ⟨rfl, timer.symm⟩⟩
  case ts position =>
    have stamped : (state.sub i).stamps ++ [state.now] = (image.sub i).stamps ++ [image.now] := by
      rw [own.work.stamps, now]
    exact ⟨_, .ts (place.trans position),
      { own.work with ts := now, stamps := stamped }, .inl ⟨rfl, timer.symm⟩⟩
  case ddl position =>
    have computed := congrArg (header.relativeDdl i + ·) (last (header.firstIdx i))
    exact ⟨_, .ddl (place.trans position),
      { own.work with ddl := computed }, .inl ⟨rfl, timer.symm⟩⟩
  case missedDdl position =>
    have tested : (state.sub i).reports ++ [decide ((state.sub i).ddl < (state.sub i).ts)] =
        (image.sub i).reports ++ [decide ((image.sub i).ddl < (image.sub i).ts)] := by
      rw [own.work.reports, own.work.ddl, own.work.ts]
    exact ⟨_, .missedDdl (place.trans position),
      { own.work with reports := tested }, .inl ⟨rfl, timer.symm⟩⟩
  case rearmFirst position first _ more =>
    rw [last i]
    exact ⟨_, .rearmFirst (place.trans position) first more, moved _⟩
  case rearmLater position later _ more => exact ⟨_, .rearmLater (place.trans position) later more, moved _⟩
  case successorTs position =>
    exact ⟨_, .successorTs (place.trans position), { own.work with ts := now }, .inl ⟨rfl, timer.symm⟩⟩
  case guardDue position due =>
    rw [own.work.ts, last] at due
    exact ⟨_, .guardDue (place.trans position) due, moved _⟩
  case guardEarly position early =>
    rw [own.work.ts, last] at early
    exact ⟨_, .guardEarly (place.trans position) early, moved _⟩
  case wakeSuccessor position => exact ⟨_, .wakeSuccessor (place.trans position), moved _⟩
  case startSuccessor position =>
    rw [last (header.successorIdx i)]
    exact ⟨_, .startSuccessor (place.trans position), moved _⟩

/-- A call that both runs make keeps the image. -/
theorem Mirrors.signal (mirrors : Mirrors state image) (signal : Signal) :
    Mirrors (state.signal signal) (image.signal signal) where
  before position := by rw [mirrors.before (by simpa using position)]
  running := by simpa using mirrors.running
  now := by simpa using mirrors.now
  calTimer := by simpa using mirrors.calTimer
  sub i := by
    rw [State.signal_sub, State.signal_sub]
    exact (mirrors.sub i).call signal i

/-- A record that changes together with its image keeps the image of the state. -/
theorem Mirrors.set (mirrors : Mirrors state image) (started : state.exit ≠ .notStarted) (i : Nat)
    {cur after : Sub} (kept : cur.Mirrors after) : Mirrors (state.set i cur) (image.set i after) where
  before position := absurd position started
  running := mirrors.running
  now := mirrors.now
  calTimer := mirrors.calTimer
  sub j := by
    by_cases same : j = i
    · subst same
      simpa using kept
    · simpa [same] using mirrors.sub j

/-- A record that changes alone keeps the image of the state. -/
theorem Mirrors.stutter (mirrors : Mirrors state image) (started : state.exit ≠ .notStarted) (i : Nat)
    {cur : Sub} (kept : cur.Mirrors (image.sub i)) : Mirrors (state.set i cur) image where
  before position := absurd position started
  running := mirrors.running
  now := mirrors.now
  calTimer := mirrors.calTimer
  sub j := by
    by_cases same : j = i
    · subst same
      simpa using kept
    · simpa [same] using mirrors.sub j

/-- The unload moves on while the start timer is left alone. -/
theorem Mirrors.advance (mirrors : Mirrors state image) (exit : ExitPc) (started : exit ≠ .notStarted)
    (more : state.exit ≠ .returned) : Mirrors { state with exit } image where
  before position := absurd position started
  running := mirrors.running
  now := mirrors.now
  calTimer := mirrors.calTimer.imp id fun done => absurd done.1 more
  sub := mirrors.sub

/-- A start timer that moves on together with its image keeps the image of the state. -/
theorem Mirrors.timer (mirrors : Mirrors state image) (started : state.exit ≠ .notStarted) (calTimer : CalTimer) :
    Mirrors { state with calTimer } { image with calTimer } where
  before position := absurd position started
  running := mirrors.running
  now := mirrors.now
  calTimer := .inl rfl
  sub := mirrors.sub

/-- The unload of threads that are awake is no step of the image. -/
theorem mirrors_exit {guard : Guard State Event} (reached : header.runMode.Reaches guard state)
    (startup : Startup header image) (mirrors : Mirrors state image) (awake : header.stopsAwake state .exit)
    (taken : header.step state .exit = some next) : Mirrors next image := by
  change header.stopAwake state state.exit at awake
  have joined := joined_reached reached
  rcases step_exit taken with ⟨position, _, rfl⟩ | ⟨i, position, _, rfl⟩ | ⟨i, position, _, rfl⟩ |
    ⟨i, position, rfl⟩ | ⟨i, position, _, rfl⟩ | ⟨i, position, rfl⟩ | ⟨position, _, rfl⟩
  all_goals rw [position] at awake joined
  · exact mirrors.advance _ (by simp) (by simp [position])
  · have moved := mirrors.advance (.wake i) (by simp) (by simp [position])
    exact moved.stutter (by simp) i { mirrors.sub i with work := { (mirrors.sub i).work with } }
  · exact mirrors.advance _ (by simp) (by simp [position])
  · have moved := mirrors.advance (.join i) (by simp) (by simp [position])
    have absorbed : (state.sub i).pc.wake = (state.sub i).pc := of_decide_eq_true awake
    refine moved.stutter (by simp) i { mirrors.sub i with work := { (mirrors.sub i).work with }, place := ?_ }
    rw [Sub.wakeUpProcess_pc, absorbed]
    exact (mirrors.sub i).place
  · exact mirrors.advance _ (by simp) (by simp [position])
  · have moved := mirrors.advance (.loop (i + 1)) (by simp) (by simp [position])
    have gone := joined i (Nat.lt_succ_self i)
    refine moved.stutter (by simp) i { mirrors.sub i with work := { (mirrors.sub i).work with }, place := ?_ }
    rcases (mirrors.sub i).place with ⟨same, _⟩ | exited
    · exact absurd (same ▸ gone) (startup.alive i).2
    · exact .inr exited
  · exact ⟨fun before => by simp at before, mirrors.running, mirrors.now, .inr ⟨rfl, rfl⟩, mirrors.sub⟩

/-- The start timer does during the unload what it does in the image. -/
theorem mirrors_cal (mirrors : Mirrors state image) (started : state.exit ≠ .notStarted)
    (taken : header.step state .cal = some next) :
    ∃ after, header.step image .cal = some after ∧ Mirrors next after := by
  have same : image.calTimer = state.calTimer := by
    rcases mirrors.calTimer with same | ⟨_, off⟩
    · exact same
    · simp [Header.step, Header.calStep, off] at taken
  rcases step_cal taken with ⟨expiry, position, expired, rfl⟩ | ⟨k, position, known, rfl⟩ |
    ⟨k, position, ended, rfl⟩
  · refine ⟨_, ?_, mirrors.timer started (.running 0)⟩
    simp [Header.step, Header.calStep, same, position, mirrors.now, expired]
  · refine ⟨_, ?_, (mirrors.timer started (.running (k + 1))).signal _⟩
    simp [Header.step, Header.calStep, same, position, known]
  · refine ⟨_, ?_, mirrors.timer started .done⟩
    simp [Header.step, Header.calStep, same, position, Nat.not_lt.mpr ended]

/-- A timer of a thread that has not exited fires in the image as well. -/
theorem mirrors_fire (mirrors : Mirrors state image) (started : state.exit ≠ .notStarted) {i : Nat}
    (taken : header.step state (.fire i) = some next) :
    Mirrors next image ∨ ∃ after, header.step image (.fire i) = some after ∧ Mirrors next after := by
  obtain ⟨expiry, armed, expired, rfl⟩ := step_fire taken
  rcases (mirrors.sub i).place with ⟨_, timer⟩ | ⟨gone, tests⟩
  · right
    refine ⟨image.set i (image.sub i).removeHrtimer.wakeUpProcess, ?_,
      mirrors.set started i (mirrors.sub i).remove.wake⟩
    simp [Header.step, State.fire, ← timer, armed, mirrors.now, expired, State.set_wake]
  · -- the timer of an exited thread wakes nobody
    left
    refine mirrors.stutter started i ⟨{ (mirrors.sub i).work with }, .inr ⟨?_, tests⟩⟩
    rw [Sub.wakeUpProcess_pc, Sub.removeHrtimer_pc, gone]
    rfl

/-- While each stop finds its thread awake, a step of the run is the same step of the image or none. -/
theorem mirrors_step {guard : Guard State Event} (reached : header.runMode.Reaches guard state)
    (startup : Startup header image) (mirrors : Mirrors state image) {event : Event}
    (awake : header.stopsAwake state event) (taken : header.step state event = some next) :
    Mirrors next image ∨ ∃ after, header.step image event = some after ∧ Mirrors next after := by
  by_cases unloading : event = .exit
  · subst unloading
    exact .inl (mirrors_exit reached startup mirrors awake taken)
  by_cases before : state.exit = .notStarted
  · rw [mirrors.before before]
    exact .inr ⟨next, taken, mirrors_before ((step_exit_same unloading taken).trans before)⟩
  have loaded := step_unloading reached before taken
  cases event with
  | init => exact absurd rfl loaded
  | exit => exact absurd rfl unloading
  | cal => exact .inr (mirrors_cal mirrors before taken)
  | fire i => exact mirrors_fire mirrors before taken
  | thread i =>
      obtain ⟨cur, signal, statement, -, rfl⟩ := step_thread taken
      rcases statement.mirrors startup mirrors with ⟨kept, rfl⟩ | ⟨after, executed, kept⟩
      · exact .inl (mirrors.stutter before i kept)
      · right
        refine ⟨(image.set i after).signal signal, ?_, (mirrors.set before i kept).signal signal⟩
        rw [Header.step, executed.run]
        rfl
  | tick duration =>
      right
      rw [step_tick taken]
      exact ⟨_, rfl, fun position => absurd position before, mirrors.running,
        congrArg (· + duration) mirrors.now, mirrors.calTimer, mirrors.sub⟩

/-- While each stop finds its thread awake, some run without an unload has the same records, up to the
exits, and keeps each guard that its states share with their images. -/
theorem mirrors_reached {guard allowed : Guard State Event}
    (awake : ∀ state event, guard state event → header.stopsAwake state event)
    (carries : ∀ state image event, Mirrors state image → guard state event → allowed image event)
    (reached : header.runMode.Reaches guard state) :
    ∃ image, header.runMode.Reaches allowed image ∧ Mirrors state image := by
  refine reached.simulates Mirrors ?_ ?_
  · rintro _ ⟨now, rfl⟩
    exact ⟨_, ⟨now, rfl⟩, mirrors_before rfl⟩
  · intro current event following image visited imaged mirrors admitted taken
    have startup := startup_reached imaged mirrors.running
    rcases mirrors_step visited startup mirrors (awake _ _ admitted) taken with still | ⟨after, moved, still⟩
    · exact .inl still
    · exact .inr ⟨event, after, carries _ _ _ mirrors admitted, moved, still⟩

/-- While each `kthread_stop` finds its thread awake, no stopped sleeper works again and the unload adds
neither a release nor a job to those of a run without it. While the releases of successors are clear as
well, consecutive releases are a period apart also during the unload. A run whose unload has returned
keeps its stopped sleepers from their work just when it has stopped none. -/
theorem stops_silent (table : Table) :
    (∀ state log, (table.runMode.logged table.incidents).Reaches (Guard.logged table.stopsAwake) (state, log) →
      log.Pairwise Incident.Silent ∧
        ∃ image, table.runMode.Reachable image ∧ image.exit = .notStarted ∧
          ∀ i, (state.sub i).releases = (image.sub i).releases ∧
            (state.sub i).completed = (image.sub i).completed) ∧
    (∀ state, table.runMode.Reaches table.stopsClear state → ∀ i < table.subtaskTot,
      (state.sub i).releases.IsChain fun earlier later => earlier + table.periodTime i ≤ later) ∧
    (∀ state log, (table.runMode.logged table.incidents).Reaches (Guard.logged free) (state, log) →
      state.exit = .returned → (log.Pairwise Incident.Silent ↔ ∀ i, .stopped i ∉ log)) := by
  refine ⟨fun state log reached => ⟨?_, ?_⟩, fun state reached i inside => ?_, fun state log reached done => ?_⟩
  · exact silent_of_awake (awake_reached (fun _ _ awake => awake) reached)
  · obtain ⟨image, imaged, mirrors⟩ : ∃ image, table.runMode.Reachable image ∧ Mirrors state image :=
      mirrors_reached (fun _ _ awake => awake) (fun _ _ _ _ _ => trivial) reached.forget
    exact ⟨image, imaged, mirrors.running, fun i =>
      ⟨(mirrors.sub i).work.releases, (mirrors.sub i).work.completed⟩⟩
  · obtain ⟨image, imaged, mirrors⟩ := mirrors_reached (fun _ _ both => both.1)
      (fun _ _ _ mirrors both => mirrors.releasesClear both.2) reached
    rw [(mirrors.sub i).work.releases]
    exact ((guarded_reached table.wellFormed imaged mirrors.running).spaced i inside).history
  · refine ⟨fun silent i logged => ?_, silent_of_awake⟩
    have pair := silent.sublist (released_of_returned reached done logged)
    exact List.pairwise_pair.mp pair rfl

/-- The unload meets each thread of the pair when its second wake-up is pending. -/
def awakeUnloadEvents : List Event :=
  pairTable.boot ++ List.replicate 13 (.thread 0) ++ List.replicate 10 (.thread 1) ++
    [.tick 2000000, .fire 0] ++ List.replicate 3 .exit ++ List.replicate 11 (.thread 0) ++
    List.replicate 4 .exit ++ List.replicate 8 (.thread 1) ++ List.replicate 4 .exit

/-- The second jobs are released during the unload, a period after the first ones. -/
theorem stops_silent_pair :
    ∃ (state : State) (log : List Incident), state.exit = .returned ∧ log.length = 8 ∧
      log.Pairwise Incident.Silent ∧ (state.sub 0).releases = [100000000, 102000000] ∧
      (state.sub 0).releases.IsChain fun earlier later => earlier + pairTable.periodTime 0 ≤ later := by
  have initial : (pairTable.runMode.logged pairTable.incidents).start (.loaded 0, []) := ⟨⟨0, rfl⟩, rfl⟩
  have admitted : (pairTable.runMode.logged pairTable.incidents).admits (Guard.logged pairTable.stopsClear)
      (.loaded 0, []) awakeUnloadEvents = true := by decide +kernel
  have executed : (((pairTable.runMode.logged pairTable.incidents).execute (.loaded 0, [])
      awakeUnloadEvents).map fun pair => (pair.1.exit, pair.2.length, (pair.1.sub 0).releases)) =
      some (.returned, 8, [100000000, 102000000]) := by decide +kernel
  obtain ⟨⟨state, log⟩, reached, shown⟩ := Machine.admits_shows initial awakeUnloadEvents admitted _ executed
  simp only [Prod.mk.injEq] at shown
  obtain ⟨silent, spaced, -⟩ := stops_silent pairTable
  refine ⟨state, log, shown.1, shown.2.1, ?_, shown.2.2, spaced state reached.forget 0 (by decide)⟩
  exact (silent state log (reached.mono fun _ _ both => both.1)).1

/-- The unload meets each thread of the pair asleep after its first job. -/
def asleepUnloadEvents : List Event :=
  pairTable.boot ++ List.replicate 13 (.thread 0) ++ List.replicate 10 (.thread 1) ++
    List.replicate 3 .exit ++ .tick 500000 :: List.replicate 11 (.thread 0) ++
    List.replicate 4 .exit ++ List.replicate 8 (.thread 1) ++ List.replicate 4 .exit

/-- The unload releases both subtasks once more, half a millisecond after their first release. -/
theorem stops_release :
    ∃ state log, (pairTable.runMode.logged pairTable.incidents).Reachable (state, log) ∧
      ¬ log.Pairwise Incident.Silent ∧
      ¬ (state.sub 0).releases.IsChain fun earlier later => earlier + pairTable.periodTime 0 ≤ later := by
  have initial : (pairTable.runMode.logged pairTable.incidents).start (.loaded 0, []) := ⟨⟨0, rfl⟩, rfl⟩
  have executed : (((pairTable.runMode.logged pairTable.incidents).execute (.loaded 0, [])
      asleepUnloadEvents).map fun pair => ((pair.1.sub 0).releases, pair.2)) =
      some ([100000000, 100500000], [.release 0, .job 0, .release 1, .job 1, .stopped 0, .release 0, .job 0,
        .stopped 1, .release 1, .job 1]) := by decide +kernel
  obtain ⟨⟨state, log⟩, reached, shown⟩ := Machine.execute_shows initial asleepUnloadEvents _ executed
  simp only [Prod.mk.injEq] at shown
  refine ⟨state, log, reached, ?_, ?_⟩
  · rw [shown.2]
    decide
  · rw [shown.1]
    decide

end KernelStudio.EndToEnd
