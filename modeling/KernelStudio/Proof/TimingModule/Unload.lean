/-
This file proves which pointers a run of the timing module can misuse and what an unloading that returns has measured.
-/

import KernelStudio.Proof.TimingModule.Stamps

namespace KernelStudio.TimingModule

open Transition

variable {state next : State} {event : Event} {position : Fin 8} {value : Nat}

/-- The memory of the array is in use from its allocation to the end of `timing_exit`. -/
structure Allocated (state : State) : Prop where
  live : state.init ≠ .kmalloc → state.init ≠ .clear → state.exit ≠ .returned → state.memory = .live
  unset : state.init = .kmalloc → state.memory = .unset
  early : state.init = .clear → state.memory = .live ∨ state.memory = .null
  loaded : state.init ≠ .done → state.exit = .notStarted

theorem allocated_start (now : Nat) : Allocated { now } := by
  constructor <;> simp

/-- A step that leaves the memory and the two functions of the module alone. -/
theorem Allocated.keep (allocated : Allocated state)
    (same : next.init = state.init ∧ next.exit = state.exit ∧ next.memory = state.memory) : Allocated next := by
  obtain ⟨init, exit, memory⟩ := same
  cases allocated
  constructor <;> rw [init] <;> simpa only [exit, memory]

theorem frame_timer (taken : state.timerStep = some next) :
    next.init = state.init ∧ next.exit = state.exit ∧ next.memory = state.memory := by
  unfold State.timerStep State.wakeUpProcess State.record at taken
  grind -ring -linarith

theorem frame_childTimer (taken : state.childTimerStep = some next) :
    next.init = state.init ∧ next.exit = state.exit ∧ next.memory = state.memory := by
  unfold State.childTimerStep State.wakeUpProcess State.record at taken
  grind -ring -linarith

theorem frame_thread (taken : state.threadStep = some next) :
    next.init = state.init ∧ next.exit = state.exit ∧ next.memory = state.memory := by
  unfold State.threadStep State.record at taken
  grind -ring -linarith

theorem Allocated.step (allocated : Allocated state) (taken : state.step event = some next) : Allocated next := by
  unfold State.step at taken
  split at taken
  · exact absurd taken nofun
  · cases event with
    | init =>
        cases allocated
        simp only [State.initStep, State.record] at taken
        constructor <;> grind -ring -linarith
    | initFails =>
        cases allocated
        simp only [State.initFails] at taken
        constructor <;> grind -ring -linarith
    | timer => exact allocated.keep (frame_timer taken)
    | childTimer => exact allocated.keep (frame_childTimer taken)
    | thread => exact allocated.keep (frame_thread taken)
    | threadFails =>
        simp only [State.threadFails] at taken
        exact allocated.keep (by grind -ring -linarith)
    | child =>
        simp only [State.childStep] at taken
        exact allocated.keep (by grind -ring -linarith)
    | exit =>
        cases allocated
        simp only [State.exitStep] at taken
        constructor <;> grind -ring -linarith
    | tick duration =>
        simp only [Option.some.injEq] at taken
        exact allocated.keep (taken ▸ ⟨rfl, rfl, rfl⟩)

/-- Why a run has gone wrong: an allocation or a creation has failed, the unloading has begun before the thread was
started, or the child thread has returned before it was stopped. -/
inductive Blamed (state : State) : Crash → Prop where
  | nullArray : state.memory = .null → Blamed state .nullArray
  | errorThread : state.ahrtimer = .done ∧ state.thread = .absent ∨
      state.thread = .kthreadBind ∧ state.child = .absent → Blamed state .errorThread
  | nullThread : state.exit = .stopChild ∧ state.thread = .exited false → Blamed state .nullThread
  | exitedThread : state.ahrtimer = .done ∧ state.thread = .exited false ∨
      state.exit = .stopChild ∧ state.child = .exited → Blamed state .exitedThread

/-- A time stamp goes wrong only outside the memory in use. -/
theorem not_crash_record {reason : Crash} (wrong : (state.record position value).crash = some reason)
    (live : state.memory = .live) (running : state.crash = none) : False := by
  simp [State.record, live, running] at wrong

/-- The array is in use as long as the thread runs. -/
theorem live_of_rank (control : Control state) (allocated : Allocated state) (late : 2 ≤ state.thread.rank)
    (running : state.thread.rank ≠ 3 ∧ state.thread.rank ≠ 19) : state.memory = .live := by
  have started : state.init.early = false := by
    by_contra early
    have below := (control.unstarted (by simpa using early)).2
    omega
  refine allocated.live ?_ ?_ ?_
  · rintro same
    simp [same, InitPc.early] at started
  · rintro same
    simp [same, InitPc.early] at started
  · intro same
    have joined := control.joined (by simp [same, ExitPc.rank])
    omega

theorem blamed_init (allocated : Allocated state) (taken : state.initStep = some next) (running : state.crash = none)
    {reason : Crash} (wrong : next.crash = some reason) : Blamed next reason := by
  obtain ⟨live, _, early, loaded⟩ := allocated
  unfold State.initStep at taken
  split at taken <;> simp only [Option.some.injEq, reduceCtorEq] at taken
  all_goals subst taken
  · exact absurd (running.symm.trans wrong) nofun
  · rename_i position
    rcases early position with use | null
    · simp [use, running] at wrong
    · simp only [null, Option.some.injEq] at wrong ⊢
      exact wrong ▸ .nullArray rfl
  · rename_i position
    have use : state.memory = .live := live (position ▸ nofun) (position ▸ nofun) (by simp [loaded, position])
    exact (not_crash_record wrong use running).elim
  · exact absurd (running.symm.trans wrong) nofun
  · rename_i position
    have use : state.memory = .live := live (position ▸ nofun) (position ▸ nofun) (by simp [loaded, position])
    exact (not_crash_record wrong use running).elim
  · exact absurd (running.symm.trans wrong) nofun
  · exact absurd (running.symm.trans wrong) nofun
  · rename_i position
    have use : state.memory = .live := live (position ▸ nofun) (position ▸ nofun) (by simp [loaded, position])
    exact (not_crash_record wrong use running).elim

/-- The wake-up of a thread goes wrong when there is no thread or when the thread has returned. -/
theorem blamed_wakeUpProcess {reason : Crash} (wrong : state.wakeUpProcess.crash = some reason)
    (fired : state.ahrtimer = .done) (early : state.thread.rank ≤ 3) (running : state.crash = none) :
    Blamed state.wakeUpProcess reason := by
  rcases ThreadPc.of_rank_le_three early with position | position | position | position
  · simp only [State.wakeUpProcess, position, Option.some.injEq] at wrong ⊢
    exact wrong ▸ .errorThread (.inl ⟨fired, rfl⟩)
  · simp [State.wakeUpProcess, position, running] at wrong
  · simp [State.wakeUpProcess, position, running] at wrong
  · simp only [State.wakeUpProcess, position, Option.some.injEq] at wrong ⊢
    exact wrong ▸ .exitedThread (.inl ⟨fired, rfl⟩)

theorem blamed_timer (control : Control state) (allocated : Allocated state) (taken : state.timerStep = some next)
    (running : state.crash = none) {reason : Crash} (wrong : next.crash = some reason) : Blamed next reason := by
  unfold State.timerStep at taken
  split at taken
  · exact absurd taken nofun
  · exact absurd taken nofun
  · split at taken <;> simp only [Option.some.injEq, reduceCtorEq] at taken
    subst taken
    exact absurd (running.symm.trans wrong) nofun
  · rename_i position
    have late : state.init.early = false := by
      by_contra early
      exact absurd (position.symm.trans (control.unstarted (by simpa using early)).1) nofun
    have unjoined : state.exit ≠ .returned := by
      intro same
      exact absurd (position.symm.trans (control.cancelled (by simp [same, ExitPc.rank]))) nofun
    have live : state.memory = .live := allocated.live (by rintro same; simp [same, InitPc.early] at late)
      (by rintro same; simp [same, InitPc.early] at late) unjoined
    simp only [Option.some.injEq] at taken
    subst taken
    exact (not_crash_record wrong live running).elim
  · rename_i wakes
    simp only [Option.some.injEq] at taken
    subst taken
    exact blamed_wakeUpProcess wrong rfl (control.unbegun wakes) running

theorem blamed_childTimer (control : Control state) (allocated : Allocated state)
    (taken : state.childTimerStep = some next) (running : state.crash = none) {reason : Crash}
    (wrong : next.crash = some reason) : Blamed next reason := by
  unfold State.childTimerStep at taken
  split at taken
  · exact absurd taken nofun
  · exact absurd taken nofun
  · split at taken <;> simp only [Option.some.injEq, reduceCtorEq] at taken
    subst taken
    exact absurd (running.symm.trans wrong) nofun
  · rename_i position
    obtain ⟨late, asleep⟩ := control.runningChild (position ▸ rfl)
    simp only [Option.some.injEq] at taken
    subst taken
    have live : state.memory = .live := live_of_rank control allocated (by omega) ⟨by omega, by omega⟩
    exact (not_crash_record wrong live running).elim
  · rename_i wakes
    obtain ⟨late, asleep⟩ := control.again wakes
    simp only [Option.some.injEq] at taken
    subst taken
    rcases ThreadPc.of_rank_again late asleep with position | position | position
    all_goals simp [State.wakeUpProcess, position, running] at wrong

theorem blamed_thread (control : Control state) (allocated : Allocated state) (taken : state.threadStep = some next)
    (running : state.crash = none) {reason : Crash} (wrong : next.crash = some reason) : Blamed next reason := by
  have live := live_of_rank control allocated
  unfold State.threadStep at taken
  split at taken <;> simp only [Option.some.injEq, reduceCtorEq] at taken
  all_goals rename_i position
  all_goals rw [position] at live
  all_goals subst taken
  · exact absurd (running.symm.trans wrong) nofun
  · have use : state.memory = .live := live (by decide) (by decide)
    exact (not_crash_record wrong use running).elim
  · exact absurd (running.symm.trans wrong) nofun
  · exact absurd (running.symm.trans wrong) nofun
  · exact absurd (running.symm.trans wrong) nofun
  · have use : state.memory = .live := live (by decide) (by decide)
    exact (not_crash_record wrong use running).elim
  · exact absurd (running.symm.trans wrong) nofun
  · split at wrong
    · rename_i absent
      simp only [absent, if_true, Option.some.injEq] at wrong ⊢
      exact wrong ▸ .errorThread (.inr ⟨position, rfl⟩)
    · exact absurd (running.symm.trans wrong) nofun
  · exact absurd (running.symm.trans wrong) nofun
  · exact absurd (running.symm.trans wrong) nofun
  · exact absurd (running.symm.trans wrong) nofun
  · exact absurd (running.symm.trans wrong) nofun
  · exact absurd (running.symm.trans wrong) nofun
  · have use : state.memory = .live := live (by decide) (by decide)
    exact (not_crash_record wrong use running).elim

theorem blamed_exit (control : Control state) (allocated : Allocated state) (taken : state.exitStep = some next)
    (running : state.crash = none) {reason : Crash} (wrong : next.crash = some reason) : Blamed next reason := by
  unfold State.exitStep at taken
  split at taken
  · split at taken <;> simp only [Option.some.injEq, reduceCtorEq] at taken
    subst taken
    cases running.symm.trans wrong
  · rename_i position
    simp only [Option.some.injEq] at taken
    subst taken
    split at wrong
    · rename_i called left
      have refused := control.refused
      have flag := control.flag
      have returned := control.returned
      cases called <;> simp [left, position, ThreadPc.rank, ExitPc.rank] at refused returned flag
      exact absurd refused (by simp [flag])
    · cases running.symm.trans wrong
  · simp only [Option.some.injEq] at taken
    subst taken
    cases running.symm.trans wrong
  · split at taken <;> simp only [Option.some.injEq, reduceCtorEq] at taken
    subst taken
    cases running.symm.trans wrong
  · rename_i position
    simp only [Option.some.injEq] at taken
    subst taken
    split at wrong
    · rename_i known
      rw [if_pos known]
      split at wrong
      · rename_i left
        simp only [left, if_true, Option.some.injEq] at wrong ⊢
        exact wrong ▸ .exitedThread (.inr ⟨position, rfl⟩)
      · cases running.symm.trans wrong
    · rename_i unknown
      rw [if_neg unknown]
      simp only [Option.some.injEq] at wrong
      have early : ¬ 11 ≤ state.thread.rank := fun late => unknown (control.parent late)
      have joined : state.thread.rank = 3 ∨ state.thread.rank = 19 := control.joined (by simp [position, ExitPc.rank])
      have third : state.thread.rank = 3 := by omega
      have refused : state.thread = .exited false := by
        rcases ThreadPc.of_rank_le_three (le_of_eq third) with same | same | same | same
        · exact absurd (same ▸ third) (by decide)
        · exact absurd (same ▸ third) (by decide)
        · exact absurd (same ▸ third) (by decide)
        · exact same
      exact wrong ▸ .nullThread ⟨position, refused⟩
  · simp only [Option.some.injEq] at taken
    subst taken
    cases running.symm.trans wrong
  · split at taken <;> simp only [Option.some.injEq, reduceCtorEq] at taken
    subst taken
    cases running.symm.trans wrong
  · split at taken <;> simp only [Option.some.injEq, reduceCtorEq] at taken
    subst taken
    cases running.symm.trans wrong
  · split at taken <;> simp only [Option.some.injEq, reduceCtorEq] at taken
    subst taken
    cases running.symm.trans wrong
  · rename_i position
    have loaded : state.init = .done := by
      by_contra early
      cases position.symm.trans (control.loaded early)
    have live : state.memory = .live := allocated.live (by simp [loaded]) (by simp [loaded]) (by simp [position])
    simp only [live, Option.some.injEq] at taken
    subst taken
    cases running.symm.trans wrong
  · cases taken

/-- Nothing goes wrong any more when the module has been unloaded. -/
theorem unloaded_step (control : Control state) (returned : state.exit = .returned) (taken : state.step event = some next)
    (running : state.crash = none) : next.exit = .returned ∧ next.crash = none := by
  have late : state.exit.rank = 10 := by rw [returned]; rfl
  have loaded : state.init = .done := by
    by_contra early
    exact absurd (returned.symm.trans (control.loaded early)) nofun
  have off : state.ahrtimer = .off := control.cancelled (by omega)
  have childOff : state.childtimer = .off := control.cancelledChild (by omega)
  have left : state.thread.rank = 19 := control.joinedChild (by omega)
  unfold State.step at taken
  split at taken
  · exact absurd taken nofun
  · cases event with
    | init => simp [State.initStep, loaded] at taken
    | initFails => simp [State.initFails, loaded] at taken
    | timer => simp [State.timerStep, off] at taken
    | childTimer => simp [State.childTimerStep, childOff] at taken
    | thread =>
        simp only [State.threadStep] at taken
        grind -ring -linarith [ThreadPc.rank]
    | threadFails =>
        simp only [State.threadFails] at taken
        grind -ring -linarith [ThreadPc.rank]
    | child =>
        simp only [State.childStep] at taken
        grind -ring -linarith
    | exit => simp [State.exitStep, returned] at taken
    | tick duration =>
        simp only [Option.some.injEq] at taken
        exact taken ▸ ⟨returned, running⟩

/-- The step that completes the unloading goes well. -/
theorem completed (early : state.exit ≠ .returned) (taken : state.step event = some next)
    (returned : next.exit = .returned) (running : state.crash = none) : next.crash = none := by
  unfold State.step at taken
  rw [running] at taken
  cases event with
  | exit =>
      simp only [Option.isSome_none, State.exitStep] at taken
      grind -ring -linarith
  | init =>
      simp only [Option.isSome_none, State.initStep, State.record] at taken
      grind -ring -linarith
  | initFails =>
      simp only [Option.isSome_none, State.initFails] at taken
      grind -ring -linarith
  | timer => exact absurd ((frame_timer taken).2.1.symm.trans returned) early
  | childTimer => exact absurd ((frame_childTimer taken).2.1.symm.trans returned) early
  | thread => exact absurd ((frame_thread taken).2.1.symm.trans returned) early
  | threadFails =>
      simp only [Option.isSome_none, State.threadFails] at taken
      grind -ring -linarith
  | child =>
      simp only [Option.isSome_none, State.childStep] at taken
      grind -ring -linarith
  | tick duration =>
      simp only [Option.isSome_none] at taken
      grind -ring -linarith

/-- What each state of a run keeps, also one that has gone wrong. -/
structure Sound (state : State) : Prop where
  allocated : Allocated state
  blamed : ∀ reason, state.crash = some reason → Blamed state reason
  kept : state.crash = none → Kept state
  finished : state.exit = .returned → state.crash = none

theorem Sound.step (sound : Sound state) (taken : state.step event = some next) : Sound next := by
  have running : state.crash = none := by
    unfold State.step at taken
    split at taken
    · exact absurd taken nofun
    · rename_i none
      simpa using none
  obtain ⟨control, stamps⟩ := sound.kept running
  refine ⟨sound.allocated.step taken, fun reason wrong => ?_, fun right => (sound.kept running).step taken right, ?_⟩
  · have effect := taken
    unfold State.step at effect
    rw [running] at effect
    cases event with
    | init => exact blamed_init sound.allocated effect running wrong
    | initFails =>
        simp only [Option.isSome_none, State.initFails] at effect
        grind -ring -linarith
    | timer => exact blamed_timer control sound.allocated effect running wrong
    | childTimer => exact blamed_childTimer control sound.allocated effect running wrong
    | thread => exact blamed_thread control sound.allocated effect running wrong
    | threadFails =>
        simp only [Option.isSome_none, State.threadFails] at effect
        grind -ring -linarith
    | child =>
        simp only [Option.isSome_none, State.childStep] at effect
        grind -ring -linarith
    | exit => exact blamed_exit control sound.allocated effect running wrong
    | tick duration =>
        simp only [Option.isSome_none] at effect
        grind -ring -linarith
  · intro returned
    by_cases early : state.exit = .returned
    · exact (unloaded_step control early taken running).2
    · exact completed early taken returned running

theorem sound (reached : timing.Reachable state) : Sound state := by
  refine reached.invariant Sound ?_ fun _ _ _ _ holds _ taken => holds.step taken
  rintro state ⟨now, rfl⟩
  exact ⟨allocated_start now, nofun, fun _ => ⟨control_start now, stamps_start now⟩, nofun⟩

/-- The labels that load the module, let its timer fire and take the thread to its first sleep. -/
def sleeps : List Event :=
  List.replicate 8 .init ++ [.tick delay] ++ List.replicate 3 .timer ++ List.replicate 4 .thread

theorem initial : timing.start { now := 1 } := ⟨1, rfl⟩

/-- The stamps behind the first sleep are not taken, and there is no child thread, before the unloading has stopped the
thread: until then nothing but its own timer wakes the thread, and that wake-up starts it. -/
theorem stamps_before_stop (reached : timing.Reachable state) (running : state.crash = none)
    (unstopped : state.shouldStop = false) : state.tsArray 5 = 0 ∧ state.tsArray 6 = 0 ∧ state.tsArray 7 = 0 ∧
      state.childKthread = false ∧ state.child = .absent ∧ state.childtimer = .off := by
  obtain ⟨control, stamps⟩ := (sound reached).kept running
  have flag := control.flag
  have early : state.thread.rank ≤ 9 := by
    have top := state.thread.rank_le
    have working := control.working
    have returned := control.returned
    simp only [unstopped, Bool.false_eq_true, false_iff] at flag
    grind -ring -linarith [ExitPc.rank]
  obtain ⟨fifth, sixth, seventh⟩ := stamps.untaken early
  obtain ⟨unknown, absent⟩ := control.childless (by omega)
  exact ⟨fifth, sixth, seventh, unknown, absent, control.childOff (by omega)⟩

theorem stamps_before_stop_asleep : ∃ state, timing.Reachable state ∧ state.thread = .schedule .asleep ∧
    state.tsArray 5 = 0 ∧ state.tsArray 6 = 0 ∧ state.tsArray 7 = 0 ∧ state.childKthread = false ∧
      state.child = .absent ∧ state.childtimer = .off := by
  have executed : (timing.execute { now := 1 } sleeps).map
      (fun state => (state.crash, state.shouldStop, state.thread)) = some (none, false, .schedule .asleep) := by
    decide +kernel
  obtain ⟨state, reached, shown⟩ := Machine.execute_shows initial _ _ executed
  simp only [Prod.mk.injEq] at shown
  exact ⟨state, reached, shown.2.2, stamps_before_stop reached shown.1 shown.2.1⟩

/-- What the stamps 0 to 7 of an unloaded module say. Stamps 0, 1 and 2 are in order, and so are stamp 1 and those from
3 on. Stamps 2 and 3 need not be, since the handler of the timer may come before the last statement of `timing_init`.
The stop lies between both of them and stamp 5, so the distance of stamps 3 and 5 includes the time until the stop. -/
theorem unload_measures (reached : timing.Reachable state) (returned : state.exit = .returned) :
    state.crash = none ∧ state.tsArray 0 ≤ state.tsArray 1 ∧ state.tsArray 1 ≤ state.tsArray 2 ∧
      state.tsArray 1 + delay ≤ state.tsArray 3 ∧ state.tsArray 3 ≤ state.tsArray 4 ∧
      state.tsArray 4 ≤ state.tsArray 5 ∧ state.tsArray 2 ≤ state.stopped ∧ state.tsArray 3 ≤ state.stopped ∧
      state.stopped ≤ state.tsArray 5 ∧ state.tsArray 5 + delay ≤ state.tsArray 6 ∧
      state.tsArray 6 ≤ state.tsArray 7 := by
  have running : state.crash = none := (sound reached).finished returned
  obtain ⟨control, stamps⟩ := (sound reached).kept running
  have late : state.exit.rank = 10 := by rw [returned]; rfl
  have left : state.thread.rank = 19 := control.joinedChild (by omega)
  have loaded : state.init = .done := by
    by_contra early
    exact absurd (returned.symm.trans (control.loaded early)) nofun
  have flagged : state.shouldStop = true := control.flag.mpr (by omega)
  obtain ⟨fourth, stopped⟩ := stamps.fifth (by omega)
  exact ⟨running, stamps.firsts (loaded ▸ rfl), stamps.seconds loaded, stamps.called (by omega),
    stamps.fourth (by omega), fourth, stamps.stoppedLate flagged, stamps.flagged flagged (by omega), stopped,
    stamps.childWoken (by omega), stamps.last left⟩

/-- A run in which `timing_init` takes its last stamp after the handler of the timer has taken the third one. -/
theorem unload_measures_complete : ∃ state, timing.Reachable state ∧ state.exit = .returned ∧
    state.tsArray 3 < state.tsArray 2 ∧ state.tsArray 2 ≤ state.stopped ∧
      state.tsArray 5 + delay ≤ state.tsArray 6 := by
  have executed : (timing.execute { now := 1 } (List.replicate 7 .init ++ [.tick delay] ++ List.replicate 3 .timer ++
      [.tick 1, .init] ++ List.replicate 4 .thread ++ List.replicate 3 .exit ++ List.replicate 8 .thread ++
      [.tick delay] ++ List.replicate 3 .childTimer ++ [.thread, .thread] ++ List.replicate 3 .exit ++ [.child] ++
        List.replicate 4 .exit)).map (fun state => (state.exit, decide (state.tsArray 3 < state.tsArray 2))) =
      some (.returned, true) := by decide +kernel
  obtain ⟨state, reached, shown⟩ := Machine.execute_shows initial _ _ executed
  obtain ⟨returned, later⟩ := Prod.mk.inj shown
  obtain ⟨_, _, _, _, _, _, stopped, _, _, second, _⟩ := unload_measures reached returned
  exact ⟨state, reached, returned, of_decide_eq_true later, stopped, second⟩

/-- A run goes wrong for the named reasons only. In particular the array is never used after `kfree`. -/
theorem crash_blamed (reached : timing.Reachable state) {reason : Crash} (wrong : state.crash = some reason) :
    Blamed state reason ∧ reason ≠ .freedArray := by
  have blamed := (sound reached).blamed reason wrong
  exact ⟨blamed, by rintro rfl; cases blamed⟩

theorem crash_blamed_early : ∃ state, timing.Reachable state ∧ Blamed state .nullThread := by
  have executed : (timing.execute { now := 1 } (List.replicate 8 .init ++ List.replicate 3 .exit ++ [.thread] ++
      [.exit, .exit])).map State.crash = some (some .nullThread) := by decide +kernel
  obtain ⟨state, reached, shown⟩ := Machine.execute_shows initial _ _ executed
  exact ⟨state, reached, (crash_blamed reached shown).1⟩

/-- No wake-up is left for a thread that has lost the one of its stop, or in its second sleep the one of the timer. -/
def Stranded (state : State) : Prop :=
  state.exit = .join ∧ state.init = .done ∧ state.ahrtimer = .done ∧
    (4 ≤ state.thread.rank ∧ state.thread.rank ≤ 7 ∧ state.childtimer = .off ∨
      14 ≤ state.thread.rank ∧ state.thread.rank ≤ 16 ∧ state.childtimer = .done)

theorem stranded_step (stranded : Stranded state) (taken : state.step event = some next) : Stranded next := by
  obtain ⟨joining, loaded, fired, lost⟩ := stranded
  unfold State.step at taken
  split at taken
  · exact absurd taken nofun
  · cases event with
    | init => simp [State.initStep, loaded] at taken
    | initFails => simp [State.initFails, loaded] at taken
    | timer => simp [State.timerStep, fired] at taken
    | childTimer => rcases lost with ⟨_, _, off⟩ | ⟨_, _, done⟩ <;> simp_all [State.childTimerStep]
    | thread =>
        simp only [State.threadStep, State.record] at taken
        unfold Stranded
        grind -ring -linarith [ThreadPc.rank]
    | threadFails =>
        simp only [State.threadFails] at taken
        grind -ring -linarith [ThreadPc.rank]
    | child =>
        simp only [State.childStep] at taken
        unfold Stranded
        grind -ring -linarith
    | exit =>
        simp only [State.exitStep, joining] at taken
        split at taken
        · rename_i called left
          rw [left] at lost
          cases called <;> simp [ThreadPc.rank] at lost
        · exact absurd taken nofun
    | tick duration =>
        simp only [Option.some.injEq] at taken
        exact taken ▸ ⟨joining, loaded, fired, lost⟩

/-- The unloading never ends when the stop has woken the thread before its first sleep, or when the timer has woken it
before its second one. -/
theorem unload_stuck (reached : timing.Reachable state) (running : state.crash = none) (joining : state.exit = .join)
    (lost : 4 ≤ state.thread.rank ∧ state.thread.rank ≤ 7 ∨
      14 ≤ state.thread.rank ∧ state.thread.rank ≤ 16 ∧ state.childtimer = .done)
    (events : List Event) {final : State} (executed : timing.execute state events = some final) :
    final.exit = .join := by
  obtain ⟨control, _⟩ := (sound reached).kept running
  have loaded : state.init = .done := by
    by_contra early
    exact absurd (joining.symm.trans (control.loaded early)) nofun
  have late : state.exit.rank = 3 := by rw [joining]; rfl
  have fired : state.ahrtimer = .done := by
    by_contra waits
    have early := control.waiting waits (by omega)
    omega
  have stranded : Stranded state := by
    refine ⟨joining, loaded, fired, ?_⟩
    rcases lost with ⟨called, asleep⟩ | again
    · exact .inl ⟨called, asleep, control.childOff (by omega)⟩
    · exact .inr again
  exact (Machine.execute_keeps Stranded events (fun _ _ _ _ => stranded_step) stranded executed).1

theorem unload_stuck_early : ∃ state, timing.Reachable state ∧
    ∀ events final, timing.execute state events = some final → final.exit = .join := by
  have executed : (timing.execute { now := 1 } (List.replicate 8 .init ++ [.tick delay] ++ List.replicate 3 .timer ++
      [.thread] ++ List.replicate 3 .exit)).map (fun state => (state.crash, state.exit, state.thread)) =
        some (none, .join, .tsArray4) := by decide +kernel
  obtain ⟨state, reached, shown⟩ := Machine.execute_shows initial _ _ executed
  simp only [Prod.mk.injEq] at shown
  obtain ⟨running, joining, position⟩ := shown
  exact ⟨state, reached, fun events final after =>
    unload_stuck reached running joining (.inl (by rw [position]; decide)) events after⟩

end KernelStudio.TimingModule
