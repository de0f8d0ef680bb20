/-
This file counts the releases of a successor against the completions of its predecessor.
Each completion is spent on one release, on one armed timer, on one pending wake-up, or is lost.
-/

import KernelStudio.Proof.EndToEnd.TimerReady

namespace KernelStudio.EndToEnd

open Transition

/-- A wake-up has been delivered and the release has not been recorded yet. -/
def Pc.woken : Pc → Nat
  | .schedule .running | .lastReleaseTime => 1
  | _ => 0

/-- A job has been completed and its successor has not been notified yet. -/
def Pc.claimed : Pc → Nat
  | .ts | .ddl | .missedDdl | .rearm | .successorTs | .releaseGuard | .wakeSuccessor | .startSuccessor => 1
  | _ => 0

def Sub.armed (cur : Sub) : Nat := if cur.timer.isSome then 1 else 0

/-- These are the releases of a subtask, including those that are recorded but still owed. -/
def Sub.owing (cur : Sub) : Nat := cur.releases.length + cur.armed + cur.pc.woken

@[simp] theorem Pc.claimed_wake (pc : Pc) : pc.wake.claimed = pc.claimed := by
  cases pc <;> rfl

theorem Pc.woken_of_early {pc : Pc} (early : pc.early = true) : pc.woken = 0 ∧ pc.claimed = 0 := by
  cases pc with
  | schedule taskState => cases taskState <;> first | exact ⟨rfl, rfl⟩ | contradiction
  | _ => first | exact ⟨rfl, rfl⟩ | contradiction

theorem Pc.woken_wake_le (pc : Pc) : pc.woken ≤ pc.wake.woken ∧ pc.wake.woken ≤ 1 := by
  cases pc with
  | schedule taskState => cases taskState <;> decide
  | _ => decide

/-- A wake-up that changes a started thread leaves it runnable. -/
theorem Pc.woken_of_wake_ne {pc : Pc} (started : pc ≠ .created) (effective : pc.wake ≠ pc) :
    pc.woken = 0 ∧ pc.wake.woken = 1 := by
  cases pc with
  | created => exact absurd rfl started
  | schedule taskState =>
      cases taskState with
      | running => exact absurd rfl effective
      | interruptible | asleep => exact ⟨rfl, rfl⟩
  | _ => exact absurd rfl effective

namespace Sub

variable (cur : Sub)

theorem armed_some {expiry : Nat} (armed : cur.timer = some expiry) : cur.armed = 1 := by
  simp [Sub.armed, armed]

theorem armed_none (idle : cur.timer = none) : cur.armed = 0 := by
  simp [Sub.armed, idle]

/-- A quiet record owes nothing. -/
theorem Quiet.owing {cur : Sub} (quiet : cur.Quiet) : cur.owing = 0 ∧ cur.pc.claimed = 0 := by
  obtain ⟨woken, claimed⟩ := Pc.woken_of_early quiet.early
  rw [Sub.owing, quiet.releases, cur.armed_none quiet.timer, woken]
  exact ⟨rfl, claimed⟩

end Sub

/-- A wake-up is owed as one release unless its thread is awake. -/
theorem Sub.wakeUpProcess_owing {cur : Sub} (started : cur.pc ≠ .created) :
    ∃ lost, cur.wakeUpProcess.owing + lost = cur.owing + 1 ∧ (cur.pc.wake ≠ cur.pc → lost = 0) := by
  have armed : cur.wakeUpProcess.armed = cur.armed := rfl
  rw [Sub.owing, Sub.owing, cur.wakeUpProcess_work.releases, armed, Sub.wakeUpProcess_pc]
  by_cases effective : cur.pc.wake = cur.pc
  · exact ⟨1, by rw [effective], fun other => absurd effective other⟩
  · obtain ⟨before, after⟩ := Pc.woken_of_wake_ne started effective
    exact ⟨0, by omega, fun _ => rfl⟩

/-- A timer start is owed as one release unless the timer is armed. -/
theorem Sub.hrtimerStart_owing (cur : Sub) (expiry : Nat) :
    ∃ lost, (cur.hrtimerStart expiry).owing + lost = cur.owing + 1 ∧ (cur.timer = none → lost = 0) := by
  have armed := (cur.hrtimerStart expiry).armed_some (cur.hrtimerStart_timer expiry)
  rw [Sub.owing, Sub.owing, (cur.hrtimerStart_work expiry).releases, armed, Sub.hrtimerStart_pc]
  cases timer : cur.timer with
  | some other =>
      rw [cur.armed_some timer]
      exact ⟨1, by omega, nofun⟩
  | none =>
      rw [cur.armed_none timer]
      exact ⟨0, by omega, fun _ => rfl⟩

/-- An armed timer that leaves its queue gives up its owed release. -/
theorem Sub.removeHrtimer_owing {cur : Sub} {expiry : Nat} (armed : cur.timer = some expiry) :
    cur.removeHrtimer.owing + 1 = cur.owing := by
  rw [Sub.owing, Sub.owing, cur.removeHrtimer.armed_none rfl, cur.armed_some armed,
    cur.removeHrtimer_work.releases, Sub.removeHrtimer_pc]
  omega

/-- A delivered call is owed as one release unless the kernel absorbs it. -/
theorem Signal.apply_owing {state : State} {signal : Signal} {s : Nat}
    (started : signal = .wake s → (state.sub s).pc ≠ .created) :
    ∃ lost, (signal.apply s (state.sub s)).owing + lost = (state.sub s).owing + (signal.aims s).toNat ∧
      ((signal.aims s = true → state.absorbs signal = false) → lost = 0) := by
  cases aimed : signal.aims s with
  | false => exact ⟨0, by rw [Signal.apply_of_not_aims aimed]; rfl, fun _ => rfl⟩
  | true =>
      cases signal with
      | none => contradiction
      | wake target =>
          obtain rfl : target = s := of_decide_eq_true aimed
          obtain ⟨lost, owed, kept⟩ := Sub.wakeUpProcess_owing (started rfl)
          refine ⟨lost, by simpa [Signal.apply] using owed, fun effective => kept ?_⟩
          simpa [State.absorbs] using effective
      | start target expiry =>
          obtain rfl : target = s := of_decide_eq_true aimed
          obtain ⟨lost, owed, kept⟩ := (state.sub target).hrtimerStart_owing expiry
          refine ⟨lost, by simpa [Signal.apply] using owed, fun effective => kept ?_⟩
          simpa [State.absorbs] using effective

/-- A statement keeps what its own thread owes. A set-up statement finds its timer idle. -/
theorem Statement.owing {header : Header} {state : State} {i : Nat} {cur : Sub} {signal : Signal}
    (statement : Statement header state i cur signal) (ready : TimerReady header state) :
    cur.owing = (state.sub i).owing ∧ cur.timer = (state.sub i).timer := by
  cases statement
  case hrtimerInit position =>
    have idle := (ready.fresh i (by rw [position]; rfl)).2
    simp [Sub.owing, Sub.armed, idle, position, Pc.woken]
  case exit position _ =>
    rcases position with position | position <;> simp [Sub.owing, Sub.armed, position, Pc.woken]
  case lastReleaseTime position =>
    simp only [Sub.owing, Sub.armed, position, Pc.woken, List.length_append, List.length_singleton, and_true]
    omega
  case rearmFirst position _ _ more | rearmLater position _ _ more =>
    rcases more with ⟨_, rfl⟩ | ⟨_, rfl⟩ <;> simp [Sub.owing, Sub.armed, position, Pc.woken]
  all_goals simp_all [Sub.owing, Sub.armed, Pc.woken]

/-- A statement spends a claim exactly when it notifies the successor. -/
theorem Statement.claimed {header : Header} {state : State} {i : Nat} {cur : Sub} {signal : Signal}
    (statement : Statement header state i cur signal) (more : header.hasSuccessor i = true)
    (later : header.successorIdx i ≠ i) :
    cur.pc.claimed + (state.sub i).completed + (signal.aims (header.successorIdx i)).toNat =
      (state.sub i).pc.claimed + cur.completed := by
  cases statement
  case exit position _ => rcases position with position | position <;> simp [position, Pc.claimed, Signal.aims]
  case subtaskFunc position =>
    simp only [position, Pc.claimed, Signal.aims, Bool.toNat_false]
    omega
  case wakeSuccessor position | startSuccessor position =>
    simp [position, Pc.claimed, Signal.aims]
    omega
  case rearmFirst position _ _ next | rearmLater position _ _ next =>
    rcases next with ⟨_, rfl⟩ | ⟨alone, _⟩
    · simp [position, Pc.claimed, Signal.aims, later.symm]
    · rw [alone] at more
      contradiction
  all_goals simp_all [Pc.claimed, Signal.aims]

/-- No wake-up or timer start for this subtask is absorbed by the kernel. -/
def Header.keeps (header : Header) (s : Nat) (state : State) (event : Event) : Prop :=
  (header.call state event).aims s = true → state.absorbs (header.call state event) = false

instance (header : Header) (s : Nat) (state : State) (event : Event) :
    Decidable (header.keeps s state event) :=
  inferInstanceAs (Decidable (_ → _))

variable {header : Header} {state next : State}

/-- A call changes neither the claim nor the completions of its target. -/
theorem Signal.apply_account (signal : Signal) (j : Nat) (cur : Sub) :
    (signal.apply j cur).pc.claimed = cur.pc.claimed ∧ (signal.apply j cur).completed = cur.completed := by
  cases signal with
  | none => exact ⟨rfl, rfl⟩
  | wake target =>
      by_cases aimed : j = target
      · simp [Signal.apply, aimed, Sub.wakeUpProcess]
      · simp [Signal.apply, aimed]
  | start target expiry =>
      by_cases aimed : j = target
      · simp [Signal.apply, aimed, Sub.hrtimerStart]
      · simp [Signal.apply, aimed]

/-- One step moves each completion to a claim, an armed timer, a wake-up, a release, or a loss. -/
theorem ledger_thread (wf : header.WellFormed) (startup : Startup header state)
    (ready : TimerReady header state) {p s : Nat} (pair : header.Consecutive p s) {i : Nat}
    (taken : header.step state (.thread i) = some next) :
    ∃ lost, (next.sub s).owing + (next.sub p).pc.claimed + lost + (state.sub p).completed =
        (state.sub s).owing + (state.sub p).pc.claimed + (next.sub p).completed ∧
      (header.keeps s state (.thread i) → lost = 0) := by
  obtain ⟨cur, signal, statement, call, rfl⟩ := step_thread taken
  have inside := startup.inside statement.started.1
  have target := wf.successorIdx_eq inside
  have behind := pair.eq wf
  have records := step_thread_sub state i cur signal
  have account := signal.apply_account p (if p = i then cur else state.sub p)
  rw [← records p] at account
  rw [account.1, account.2, records s]
  by_cases actor : i = p
  · -- the predecessor spends its claim on the call
    subst actor
    rw [if_pos rfl, if_neg (by omega)]
    have spent := statement.claimed (pair.hasSuccessor wf) (by omega)
    rw [target, ← behind] at spent
    have started : signal = .wake s → (state.sub s).pc ≠ .created := by
      intro direct created
      have quiet := startup.quiet_loading (by simp [startup.created s created]) i
      rw [(statement.quiet quiet (startup.alive i).1).2] at direct
      contradiction
    obtain ⟨lost, owed, kept⟩ := Signal.apply_owing started
    exact ⟨lost, by omega, fun keeps => kept (call ▸ keeps)⟩
  · have missed : signal.aims s = false := by
      by_contra aimed
      rcases statement.aims (by simpa using aimed) with ⟨self, first⟩ | ⟨direct, _⟩
      · have next := pair.next
        rw [self, first] at next
        omega
      · omega
    rw [if_neg (Ne.symm actor), Signal.apply_of_not_aims missed]
    refine ⟨0, ?_, fun _ => rfl⟩
    by_cases own : s = i
    · rw [if_pos own, (statement.owing ready).1, own]
      omega
    · rw [if_neg own]
      omega

/-- An expired timer turns into a wake-up of its own thread. -/
theorem ledger_fire (ready : TimerReady header state) (p s : Nat) {i : Nat}
    (taken : header.step state (.fire i) = some next) :
    ∃ lost, (next.sub s).owing + (next.sub p).pc.claimed + lost + (state.sub p).completed =
        (state.sub s).owing + (state.sub p).pc.claimed + (next.sub p).completed ∧
      (header.keeps s state (.fire i) → lost = 0) := by
  obtain ⟨expiry, armed, _, rfl⟩ := step_fire taken
  have account : ((state.set i (state.sub i).removeHrtimer.wakeUpProcess).sub p).pc.claimed =
        (state.sub p).pc.claimed ∧
      ((state.set i (state.sub i).removeHrtimer.wakeUpProcess).sub p).completed = (state.sub p).completed := by
    by_cases same : p = i
    · subst same
      simp [((state.sub p).removeHrtimer.wakeUpProcess_work).completed, (state.sub p).removeHrtimer_work.completed]
    · simp [same]
  rw [account.1, account.2]
  by_cases own : s = i
  · subst own
    have started : (state.sub s).removeHrtimer.pc ≠ .created := by
      intro created
      have idle := (ready.fresh s (by rw [← Sub.removeHrtimer_pc, created]; rfl)).2
      rw [idle] at armed
      contradiction
    have fired := Sub.removeHrtimer_owing armed
    obtain ⟨lost, owed, kept⟩ := Sub.wakeUpProcess_owing started
    simp only [State.set_sub, Function.update_self]
    refine ⟨lost, by omega, fun keeps => kept ?_⟩
    simpa [Header.keeps, Header.call, Signal.aims, State.absorbs] using keeps
  · exact ⟨0, by simp [own], fun _ => rfl⟩

/-- The start timer wakes first subtasks, which are nobody's successor. -/
theorem ledger_cal (wf : header.WellFormed) {p s : Nat} (pair : header.Consecutive p s)
    (taken : header.step state .cal = some next) :
    (next.sub s).owing = (state.sub s).owing ∧ (next.sub p).pc.claimed = (state.sub p).pc.claimed ∧
      (next.sub p).completed = (state.sub p).completed := by
  rcases step_cal taken with ⟨_, _, _, rfl⟩ | ⟨k, _, inside, rfl⟩ | ⟨_, _, _, rfl⟩
  · exact ⟨rfl, rfl, rfl⟩
  · have account := (Signal.wake (header.task k).subtaskStartIdx).apply_account p (state.sub p)
    have missed : (Signal.wake (header.task k).subtaskStartIdx).aims s = false := by
      have first := (wf.first inside).2.2
      have next := pair.next
      refine Signal.wake_misses fun same => ?_
      rw [← same, first] at next
      omega
    simp only [State.signal_sub, Signal.apply_of_not_aims missed, true_and]
    exact account
  · exact ⟨rfl, rfl, rfl⟩

/-- One step before the unload keeps the account of a pair, up to the calls that the kernel absorbs. -/
theorem ledger_step (wf : header.WellFormed) (startup : Startup header state)
    (ready : TimerReady header state) {p s : Nat} (pair : header.Consecutive p s) {event : Event}
    (running : event ≠ .exit) (taken : header.step state event = some next) :
    ∃ lost, (next.sub s).owing + (next.sub p).pc.claimed + lost + (state.sub p).completed =
        (state.sub s).owing + (state.sub p).pc.claimed + (next.sub p).completed ∧
      (header.keeps s state event → lost = 0) := by
  cases event with
  | init =>
      obtain ⟨before, _, after⟩ := step_init_quiet startup taken
      refine ⟨0, ?_, fun _ => rfl⟩
      rw [(before s).owing.1, (before p).owing.2, (before p).completed,
        (after s).owing.1, (after p).owing.2, (after p).completed]
  | exit => exact absurd rfl running
  | cal =>
      obtain ⟨owed, claims, completions⟩ := ledger_cal wf pair taken
      exact ⟨0, by omega, fun _ => rfl⟩
  | fire i => exact ledger_fire ready p s taken
  | thread i => exact ledger_thread wf startup ready pair taken
  | tick duration =>
      rw [step_tick taken]
      exact ⟨0, rfl, fun _ => rfl⟩

/-- The account of a pair never shows more releases than completions. -/
theorem ledger_reached {guard : Guard State Event} (wf : header.WellFormed) {p s : Nat}
    (pair : header.Consecutive p s) (reached : header.runMode.Reaches guard state)
    (before : state.exit = .notStarted) :
    (state.sub s).owing + (state.sub p).pc.claimed ≤ (state.sub p).completed := by
  refine runMode_invariant (fun current =>
    (current.sub s).owing + (current.sub p).pc.claimed ≤ (current.sub p).completed) ?_ ?_ reached before
  · intro now
    have quiet := loaded_quiet now
    rw [(quiet s).owing.1, (quiet p).owing.2]
    exact Nat.zero_le _
  · intro current event following visited early account _ running taken
    obtain ⟨lost, balance, _⟩ := ledger_step wf (startup_reached visited early)
      (timerReady_reached visited early) pair running taken
    omega

/-- While the kernel absorbs no call for the successor, each completion is still accounted for. -/
theorem ledger_kept (wf : header.WellFormed) {p s : Nat} (pair : header.Consecutive p s)
    (reached : header.runMode.Reaches (header.keeps s) state) (before : state.exit = .notStarted) :
    (state.sub p).completed = (state.sub s).owing + (state.sub p).pc.claimed := by
  refine runMode_invariant (fun current =>
    (current.sub p).completed = (current.sub s).owing + (current.sub p).pc.claimed) ?_ ?_ reached before
  · intro now
    have quiet := loaded_quiet now
    rw [(quiet s).owing.1, (quiet p).owing.2, (quiet p).completed]
  · intro current event following visited early account keeps running taken
    obtain ⟨lost, balance, kept⟩ := ledger_step wf (startup_reached visited early)
      (timerReady_reached visited early) pair running taken
    have none := kept keeps
    omega

end KernelStudio.EndToEnd
