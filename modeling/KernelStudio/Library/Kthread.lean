/-
This file gives kernel threads that sleep in a loop until a wake-up arrives or a stop is requested, and the grid of
a periodic timer. Each thread records the wake-ups that it has absorbed and the times at which its sleep has ended.
-/

import Mathlib.Algebra.Order.Group.Nat
import Mathlib.Tactic.Common

namespace KernelStudio.Kthread

/-- This is the state a thread carries through `schedule()`. -/
inductive TaskState where
  | running
  | interruptible
  | asleep
  deriving DecidableEq

/-- Each constructor names the next statement of a thread. The loop tests the stop flag, decides in its body
whether to sleep, and then does the iterations of its work. -/
inductive Pc where
  | absent
  | created
  | kthread
  | kthreadShouldStop
  | body
  | setCurrentState
  | schedule (state : TaskState)
  | work (i : Nat)
  | exited
  deriving DecidableEq

/-- A wake-up acts on a new thread, on a marked thread and on a sleeping thread. -/
def Pc.wake : Pc → Pc
  | .created => .kthread
  | .schedule _ => .schedule .running
  | pc => pc

/-- A thread with its stop flag, the times at which `schedule()` has returned and the wake-ups without effect. -/
structure Thread where
  pc : Pc := .absent
  shouldStop : Bool := false
  releases : List Nat := []
  absorbed : Nat := 0
  deriving DecidableEq

/-- This is `kthread_create`. -/
def Thread.create (cur : Thread) : Thread := { cur with pc := .created }

/-- This is `wake_up_process`. -/
def Thread.wakeUpProcess (cur : Thread) : Thread :=
  { cur with pc := cur.pc.wake, absorbed := if cur.pc.wake = cur.pc then cur.absorbed + 1 else cur.absorbed }

/-- One statement of a thread whose body sleeps or not and then does so many iterations. -/
def Thread.run (sleeps : Bool) (iterations now : Nat) (cur : Thread) : Option Thread :=
  match cur.pc with
  | .absent | .created | .schedule .asleep | .exited => none
  -- `kthread()` runs the thread function only while the thread is not stopped
  | .kthread => some { cur with pc := if cur.shouldStop then .exited else .kthreadShouldStop }
  | .kthreadShouldStop => some { cur with pc := if cur.shouldStop then .exited else .body }
  | .body => some { cur with pc := if sleeps then .setCurrentState else .work 0 }
  | .setCurrentState => some { cur with pc := .schedule .interruptible }
  | .schedule .interruptible => some { cur with pc := .schedule .asleep }
  -- a wake-up since the mark lets `schedule()` return
  | .schedule .running => some { cur with pc := .work 0, releases := cur.releases ++ [now] }
  | .work i => some { cur with pc := if i < iterations then .work (i + 1) else .kthreadShouldStop }

/-- The thread has been created and has not returned. -/
def Thread.Live (cur : Thread) : Prop := cur.pc ≠ .absent ∧ cur.pc ≠ .exited

instance (cur : Thread) : Decidable cur.Live := inferInstanceAs (Decidable (_ ∧ _))

/-- A wake-up has ended the sleep, but `schedule()` has not returned yet. -/
def Thread.pending (cur : Thread) : Nat := if cur.pc = .schedule .running then 1 else 0

/-- The first wake-up starts the thread. -/
def Thread.begun (cur : Thread) : Nat := if cur.pc = .absent ∨ cur.pc = .created then 0 else 1

/-- What the wake-ups of a thread have been used for. -/
def Thread.balance (cur : Thread) : Nat := cur.begun + cur.releases.length + cur.pending + cur.absorbed

variable {sleeps : Bool} {iterations now : Nat} {cur next : Thread}

@[simp] theorem shouldStop_wakeUpProcess : cur.wakeUpProcess.shouldStop = cur.shouldStop := rfl

@[simp] theorem releases_wakeUpProcess : cur.wakeUpProcess.releases = cur.releases := rfl

/-- A wake-up of a created thread is used or absorbed. -/
theorem balance_wakeUpProcess (created : cur.pc ≠ .absent) : cur.wakeUpProcess.balance = cur.balance + 1 := by
  obtain ⟨pc, shouldStop, releases, absorbed⟩ := cur
  cases pc with
  | absent => exact absurd rfl created
  | schedule state =>
      cases state <;> simp [Thread.wakeUpProcess, Pc.wake, Thread.balance, Thread.begun, Thread.pending]
      all_goals omega
  | created | kthread | kthreadShouldStop | body | setCurrentState | work | exited =>
      simp [Thread.wakeUpProcess, Pc.wake, Thread.balance, Thread.begun, Thread.pending]
      omega

/-- The thread's own statements use up no wake-up unnoticed. -/
theorem balance_run (taken : cur.run sleeps iterations now = some next) : next.balance = cur.balance := by
  obtain ⟨pc, shouldStop, releases, absorbed⟩ := cur
  cases pc with
  | schedule state =>
      cases state <;> simp only [Thread.run, Option.some.injEq, reduceCtorEq] at taken
      all_goals subst taken
      all_goals simp [Thread.balance, Thread.begun, Thread.pending]
      omega
  | absent | created | exited => simp [Thread.run] at taken
  | kthread | kthreadShouldStop | body | setCurrentState | work =>
      simp only [Thread.run, Option.some.injEq] at taken
      subst taken
      simp only [Thread.balance, Thread.begun, Thread.pending]
      grind

/-- A statement other than the return of `schedule()` records no release. -/
theorem releases_run (taken : cur.run sleeps iterations now = some next) :
    next.releases = cur.releases ∨ cur.pc = .schedule .running ∧ next.releases = cur.releases ++ [now] := by
  obtain ⟨pc, shouldStop, releases, absorbed⟩ := cur
  unfold Thread.run at taken
  grind

theorem shouldStop_run (taken : cur.run sleeps iterations now = some next) : next.shouldStop = cur.shouldStop := by
  unfold Thread.run at taken
  grind

theorem begun_run (taken : cur.run sleeps iterations now = some next) : next.begun = 1 ∧ cur.begun = 1 := by
  unfold Thread.run at taken
  unfold Thread.begun
  grind

/-- A thread returns only from one of its tests of the stop flag. -/
theorem exited_run (taken : cur.run sleeps iterations now = some next) (left : next.pc = .exited) :
    cur.shouldStop = true := by
  unfold Thread.run at taken
  grind

/-- No statement leaves the position behind the last one. -/
theorem pc_ne_exited_of_run (taken : cur.run sleeps iterations now = some next) : cur.pc ≠ .exited := by
  unfold Thread.run at taken
  grind

theorem pc_ne_absent_of_run (taken : cur.run sleeps iterations now = some next) : next.pc ≠ .absent := by
  unfold Thread.run at taken
  grind

/-- A thread that its module has woken, stopped or joined so far, with the number of its wake-ups. -/
structure Thread.Managed (woken flagged joined : Bool) (wakes : Nat) (cur : Thread) : Prop where
  begun : cur.begun = woken.toNat
  balance : cur.balance = wakes
  flag : cur.shouldStop = flagged
  leaves : cur.pc = .exited → flagged = true
  joined : joined = true → cur.pc = .exited

section Managed

variable {woken flagged joined : Bool} {wakes : Nat}

theorem managed_absent : Thread.Managed false false false 0 {} :=
  ⟨rfl, rfl, rfl, nofun, nofun⟩

theorem Thread.Managed.create (managed : cur.Managed woken flagged joined wakes) (fresh : woken = false) :
    cur.create.Managed woken flagged joined wakes := by
  subst fresh
  have begun : cur.begun = 0 := managed.begun
  have early : cur.pc = .absent ∨ cur.pc = .created := by
    by_contra late
    simp [Thread.begun, late] at begun
  have balance := managed.balance
  refine ⟨rfl, ?_, managed.flag, nofun, fun left => ?_⟩
  · rcases early with same | same <;>
      simpa [Thread.balance, Thread.begun, Thread.pending, Thread.create, same] using balance
  · have exited : cur.pc = .exited := managed.joined left
    simp [exited] at early

theorem Thread.Managed.wake (managed : cur.Managed woken flagged joined wakes) (created : cur.pc ≠ .absent) :
    cur.wakeUpProcess.Managed true flagged joined (wakes + 1) := by
  have exited : cur.wakeUpProcess.pc = .exited ↔ cur.pc = .exited := by
    unfold Thread.wakeUpProcess Pc.wake
    grind
  refine ⟨?_, ?_, managed.flag, fun left => managed.leaves (exited.mp left), fun left => exited.mpr (managed.joined left)⟩
  · unfold Thread.begun Thread.wakeUpProcess Pc.wake
    grind
  · rw [balance_wakeUpProcess created, managed.balance]

theorem Thread.Managed.run (managed : cur.Managed woken flagged joined wakes)
    (taken : cur.run sleeps iterations now = some next) : next.Managed woken flagged joined wakes where
  begun := by rw [(begun_run taken).1, ← (begun_run taken).2, managed.begun]
  balance := (balance_run taken).trans managed.balance
  flag := (shouldStop_run taken).trans managed.flag
  leaves left := managed.flag ▸ exited_run taken left
  joined left := absurd (managed.joined left) (pc_ne_exited_of_run taken)

theorem Thread.Managed.stop (managed : cur.Managed woken flagged joined wakes) :
    Thread.Managed woken true joined wakes { cur with shouldStop := true } :=
  ⟨managed.begun, managed.balance, rfl, fun _ => rfl, managed.joined⟩

theorem Thread.Managed.join (managed : cur.Managed woken flagged joined wakes) (left : cur.pc = .exited) :
    cur.Managed woken flagged true wakes :=
  { managed with joined := fun _ => left }

/-- Without a wake-up behind the first one there is no release. -/
theorem Thread.Managed.releases_nil (managed : cur.Managed woken flagged joined wakes) (single : wakes = woken.toNat) :
    cur.releases = [] := by
  have balance := managed.balance
  rw [Thread.balance, managed.begun, single] at balance
  exact List.length_eq_zero_iff.mp (by omega)

end Managed

/-- The thread no longer hears a stop whose wake-up has passed: it goes to sleep, or it sleeps. -/
def Thread.Lost (sleeps : Bool) (cur : Thread) : Prop :=
  (cur.pc = .body ∧ sleeps = true) ∨ cur.pc = .setCurrentState ∨ cur.pc = .schedule .interruptible ∨
    cur.pc = .schedule .asleep

instance (sleeps : Bool) (cur : Thread) : Decidable (cur.Lost sleeps) :=
  inferInstanceAs (Decidable ((_ ∧ _) ∨ _ ∨ _ ∨ _))

/-- The statements that are left to a stopped thread, as long as it does not sleep. -/
def Thread.remaining (iterations : Nat) (cur : Thread) : Nat :=
  match cur.pc with
  | .kthread | .kthreadShouldStop => 1
  | .work i => iterations - i + 2
  | .body | .schedule .running => iterations + 3
  | _ => 0

/-- A lost thread stays lost, whatever it executes. -/
theorem Thread.Lost.run (lost : cur.Lost sleeps) (taken : cur.run sleeps iterations now = some next) :
    next.Lost sleeps := by
  unfold Thread.Lost at *
  unfold Thread.run at taken
  grind

/-- A stopped thread that is awake and not lost comes closer to its return with each statement. -/
theorem exists_run_of_not_lost (iterations now : Nat) (stopped : cur.shouldStop = true) (live : cur.Live)
    (woken : cur.pc ≠ .created) (heard : ¬ cur.Lost sleeps) : ∃ next, cur.run sleeps iterations now = some next ∧
      next.remaining iterations < cur.remaining iterations ∧ ¬ next.Lost sleeps ∧ next.pc ≠ .absent ∧
        next.pc ≠ .created := by
  obtain ⟨pc, shouldStop, releases, absorbed⟩ := cur
  obtain ⟨created, alive⟩ := live
  simp only [Thread.Lost, not_or] at heard
  simp only at stopped created alive woken heard
  subst stopped
  cases pc with
  | absent => exact absurd rfl created
  | created => exact absurd rfl woken
  | exited => exact absurd rfl alive
  | body =>
      have busy : sleeps = false := by simpa using heard.1
      exact ⟨_, rfl, by simp [Thread.remaining, Thread.Lost, busy]⟩
  | setCurrentState => exact absurd rfl heard.2.1
  | kthread | kthreadShouldStop => exact ⟨_, rfl, by simp [Thread.remaining, Thread.Lost]⟩
  | schedule state =>
      cases state with
      | running => exact ⟨_, rfl, by simp [Thread.remaining, Thread.Lost]⟩
      | interruptible => exact absurd rfl heard.2.2.1
      | asleep => exact absurd rfl heard.2.2.2
  | work i =>
      refine ⟨_, rfl, ?_⟩
      by_cases more : i < iterations
      · simp [Thread.remaining, Thread.Lost, more]
        omega
      · simp [Thread.remaining, Thread.Lost, more]

/-- This is `hrtimer_forward_now`: the expiry moves on by whole intervals until it lies after the present time. -/
def hrtimerForward (now expiry interval : Nat) : Nat :=
  expiry + max interval 1 * ((now - expiry) / max interval 1 + 1)

/-- A forwarded timer has moved on by one interval at least. -/
theorem le_hrtimerForward (now expiry interval : Nat) : expiry + interval ≤ hrtimerForward now expiry interval := by
  unfold hrtimerForward
  have one : interval ≤ max interval 1 := Nat.le_max_left interval 1
  have more : max interval 1 ≤ max interval 1 * ((now - expiry) / max interval 1 + 1) :=
    Nat.le_mul_of_pos_right _ (Nat.succ_pos _)
  omega

/-- The times lie no closer than the gap, counted from the first one. -/
def Spaced (first gap : Nat) (times : List Nat) : Prop :=
  ∀ k, (inside : k < times.length) → first + k * gap ≤ times[k]

theorem spaced_nil (first gap : Nat) : Spaced first gap [] := fun _ inside => absurd inside (Nat.not_lt_zero _)

theorem Spaced.concat {first gap time : Nat} {times : List Nat} (spaced : Spaced first gap times)
    (late : first + times.length * gap ≤ time) : Spaced first gap (times ++ [time]) := by
  intro k inside
  rw [List.getElem_append]
  split
  · exact spaced k _
  · have last : k = times.length := by simp at inside; omega
    simpa [last] using late

/-- The releases of a thread are spaced. Only the last one may be early, when the stop of the thread has caused it. -/
def Thread.Paced (first gap : Nat) (cur : Thread) : Prop :=
  Spaced first gap cur.releases ∨ cur.shouldStop = true ∧ Spaced first gap cur.releases.dropLast ∧
    (cur.pc = .exited ∨ cur.pc = .kthreadShouldStop ∨ ∃ i, cur.pc = .work i)

section Paced

variable {first gap : Nat}

theorem paced_of_releases_nil (none : cur.releases = []) : cur.Paced first gap := .inl (none ▸ spaced_nil first gap)

theorem Thread.Paced.wake (paced : cur.Paced first gap) : cur.wakeUpProcess.Paced first gap := by
  rcases paced with spaced | ⟨stopped, spaced, leaving⟩
  · exact .inl spaced
  · refine .inr ⟨stopped, spaced, ?_⟩
    rcases leaving with same | same | ⟨i, same⟩ <;> simp [Thread.wakeUpProcess, Pc.wake, same]

theorem Thread.Paced.run (paced : cur.Paced first gap) (taken : cur.run sleeps iterations now = some next)
    (prompt : cur.pc = .schedule .running → cur.shouldStop = true ∨ first + cur.releases.length * gap ≤ now) :
    next.Paced first gap := by
  rcases paced with spaced | ⟨stopped, spaced, leaving⟩
  · rcases releases_run taken with same | ⟨woken, same⟩
    · exact .inl (same ▸ spaced)
    · rcases prompt woken with stopped | late
      · refine .inr ⟨(shouldStop_run taken).trans stopped, by simpa [same] using spaced, .inr (.inr ⟨0, ?_⟩)⟩
        simp only [Thread.run, woken, Option.some.injEq] at taken
        exact taken ▸ rfl
      · exact .inl (same ▸ spaced.concat late)
  · refine .inr ⟨(shouldStop_run taken).trans stopped, ?_, ?_⟩
    · unfold Thread.run at taken
      grind
    · unfold Thread.run at taken
      grind

theorem Thread.Paced.stop (paced : cur.Paced first gap) : Thread.Paced first gap { cur with shouldStop := true } := by
  rcases paced with spaced | ⟨_, spaced, leaving⟩
  · exact .inl spaced
  · exact .inr ⟨rfl, spaced, leaving⟩

/-- Each release but the last one of a stopped thread is late enough. -/
theorem Thread.Paced.le (paced : cur.Paced first gap) {i : Nat} (inside : i < cur.releases.length)
    (earlier : cur.shouldStop = true → i + 1 < cur.releases.length) : first + i * gap ≤ cur.releases[i] := by
  rcases paced with spaced | ⟨stopped, spaced, _⟩
  · exact spaced i inside
  · have shorter : i < cur.releases.dropLast.length := by
      rw [List.length_dropLast]
      exact Nat.lt_sub_of_add_lt (earlier stopped)
    simpa using spaced i shorter

end Paced

end KernelStudio.Kthread
