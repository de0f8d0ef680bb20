/-
This file models an ideal preemptive fixed-priority scheduler with no overhead for the subtasks of a header.
One step is one millisecond: the releases by the rule of `run`, and then one choice for each core.
-/

import KernelStudio.Construction.EndToEnd.Table
import KernelStudio.Library.Transition

namespace KernelStudio.EndToEnd

/-- The schedule up to an instant: the releases, the completions and the executed time of each subtask. -/
structure Schedule where
  now : Nat := 0
  releases : Nat → List Nat := fun _ => []
  finishes : Nat → List Nat := fun _ => []
  work : Nat → Nat := fun _ => 0

/-- The subtask that each core executes for one millisecond. -/
abbrev Choice := Nat → Option Nat

namespace Header

variable (header : Header)

/-- The relative deadline that `run` computes, in milliseconds. -/
def relDdl (i : Nat) : Nat :=
  u32 ((header.parent i).period * (header.subtask i).cumulativeExeTime) / (header.parent i).exeTime

/-- The index of the subtask whose thread notifies this one. -/
def predecessorIdx (i : Nat) : Nat := header.firstIdx i + (header.subtask i).subtaskId - 1

/-- A first subtask is released once in each period. A successor is released when its predecessor has
completed the same job and its own previous release is one period ago. -/
def releaseNow (schedule : Schedule) (i : Nat) : Bool :=
  if (header.subtask i).subtaskId = 0 then (header.parent i).period ∣ schedule.now
  else (schedule.releases i).length < (schedule.finishes (header.predecessorIdx i)).length ∧
    ∀ last ∈ (schedule.releases i).getLast?, last + (header.parent i).period ≤ schedule.now

/-- The releases of one instant. -/
def releaseJobs (schedule : Schedule) : Schedule :=
  { schedule with
    releases := fun i =>
      if header.releaseNow schedule i then schedule.releases i ++ [schedule.now] else schedule.releases i }

/-- A subtask is ready while it has a released job that is not complete. -/
def ready (schedule : Schedule) (i : Nat) : Bool :=
  i < header.subtaskTot ∧ (schedule.finishes i).length < (schedule.releases i).length

/-- Each core executes a ready subtask of the highest priority, and idles only if none is ready. -/
structure Admissible (schedule : Schedule) (choice : Choice) : Prop where
  highest : ∀ core < coreNum, ∀ i ∈ choice core, header.ready schedule i = true ∧
    (header.subtask i).core = core ∧ ∀ j < header.subtaskTot, header.ready schedule j = true →
      (header.subtask j).core = core → (header.subtask j).priority ≤ (header.subtask i).priority
  idle : ∀ core < coreNum, choice core = none → ∀ j < header.subtaskTot, header.ready schedule j = true →
    (header.subtask j).core ≠ core

instance (schedule : Schedule) (choice : Choice) : Decidable (header.Admissible schedule choice) :=
  decidable_of_iff
    ((∀ core < coreNum, ∀ i ∈ choice core, header.ready schedule i = true ∧
        (header.subtask i).core = core ∧ ∀ j < header.subtaskTot, header.ready schedule j = true →
          (header.subtask j).core = core → (header.subtask j).priority ≤ (header.subtask i).priority) ∧
      ∀ core < coreNum, choice core = none → ∀ j < header.subtaskTot, header.ready schedule j = true →
        (header.subtask j).core ≠ core)
    ⟨fun both => ⟨both.1, both.2⟩, fun admissible => ⟨admissible.highest, admissible.idle⟩⟩

/-- The core of a subtask has chosen it. -/
def chosen (choice : Choice) (i : Nat) : Bool :=
  (header.subtask i).core < coreNum ∧ choice (header.subtask i).core = some i

/-- One millisecond of execution. A job is complete after exactly its execution time. -/
def executeJobs (schedule : Schedule) (choice : Choice) : Schedule :=
  { schedule with
    now := schedule.now + 1
    work := fun i => if header.chosen choice i then schedule.work i + 1 else schedule.work i
    finishes := fun i =>
      if header.chosen choice i ∧ (header.subtask i).exeTime ∣ schedule.work i + 1
      then schedule.finishes i ++ [schedule.now + 1] else schedule.finishes i }

/-- The ideal schedules of a header. All first subtasks are released at instant zero. -/
def idealSchedule : Transition.Machine Schedule Choice where
  start schedule := schedule = {}
  step schedule choice :=
    let released := header.releaseJobs schedule
    if header.Admissible released choice then some (header.executeJobs released choice) else none

/-- Each job finishes within the given time after the release of its chain. -/
def FinishesWithin (bound : Nat → Nat) (schedule : Schedule) : Prop :=
  ∀ i < header.subtaskTot, ∀ n release, (schedule.releases (header.firstIdx i))[n]? = some release →
    (∀ finish, (schedule.finishes i)[n]? = some finish → finish ≤ release + bound i) ∧
      (release + bound i ≤ schedule.now → n < (schedule.finishes i).length)

end Header

end KernelStudio.EndToEnd
