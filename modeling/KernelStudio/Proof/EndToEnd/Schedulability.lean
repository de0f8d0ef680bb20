/-
This file bounds the response times of the ideal fixed-priority schedules of a planned table.
Separated releases bound the busy windows of each core, and the windows of a chain add up.
-/

import KernelStudio.Construction.EndToEnd.IdealSchedule
import KernelStudio.Construction.EndToEnd.RunMode
import KernelStudio.Library.BusyWindow
import KernelStudio.Proof.EndToEnd.Placement
import Mathlib.Algebra.BigOperators.Intervals

namespace KernelStudio.EndToEnd

open Scheduling

/-- The subtasks that may keep the core of a subtask busy before the subtask is served. -/
def Header.level (header : Header) (i : Nat) : Level Nat where
  members := (Finset.range header.subtaskTot).filter fun j =>
    (header.subtask j).core = (header.subtask i).core ∧ (header.subtask i).priority ≤ (header.subtask j).priority
  cost j := (header.subtask j).exeTime
  separation j := (header.parent j).period

/-- The lists of a schedule agree with the executed times, and releases keep the period. -/
structure Header.Consistent (header : Header) (limit : Nat) (schedule : Schedule) : Prop where
  complete : ∀ i < header.subtaskTot, (schedule.finishes i).length = schedule.work i / (header.subtask i).exeTime
  bounded : ∀ i < header.subtaskTot, schedule.work i ≤ (header.subtask i).exeTime * (schedule.releases i).length
  past : ∀ i < header.subtaskTot, ∀ instant ∈ schedule.releases i, instant < limit
  apart : ∀ i < header.subtaskTot, Separated (header.parent i).period (schedule.releases i)
  periodic : ∀ i < header.subtaskTot, (header.subtask i).subtaskId = 0 →
    limit ≤ (schedule.releases i).length * (header.parent i).period ∧
      ∀ n instant, (schedule.releases i)[n]? = some instant → instant = n * (header.parent i).period

variable {header : Header} {schedule : Schedule} {choice : Choice} {limit : Nat}

namespace Header

@[simp] theorem releaseJobs_finishes : (header.releaseJobs schedule).finishes = schedule.finishes := rfl

@[simp] theorem releaseJobs_work : (header.releaseJobs schedule).work = schedule.work := rfl

theorem releaseJobs_releases (i : Nat) : (header.releaseJobs schedule).releases i =
    if header.releaseNow schedule i then schedule.releases i ++ [schedule.now] else schedule.releases i := rfl

theorem WellFormed.exeTime_pos (wf : header.WellFormed) {i : Nat} (inside : i < header.subtaskTot) :
    0 < (header.subtask i).exeTime := wf.exeTimes _ (subtask_mem inside)

theorem WellFormed.period_pos (wf : header.WellFormed) {i : Nat} (inside : i < header.subtaskTot) :
    0 < (header.parent i).period := wf.periods _ (wf.parent_mem inside)

/-- A first subtask is released exactly when all earlier multiples of its period have been used. -/
theorem Consistent.due_first (consistent : header.Consistent schedule.now schedule)
    {i : Nat} (inside : i < header.subtaskTot) (first : (header.subtask i).subtaskId = 0)
    (due : (header.parent i).period ∣ schedule.now) :
    schedule.now = (schedule.releases i).length * (header.parent i).period := by
  obtain ⟨covered, entries⟩ := consistent.periodic i inside first
  refine Nat.le_antisymm covered ?_
  rcases List.eq_nil_or_concat' (schedule.releases i) with none | ⟨front, last, split⟩
  · simp [none]
  · have past := consistent.past i inside last (by simp [split])
    have place := entries front.length last (by simp [split])
    obtain ⟨m, count⟩ := due
    rw [count, place, Nat.mul_comm] at past
    have less := Nat.lt_of_mul_lt_mul_left past
    rw [split, List.length_append, List.length_singleton, count, Nat.mul_comm]
    exact Nat.mul_le_mul_left _ less

/-- The releases of one instant keep the schedule consistent. -/
theorem Consistent.releaseJobs (wf : header.WellFormed) (consistent : header.Consistent schedule.now schedule) :
    header.Consistent (schedule.now + 1) (header.releaseJobs schedule) := by
  refine ⟨consistent.complete, fun i inside => ?_, fun i inside instant known => ?_, fun i inside => ?_,
    fun i inside first => ?_⟩
  · rw [releaseJobs_releases, releaseJobs_work]
    refine Nat.le_trans (consistent.bounded i inside) (Nat.mul_le_mul_left _ ?_)
    split <;> simp
  · rw [releaseJobs_releases] at known
    have old := consistent.past i inside
    split at known
    · rcases List.mem_append.mp known with early | here
      · exact Nat.lt_succ_of_lt (old instant early)
      · exact Nat.lt_succ_of_le (Nat.le_of_eq (List.mem_singleton.mp here))
    · exact Nat.lt_succ_of_lt (old instant known)
  · rw [releaseJobs_releases]
    split
    next due =>
      refine (consistent.apart i inside).concat fun last ends => ?_
      simp only [releaseNow] at due
      split at due
      next first =>
        have instant := consistent.due_first inside first (of_decide_eq_true due)
        obtain ⟨front, split⟩ := List.getLast?_eq_some_iff.mp ends
        have place := (consistent.periodic i inside first).2 front.length last (by simp [split])
        rw [instant, split, place, List.length_append, List.length_singleton, Nat.succ_mul]
      next => exact (of_decide_eq_true due).2 last ends
    next => exact consistent.apart i inside
  · obtain ⟨covered, entries⟩ := consistent.periodic i inside first
    have period := wf.period_pos inside
    rw [releaseJobs_releases, releaseNow, if_pos first]
    split
    next due =>
      have instant := consistent.due_first inside first (of_decide_eq_true due)
      refine ⟨?_, fun n value found => ?_⟩
      · rw [List.length_append, List.length_singleton, Nat.succ_mul, ← instant]
        omega
      · rcases getElem?_concat_cases found with old | ⟨rfl, rfl⟩
        · exact entries n value old
        · exact instant
    next other =>
      refine ⟨?_, entries⟩
      have different : schedule.now ≠ (schedule.releases i).length * (header.parent i).period := fun same =>
        other (decide_eq_true (same ▸ Nat.dvd_mul_left _ _))
      omega

/-- A subtask is ready while its released work is not done. -/
theorem Consistent.ready_iff (wf : header.WellFormed) (consistent : header.Consistent limit schedule) {i : Nat}
    (inside : i < header.subtaskTot) : header.ready schedule i = true ↔
      schedule.work i < (header.subtask i).exeTime * (schedule.releases i).length := by
  simp only [ready, inside, consistent.complete i inside, true_and, decide_eq_true_eq]
  rw [Nat.div_lt_iff_lt_mul (wf.exeTime_pos inside), Nat.mul_comm]

/-- A chosen subtask is ready on its own core and no ready subtask there has a higher priority. -/
theorem Admissible.chosen (admissible : header.Admissible schedule choice) {i : Nat}
    (taken : header.chosen choice i = true) : header.ready schedule i = true ∧
      ∀ j < header.subtaskTot, header.ready schedule j = true →
        (header.subtask j).core = (header.subtask i).core →
          (header.subtask j).priority ≤ (header.subtask i).priority := by
  obtain ⟨known, picked⟩ := of_decide_eq_true taken
  obtain ⟨ready, _, highest⟩ := admissible.highest _ known i picked
  exact ⟨ready, highest⟩

/-- One millisecond of execution keeps the schedule consistent. -/
theorem Consistent.executeJobs (wf : header.WellFormed) (consistent : header.Consistent limit schedule)
    (admissible : header.Admissible schedule choice) :
    header.Consistent limit (header.executeJobs schedule choice) := by
  refine ⟨fun i inside => ?_, fun i inside => ?_, consistent.past, consistent.apart, consistent.periodic⟩
  · have before := consistent.complete i inside
    simp only [Header.executeJobs]
    by_cases taken : header.chosen choice i = true
    · by_cases whole : (header.subtask i).exeTime ∣ schedule.work i + 1
      · rw [if_pos ⟨taken, whole⟩, if_pos taken, List.length_append, List.length_singleton, before,
          Nat.succ_div_of_dvd whole]
      · rw [if_neg fun both => whole both.2, if_pos taken, before, Nat.succ_div_of_not_dvd whole]
    · rw [if_neg fun both => taken both.1, if_neg taken, before]
  · simp only [Header.executeJobs]
    split
    next taken => exact (consistent.ready_iff wf inside).mp (admissible.chosen taken).1
    next => exact consistent.bounded i inside

variable {window : Nat → Nat}

/-- The windows of the earlier subtasks of a chain delay a subtask by their sum at most. -/
def chainStart (header : Header) (window : Nat → Nat) (i : Nat) : Nat :=
  ∑ j ∈ Finset.Ico (header.firstIdx i) i, window j

/-- The windows of a chain up to a subtask. -/
def responseTime (header : Header) (window : Nat → Nat) (i : Nat) : Nat := header.chainStart window i + window i

/-- Each window covers the demand that can arrive in it on the core of its subtask. -/
structure ResponseWindows (header : Header) (window : Nat → Nat) : Prop where
  positive : ∀ i < header.subtaskTot, 0 < window i
  covered : ∀ i < header.subtaskTot, (header.level i).demand (window i) ≤ window i

theorem mem_level {i j : Nat} : j ∈ (header.level i).members ↔ j < header.subtaskTot ∧
    (header.subtask j).core = (header.subtask i).core ∧ (header.subtask i).priority ≤ (header.subtask j).priority := by
  simp [level]

/-- The predecessor stands right in front of a later subtask of the same task. -/
theorem WellFormed.predecessor (wf : header.WellFormed) {i : Nat} (inside : i < header.subtaskTot)
    (later : (header.subtask i).subtaskId ≠ 0) : header.predecessorIdx i + 1 = i ∧
      header.parent (header.predecessorIdx i) = header.parent i ∧
      header.chainStart window i =
        header.chainStart window (header.predecessorIdx i) + window (header.predecessorIdx i) := by
  obtain ⟨known, below, place⟩ := wf.position inside
  have next : header.predecessorIdx i + 1 = i := by
    unfold predecessorIdx
    omega
  have same : (header.subtask (header.predecessorIdx i)).taskId = (header.subtask i).taskId := by
    have ids := wf.ids _ known ((header.subtask i).subtaskId - 1) (Nat.lt_of_le_of_lt (Nat.sub_le _ _) below)
    have index : header.predecessorIdx i =
        (header.task (header.subtask i).taskId).subtaskStartIdx + ((header.subtask i).subtaskId - 1) := by
      unfold predecessorIdx firstIdx parent
      omega
    rw [index]
    exact ids.1
  have parents : header.parent (header.predecessorIdx i) = header.parent i := by rw [parent, same, parent]
  refine ⟨next, parents, ?_⟩
  have start : header.firstIdx (header.predecessorIdx i) = header.firstIdx i := by rw [firstIdx, parents, firstIdx]
  have order : header.firstIdx i ≤ header.predecessorIdx i := by omega
  have sum := Finset.sum_Ico_succ_top order window
  rw [next] at sum
  rw [chainStart, chainStart, start, sum]

/-- Releases are prompt, and jobs are released and finished within the windows of their chain. -/
structure Timely (header : Header) (window : Nat → Nat) (limit : Nat) (schedule : Schedule) : Prop where
  prompt : ∀ i < header.subtaskTot, (header.subtask i).subtaskId ≠ 0 → ∀ finish,
    (schedule.finishes (header.predecessorIdx i))[(schedule.releases i).length]? = some finish →
      limit ≤ finish ∨ ∃ last ∈ (schedule.releases i).getLast?, limit ≤ last + (header.parent i).period
  released : ∀ i < header.subtaskTot, ∀ n instant, (schedule.releases i)[n]? = some instant →
    instant ≤ n * (header.parent i).period + header.chainStart window i
  finished : ∀ i < header.subtaskTot, ∀ n instant, (schedule.finishes i)[n]? = some instant →
    instant ≤ n * (header.parent i).period + header.chainStart window i + window i
  within : ∀ i < header.subtaskTot, (header.level i).Within (window i) schedule.releases schedule.work schedule.now

/-- While the next job of a chain waits for its release, the instant is bounded. -/
theorem Timely.waiting_bound (wf : header.WellFormed) (timely : header.Timely window limit schedule) {i : Nat}
    (inside : i < header.subtaskTot) (later : (header.subtask i).subtaskId ≠ 0)
    (completed : (schedule.releases i).length < (schedule.finishes (header.predecessorIdx i)).length) :
    limit ≤ (schedule.releases i).length * (header.parent i).period + header.chainStart window i := by
  obtain ⟨next, parents, chain⟩ := @WellFormed.predecessor _ window wf _ inside later
  have finish := List.getElem?_eq_getElem completed
  rw [chain]
  rcases timely.prompt i inside later _ finish with soon | ⟨last, ends, soon⟩
  · have bound := timely.finished _ (by omega) _ _ finish
    rw [parents] at bound
    omega
  · obtain ⟨front, split⟩ := List.getLast?_eq_some_iff.mp ends
    have bound := timely.released i inside front.length last (by simp [split])
    rw [split, List.length_append, List.length_singleton, Nat.succ_mul]
    omega

/-- A release happens as soon as the chain allows it. -/
theorem Timely.release_bound (wf : header.WellFormed) (timely : header.Timely window schedule.now schedule)
    (consistent : header.Consistent schedule.now schedule) {i : Nat} (inside : i < header.subtaskTot)
    (due : header.releaseNow schedule i = true) : schedule.now ≤
      (schedule.releases i).length * (header.parent i).period + header.chainStart window i := by
  simp only [releaseNow] at due
  split at due
  next first =>
    rw [consistent.due_first inside first (of_decide_eq_true due)]
    exact Nat.le_add_right _ _
  next later => exact timely.waiting_bound wf inside later (of_decide_eq_true due).1

/-- The releases of one instant keep the schedule timely. -/
theorem Timely.releaseJobs (wf : header.WellFormed) (timely : header.Timely window schedule.now schedule)
    (consistent : header.Consistent schedule.now schedule) :
    header.Timely window (schedule.now + 1) (header.releaseJobs schedule) := by
  refine ⟨fun i inside later finish found => ?_, fun i inside n instant found => ?_, timely.finished,
    fun i inside => ?_⟩
  · have period := wf.period_pos inside
    rw [releaseJobs_releases, releaseJobs_finishes] at found
    rw [releaseJobs_releases]
    refine .inr ?_
    split at found
    next due =>
      rw [if_pos due]
      exact ⟨schedule.now, by simp, by omega⟩
    next waiting =>
      rw [if_neg waiting]
      have completed := (List.getElem?_eq_some_iff.mp found).1
      simp only [releaseNow, if_neg later, completed, true_and, decide_eq_true_eq, not_forall] at waiting
      obtain ⟨last, ends, early⟩ := waiting
      exact ⟨last, ends, by omega⟩
  · rw [releaseJobs_releases] at found
    split at found
    next due =>
      rcases getElem?_concat_cases found with old | ⟨rfl, rfl⟩
      · exact timely.released i inside n instant old
      · exact timely.release_bound wf consistent inside due
    next => exact timely.released i inside n instant found
  · refine (timely.within i inside).arrive fun j _ start reached => ?_
    rw [releaseJobs_releases]
    split
    · exact before_concat_of_le reached
    · rfl

/-- While a level has a ready job, its core executes one of its jobs. -/
theorem Admissible.served (admissible : header.Admissible schedule choice) {i j : Nat}
    (core : (header.subtask i).core < coreNum) (known : j ∈ (header.level i).members)
    (waiting : header.ready schedule j = true) :
    ∑ k ∈ (header.level i).members, (header.executeJobs schedule choice).work k =
      ∑ k ∈ (header.level i).members, schedule.work k + 1 := by
  obtain ⟨inside, sameCore, higher⟩ := mem_level.mp known
  cases picked : choice (header.subtask i).core with
  | none => exact absurd sameCore (admissible.idle _ core picked j inside waiting)
  | some k =>
      obtain ⟨ready, own, highest⟩ := admissible.highest _ core k picked
      have member : k ∈ (header.level i).members :=
        mem_level.mpr ⟨(of_decide_eq_true ready).1, own, Nat.le_trans higher (highest j inside waiting sameCore)⟩
      have each : ∀ m ∈ (header.level i).members,
          (header.executeJobs schedule choice).work m = schedule.work m + if m = k then 1 else 0 := by
        intro m listed
        have place := (mem_level.mp listed).2.1
        have taken : header.chosen choice m = true ↔ m = k := by
          simp [Header.chosen, place, core, picked, eq_comm]
        simp only [Header.executeJobs, taken]
        split <;> rfl
      rw [Finset.sum_congr rfl each, Finset.sum_add_distrib, Finset.sum_ite_eq', if_pos member]

/-- A level with no ready job has no work left. -/
theorem Consistent.settled (wf : header.WellFormed) (consistent : header.Consistent limit schedule) {i : Nat}
    (quiet : ∀ j ∈ (header.level i).members, ¬ header.ready schedule j = true) :
    (header.level i).Settled schedule.releases schedule.work := by
  intro j known
  have inside := (mem_level.mp known).1
  have none := quiet j known
  rw [consistent.ready_iff wf inside] at none
  exact Nat.le_antisymm (consistent.bounded j inside) (Nat.le_of_not_lt none)

/-- One millisecond of execution keeps each busy window short. -/
theorem Timely.within_executeJobs (wf : header.WellFormed) (windows : header.ResponseWindows window)
    (cores : ∀ i < header.subtaskTot, (header.subtask i).core < coreNum)
    (timely : header.Timely window (schedule.now + 1) schedule)
    (consistent : header.Consistent (schedule.now + 1) schedule) (admissible : header.Admissible schedule choice)
    {i : Nat} (inside : i < header.subtaskTot) : (header.level i).Within (window i) schedule.releases
      (header.executeJobs schedule choice).work (schedule.now + 1) := by
  have after := consistent.executeJobs wf admissible
  have member {j : Nat} (known : j ∈ (header.level i).members) : j < header.subtaskTot := (mem_level.mp known).1
  by_cases waiting : ∃ j ∈ (header.level i).members, header.ready schedule j = true
  · obtain ⟨j, known, ready⟩ := waiting
    refine (timely.within i inside).advance (windows.covered i inside) (fun k listed => wf.period_pos (member listed))
      (fun k _ => ?_) (admissible.served (cores i inside) known ready)
      (fun k listed => consistent.apart k (member listed)) (fun k listed => consistent.past k (member listed))
      fun k listed => after.bounded k (member listed)
    simp only [Header.executeJobs]
    split <;> omega
  · have quiet : ∀ j ∈ (header.level i).members, ¬ header.ready schedule j = true := by simpa using waiting
    have same : ∀ j ∈ (header.level i).members, (header.executeJobs schedule choice).work j = schedule.work j := by
      intro j known
      simp only [Header.executeJobs]
      rw [if_neg fun taken => quiet j known (admissible.chosen taken).1]
    refine Level.Settled.within (fun j known => ?_) (windows.positive i inside)
      fun j listed => consistent.past j (member listed)
    rw [same j known]
    exact consistent.settled wf quiet j known

/-- One millisecond of execution keeps the schedule timely. -/
theorem Timely.executeJobs (wf : header.WellFormed) (windows : header.ResponseWindows window)
    (cores : ∀ i < header.subtaskTot, (header.subtask i).core < coreNum)
    (timely : header.Timely window (schedule.now + 1) schedule)
    (consistent : header.Consistent (schedule.now + 1) schedule) (admissible : header.Admissible schedule choice) :
    header.Timely window (schedule.now + 1) (header.executeJobs schedule choice) := by
  refine ⟨fun i inside later finish found => ?_, timely.released, fun i inside n instant found => ?_,
    fun i inside => timely.within_executeJobs wf windows cores consistent admissible inside⟩
  · simp only [Header.executeJobs] at found
    split at found
    next =>
      rcases getElem?_concat_cases found with old | ⟨_, rfl⟩
      · exact timely.prompt i inside later finish old
      · exact .inl (Nat.le_refl _)
    next => exact timely.prompt i inside later finish found
  · simp only [Header.executeJobs] at found
    split at found
    next both =>
      rcases getElem?_concat_cases found with old | ⟨rfl, rfl⟩
      · exact timely.finished i inside n instant old
      · have ready := (of_decide_eq_true (admissible.chosen both.1).1).2
        have release := List.getElem?_eq_getElem ready
        have bound := timely.released i inside _ _ release
        have unfinished : schedule.work i < (header.subtask i).exeTime * ((schedule.finishes i).length + 1) := by
          rw [consistent.complete i inside]
          exact Nat.lt_mul_div_succ _ (wf.exeTime_pos inside)
        have response := (timely.within i inside).response (mem_level.mpr ⟨inside, rfl, Nat.le_refl _⟩)
          (consistent.apart i inside) release unfinished
        omega
    next => exact timely.finished i inside n instant found

/-- A step releases the due jobs and executes an admissible choice. -/
theorem idealSchedule_step {next : Schedule} (taken : header.idealSchedule.step schedule choice = some next) :
    header.Admissible (header.releaseJobs schedule) choice ∧
      next = header.executeJobs (header.releaseJobs schedule) choice := by
  obtain ⟨admissible, result⟩ := Option.ite_none_right_eq_some.mp taken
  exact ⟨admissible, (Option.some.inj result).symm⟩

/-- An ideal schedule never gets stuck. -/
theorem idealSchedule_progress (header : Header) (schedule : Schedule) :
    ∃ choice next, header.idealSchedule.step schedule choice = some next := by
  -- Each core picks a ready subtask whose priority is a maximum over the ready subtasks of the core.
  have pick (core : Nat) : ∃ picked : Option Nat,
      (∀ i ∈ picked, header.ready (header.releaseJobs schedule) i = true ∧ (header.subtask i).core = core ∧
        ∀ j < header.subtaskTot, header.ready (header.releaseJobs schedule) j = true →
          (header.subtask j).core = core → (header.subtask j).priority ≤ (header.subtask i).priority) ∧
      (picked = none → ∀ j < header.subtaskTot, header.ready (header.releaseJobs schedule) j = true →
        (header.subtask j).core ≠ core) := by
    let waiting := (Finset.range header.subtaskTot).filter fun j =>
      header.ready (header.releaseJobs schedule) j = true ∧ (header.subtask j).core = core
    by_cases some : waiting.Nonempty
    · obtain ⟨i, listed, most⟩ := waiting.exists_max_image (fun j => (header.subtask j).priority) some
      obtain ⟨_, ready, own⟩ := Finset.mem_filter.mp listed
      refine ⟨i, fun k same => ?_, by simp⟩
      obtain rfl := Option.some.inj same
      exact ⟨ready, own, fun j inside other place =>
        most j (Finset.mem_filter.mpr ⟨Finset.mem_range.mpr inside, other, place⟩)⟩
    · refine ⟨none, by simp, fun _ j inside other place => some ⟨j, ?_⟩⟩
      exact Finset.mem_filter.mpr ⟨Finset.mem_range.mpr inside, other, place⟩
  choose choice best idle using pick
  have admissible : header.Admissible (header.releaseJobs schedule) choice :=
    ⟨fun core _ => best core, fun core _ => idle core⟩
  exact ⟨choice, _, if_pos admissible⟩

/-- Both invariants hold in each schedule. -/
theorem timely_reached (wf : header.WellFormed) (windows : header.ResponseWindows window)
    (cores : ∀ i < header.subtaskTot, (header.subtask i).core < coreNum)
    (reached : header.idealSchedule.Reachable schedule) :
    header.Consistent schedule.now schedule ∧ header.Timely window schedule.now schedule := by
  refine Transition.Machine.Reaches.invariant
    (fun current => header.Consistent current.now current ∧ header.Timely window current.now current)
    (fun current initial => ?_) (fun current choice next _ holds _ taken => ?_) reached
  · change current = {} at initial
    subst initial
    refine ⟨⟨by simp, by simp, by simp, fun _ _ => List.Pairwise.nil, by simp⟩, ⟨by simp, by simp, by simp, ?_⟩⟩
    intro i inside
    exact Level.Settled.within (fun j _ => by simp) (windows.positive i inside) fun j _ => by simp
  · obtain ⟨consistent, timely⟩ := holds
    have released := consistent.releaseJobs wf
    have prompt := timely.releaseJobs wf consistent
    obtain ⟨admissible, rfl⟩ := idealSchedule_step taken
    exact ⟨released.executeJobs wf admissible, prompt.executeJobs wf windows cores released admissible⟩

/-- A job whose windows have passed is complete. -/
theorem Timely.completed (wf : header.WellFormed) (windows : header.ResponseWindows window)
    (consistent : header.Consistent schedule.now schedule) (timely : header.Timely window schedule.now schedule)
    {i : Nat} (inside : i < header.subtaskTot) {n : Nat} (passed : n * (header.parent i).period +
      header.chainStart window i + window i ≤ schedule.now) : n < (schedule.finishes i).length := by
  induction i using Nat.strong_induction_on with
  | _ i ih =>
      have positive := windows.positive i inside
      have released : n < (schedule.releases i).length := by
        by_cases first : (header.subtask i).subtaskId = 0
        · have covered := (consistent.periodic i inside first).1
          exact Nat.lt_of_mul_lt_mul_right (a := (header.parent i).period) (by omega)
        · obtain ⟨next, parents, chain⟩ := @WellFormed.predecessor _ window wf _ inside first
          have completed := ih (header.predecessorIdx i) (by omega) (by omega) (by rw [parents]; omega)
          by_contra waiting
          have bound := timely.waiting_bound wf inside first (by omega)
          have fewer := Nat.mul_le_mul_right (header.parent i).period (Nat.le_of_not_lt waiting)
          omega
      by_contra unfinished
      have least : schedule.work i < (header.subtask i).exeTime * (n + 1) := by
        have count := consistent.complete i inside
        rw [Nat.mul_comm, ← Nat.div_lt_iff_lt_mul (wf.exeTime_pos inside)]
        omega
      have release := List.getElem?_eq_getElem released
      have bound := timely.released i inside _ _ release
      have response := (timely.within i inside).response (mem_level.mpr ⟨inside, rfl, Nat.le_refl _⟩)
        (consistent.apart i inside) release least
      omega

/-- In each schedule each job finishes within the windows of its chain. -/
theorem finishesWithin_reached (wf : header.WellFormed) (windows : header.ResponseWindows window)
    (cores : ∀ i < header.subtaskTot, (header.subtask i).core < coreNum)
    (reached : header.idealSchedule.Reachable schedule) :
    header.FinishesWithin (header.responseTime window) schedule := by
  obtain ⟨consistent, timely⟩ := timely_reached wf windows cores reached
  intro i inside n release found
  obtain ⟨known, sameTask, first⟩ := wf.first (wf.position inside).1
  have chain : release = n * (header.parent i).period := by
    have place := (consistent.periodic _ known first).2 n release found
    rw [parent, sameTask] at place
    exact place
  refine ⟨fun finish ended => ?_, fun passed => ?_⟩
  · have bound := timely.finished i inside n finish ended
    rw [responseTime]
    omega
  · rw [responseTime] at passed
    exact timely.completed wf windows consistent inside (by omega)

/-- A larger bound is met as well. -/
theorem FinishesWithin.mono {bound larger : Nat → Nat} (meets : header.FinishesWithin bound schedule)
    (grows : ∀ i < header.subtaskTot, bound i ≤ larger i) : header.FinishesWithin larger schedule := by
  intro i inside n release found
  obtain ⟨soon, done⟩ := meets i inside n release found
  have more := grows i inside
  refine ⟨fun finish ended => ?_, fun passed => done (by omega)⟩
  have early := soon finish ended
  omega

/-- The utilisation of a core is a sum over the subtasks on it. -/
theorem utilisation_sum (header : Header) (core : Nat) : header.utilisation core =
    ∑ i ∈ (Finset.range header.subtaskTot).filter fun i => (header.subtask i).core = core,
      ((header.subtask i).exeTime : Rat) / (header.parent i).period := by
  have distinct : ((List.range header.subtaskTot).filter fun i => (header.subtask i).core = core).Nodup :=
    List.nodup_range.filter _
  rw [utilisation, ← List.sum_toFinset _ distinct]
  refine Finset.sum_congr ?_ fun _ _ => rfl
  ext i
  simp

/-- On a core that is not overloaded, a common multiple of the periods of a level covers its demand. -/
theorem demand_le_multiple (wf : header.WellFormed) {i multiple : Nat}
    (share : header.utilisation (header.subtask i).core ≤ 1)
    (divides : ∀ j ∈ (header.level i).members, (header.parent j).period ∣ multiple) :
    (header.level i).demand multiple ≤ multiple := by
  have positive (j : Nat) (known : j ∈ (header.level i).members) : 0 < (header.parent j).period :=
    wf.period_pos (mem_level.mp known).1
  have each (j : Nat) (known : j ∈ (header.level i).members) :
      (((header.subtask j).exeTime * (multiple ⌈/⌉ (header.parent j).period) : Nat) : Rat) ≤
        (header.subtask j).exeTime / (header.parent j).period * multiple := by
    obtain ⟨count, whole⟩ := divides j known
    have jobs : multiple ⌈/⌉ (header.parent j).period ≤ count :=
      (ceilDiv_le_iff_le_mul (positive j known)).mpr (Nat.le_of_eq whole)
    have nonzero : ((header.parent j).period : Rat) ≠ 0 := by exact_mod_cast Nat.ne_of_gt (positive j known)
    calc (((header.subtask j).exeTime * (multiple ⌈/⌉ (header.parent j).period) : Nat) : Rat)
        ≤ ((header.subtask j).exeTime * count : Nat) := by exact_mod_cast Nat.mul_le_mul_left _ jobs
      _ = (header.subtask j).exeTime / (header.parent j).period * multiple := by
          rw [whole]
          push_cast
          field_simp
  have members : (header.level i).members ⊆
      (Finset.range header.subtaskTot).filter fun j => (header.subtask j).core = (header.subtask i).core := by
    intro j known
    obtain ⟨inside, same, _⟩ := mem_level.mp known
    exact Finset.mem_filter.mpr ⟨Finset.mem_range.mpr inside, same⟩
  have total : ((header.level i).demand multiple : Rat) ≤ multiple := by
    calc ((header.level i).demand multiple : Rat)
        ≤ ∑ j ∈ (header.level i).members, ((header.subtask j).exeTime : Rat) / (header.parent j).period * multiple := by
          rw [Level.demand, Nat.cast_sum]
          exact Finset.sum_le_sum each
      _ = (∑ j ∈ (header.level i).members, ((header.subtask j).exeTime : Rat) / (header.parent j).period) * multiple :=
          (Finset.sum_mul _ _ _).symm
      _ ≤ header.utilisation (header.subtask i).core * multiple := by
          rw [utilisation_sum]
          refine mul_le_mul_of_nonneg_right ?_ (Nat.cast_nonneg _)
          exact Finset.sum_le_sum_of_subset_of_nonneg members fun j _ _ =>
            div_nonneg (Nat.cast_nonneg _) (Nat.cast_nonneg _)
      _ ≤ 1 * multiple := by gcongr
      _ = multiple := one_mul _
  exact_mod_cast total

/-- Each subtask of a planned header has one of the cores. -/
theorem plan_cores (sort : KernelSort) (header : Header) :
    ∀ i < (header.plan sort).header.subtaskTot, ((header.plan sort).header.subtask i).core < coreNum := by
  intro i inside
  rw [plan_subtaskTot] at inside
  rw [(plan_subtask sort inside).2.2.2]
  exact placement_core_lt sort inside

/-- The deadline test of `run` uses this relative deadline on the clock. -/
theorem relativeDdl_eq (i : Nat) : header.relativeDdl i = msToKtime (header.relDdl i) := rfl

end Header

/-- Windows that cover the demand on the computed cores and fit the deadlines along each chain rule out a
missed deadline. On an accepted table the common multiples of the periods of a level are such windows,
so each response time is bounded. -/
theorem deadlines_met (sort : KernelSort) (table : Table) :
    (∀ window, (table.plan sort).header.ResponseWindows window →
      (∀ i < table.subtaskTot, (table.plan sort).header.responseTime window i ≤ (table.plan sort).header.relDdl i) →
      ∀ schedule, (table.plan sort).header.idealSchedule.Reachable schedule →
        (table.plan sort).header.FinishesWithin (table.plan sort).header.relDdl schedule) ∧
    (table.PlacementExact sort → table.Untruncated → (table.plan sort).invalid = false →
      ∀ window : Nat → Nat, (∀ i < table.subtaskTot, 0 < window i ∧
        ∀ j ∈ ((table.plan sort).header.level i).members, ((table.plan sort).header.parent j).period ∣ window i) →
      ∀ schedule, (table.plan sort).header.idealSchedule.Reachable schedule →
        (table.plan sort).header.FinishesWithin ((table.plan sort).header.responseTime window) schedule) := by
  have wf := Header.plan_wellFormed sort table.wellFormed
  have cores := Header.plan_cores sort table.toHeader
  refine ⟨fun window windows fit schedule reached => ?_,
    fun exact whole accepted window multiples schedule reached => ?_⟩
  · refine (Header.finishesWithin_reached wf windows cores reached).mono fun i inside => fit i ?_
    rwa [Header.plan_subtaskTot] at inside
  · refine Header.finishesWithin_reached wf ⟨fun i inside => ?_, fun i inside => ?_⟩ cores reached
    · exact (multiples i (by rwa [Header.plan_subtaskTot] at inside)).1
    · refine Header.demand_le_multiple wf ?_ (multiples i (by rwa [Header.plan_subtaskTot] at inside)).2
      exact utilisation_le_one sort table.wellFormed exact accepted whole (cores i inside)

/-- A chain of two subtasks in period four and one subtask in period eight, which fill one core. -/
def chainTable : Table where
  tasks := [⟨4, 2, 0, 0⟩, ⟨8, 1, 2, 0⟩]
  subtasks := [{ taskId := 0, subtaskId := 0, exeTime := 1 }, { taskId := 0, subtaskId := 1, exeTime := 1 },
    { taskId := 1, subtaskId := 0, exeTime := 4 }]
  wellFormed := by constructor <;> decide

/-- The chain and the longer subtask meet their deadlines in each schedule. -/
theorem deadlines_met_chain : (chainTable.plan insertionSort).invalid = false ∧
    (∀ schedule, (chainTable.plan insertionSort).header.idealSchedule.Reachable schedule →
      (chainTable.plan insertionSort).header.FinishesWithin (chainTable.plan insertionSort).header.relDdl schedule) ∧
    ∀ schedule, (chainTable.plan insertionSort).header.idealSchedule.Reachable schedule →
      (chainTable.plan insertionSort).header.FinishesWithin
        ((chainTable.plan insertionSort).header.responseTime fun _ => 8) schedule := by
  have accepted : (chainTable.plan insertionSort).invalid = false := by decide +kernel
  have exact : chainTable.PlacementExact insertionSort := by decide +kernel
  have whole : chainTable.Untruncated := by decide +kernel
  have windows : (chainTable.plan insertionSort).header.ResponseWindows fun i => [1, 2, 8].getD i 0 :=
    ⟨by decide +kernel, by decide +kernel⟩
  exact ⟨accepted, (deadlines_met insertionSort chainTable).1 _ windows (by decide +kernel),
    (deadlines_met insertionSort chainTable).2 exact whole accepted _ (by decide +kernel)⟩

/-- Two tasks that fill one core with periods that do not divide each other. -/
def skewedTable : Table where
  tasks := [⟨4, 1, 0, 0⟩, ⟨6, 1, 1, 0⟩]
  subtasks := [{ taskId := 0, subtaskId := 0, exeTime := 2 }, { taskId := 1, subtaskId := 0, exeTime := 3 }]
  wellFormed := by constructor <;> decide

/-- The table is accepted without truncation, and yet the second subtask finishes a millisecond too late. -/
theorem accepted_deadline_missed : skewedTable.PlacementExact insertionSort ∧ skewedTable.Untruncated ∧
    (skewedTable.plan insertionSort).invalid = false ∧
    ∃ schedule, (skewedTable.plan insertionSort).header.idealSchedule.Reachable schedule ∧
      ¬ (skewedTable.plan insertionSort).header.FinishesWithin
        (skewedTable.plan insertionSort).header.relDdl schedule := by
  refine ⟨by decide +kernel, by decide +kernel, by decide +kernel, ?_⟩
  have initial : (skewedTable.plan insertionSort).header.idealSchedule.start ({} : Schedule) := rfl
  have choices : ∃ schedule : Schedule, (skewedTable.plan insertionSort).header.idealSchedule.Reachable schedule ∧
      ((schedule.releases 1)[0]?, (schedule.finishes 1)[0]?) = (some 0, some 7) := by
    refine Transition.Machine.execute_shows initial
      ([0, 0, 1, 1, 0, 0, 1].map fun i core => if core = 0 then some i else none)
      (fun schedule : Schedule => ((schedule.releases 1)[0]?, (schedule.finishes 1)[0]?)) ?_
    decide +kernel
  obtain ⟨schedule, reached, shown⟩ := choices
  obtain ⟨release, finish⟩ := Prod.mk.inj shown
  refine ⟨schedule, reached, fun meets => ?_⟩
  have first : (skewedTable.plan insertionSort).header.firstIdx 1 = 1 := by decide +kernel
  have soon := (meets 1 (by decide +kernel) 0 0 (first ▸ release)).1 7 finish
  have late : ¬ 7 ≤ 0 + (skewedTable.plan insertionSort).header.relDdl 1 := by decide +kernel
  exact late soon

end KernelStudio.EndToEnd
