/-
This file proves what the first loop of `E2E_init` leaves in a table: the low words of the exact prefix sums.
-/

import KernelStudio.Proof.EndToEnd.Plan

namespace KernelStudio.EndToEnd

/-- A task table whose `subtask_tot` is a word. -/
structure SizedTable extends Table where
  sized : toHeader.subtaskTot < 2 ^ 32

namespace Header

variable (header : Header)

/-- The exact time of the first subtasks of a task. -/
def prefixTime (k n : Nat) : Nat :=
  ((List.range n).map fun j => (header.subtask ((header.task k).subtaskStartIdx + j)).exeTime).sum

/-- The exact time of a task up to the end of one of its subtasks. -/
def elapsedTime (i : Nat) : Nat := header.prefixTime (header.subtask i).taskId ((header.subtask i).subtaskId + 1)

/-- The exact time of a task. -/
def totalTime (k : Nat) : Nat := header.prefixTime k (header.task k).subtaskCount

theorem prefixTime_succ (k n : Nat) : header.prefixTime k (n + 1) =
    header.prefixTime k n + (header.subtask ((header.task k).subtaskStartIdx + n)).exeTime := by
  simp [prefixTime, List.range_succ]

theorem prefixTime_mono (k : Nat) : Monotone (header.prefixTime k) :=
  monotone_nat_of_le_succ fun n => by
    rw [prefixTime_succ]
    exact Nat.le_add_right _ _

variable {header}

/-- The block of a task ends where the next one starts, or earlier. -/
theorem WellFormed.block_before (wf : header.WellFormed) {k m : Nat} (earlier : k < m) (inside : m < header.taskTot) :
    (header.task k).subtaskStartIdx + (header.task k).subtaskCount ≤ (header.task m).subtaskStartIdx := by
  have first : k < header.tasks.length := earlier.trans inside
  have entry : header.task k = header.tasks[k] := List.getD_eq_getElem _ _ first
  have split := List.sum_take_add_sum_drop ((header.tasks.take m).map Task.subtaskCount) (k + 1)
  rw [wf.starts k first, wf.starts m inside]
  rw [← List.map_take, List.take_take, Nat.min_eq_left earlier, List.take_succ_eq_append_getElem first,
    List.map_append, List.sum_append, List.map_singleton, List.sum_singleton, ← entry] at split
  omega

/-- The progress of the loop over the subtasks of one task. -/
structure Progress (header : Header) (k n : Nat) (before after : Accumulated) : Prop where
  inside : ∀ j < n, after.cumulativeExeTime ((header.task k).subtaskStartIdx + j) = u32 (header.prefixTime k (j + 1))
  outside : ∀ i, i < (header.task k).subtaskStartIdx ∨ (header.task k).subtaskStartIdx + n ≤ i →
    after.cumulativeExeTime i = before.cumulativeExeTime i
  unfinished : n < (header.task k).subtaskCount → after.exeTime = before.exeTime
  finished : n = (header.task k).subtaskCount →
    after.exeTime = Function.update before.exeTime k (u32 (header.totalTime k))

theorem u32_add_u32 (left right : Nat) : u32 (u32 left + right) = u32 (left + right) :=
  Nat.mod_add_mod left _ right

/-- The loop over the subtasks of a task adds up their times. -/
theorem progress_task (wf : header.WellFormed) (sized : header.subtaskTot < 2 ^ 32) {k : Nat}
    (inside : k < header.taskTot) (before : Accumulated) (n : Nat) (bound : n ≤ (header.task k).subtaskCount) :
    header.Progress k n before ((List.range n).foldl (header.accumulateSubtask k) before) := by
  have positive := wf.counts _ (task_mem inside)
  have word := (wf.task_words k).2.1
  have final : u32 ((header.task k).subtaskCount + (2 ^ 32 - 1)) = (header.task k).subtaskCount - 1 := by
    unfold u32
    omega
  induction n with
  | zero => exact ⟨fun _ none => absurd none (Nat.not_lt_zero _), fun _ _ => rfl, fun _ => rfl, fun none => by omega⟩
  | succ n ih =>
      have progress := ih (Nat.le_of_succ_le bound)
      have blockEnd := wf.block_end inside
      rw [List.range_succ, List.foldl_append, List.foldl_cons, List.foldl_nil]
      generalize (List.range n).foldl (header.accumulateSubtask k) before = accumulated at progress
      have index : u32 ((header.task k).subtaskStartIdx + n) = (header.task k).subtaskStartIdx + n :=
        u32_of_lt (by omega)
      have sum : u32 ((if n = 0 then 0 else accumulated.cumulativeExeTime ((header.task k).subtaskStartIdx + n - 1)) +
          (header.subtask ((header.task k).subtaskStartIdx + n)).exeTime) = u32 (header.prefixTime k (n + 1)) := by
        rw [prefixTime_succ]
        cases n with
        | zero => rfl
        | succ m =>
            rw [if_neg (Nat.succ_ne_zero m), ← Nat.add_assoc, Nat.add_sub_cancel, progress.inside m (Nat.lt_succ_self m),
              u32_add_u32]
      unfold accumulateSubtask
      simp only [index, final, sum]
      refine ⟨fun j less => ?_, fun i apart => ?_, fun more => ?_, fun all => ?_⟩
      all_goals dsimp only
      · rcases Nat.lt_succ_iff_lt_or_eq.mp less with earlier | rfl
        · rw [Function.update_of_ne (by omega)]
          exact progress.inside j earlier
        · exact Function.update_self _ _ _
      · rw [Function.update_of_ne (by omega)]
        exact progress.outside i (by omega)
      · rw [if_neg (by omega)]
        exact progress.unfinished (by omega)
      · rw [if_pos (by omega), progress.unfinished (by omega), totalTime, all]

/-- The first loop over the tasks so far. -/
structure Summed (header : Header) (count : Nat) (accumulated : Accumulated) : Prop where
  subtasks : ∀ k < count, ∀ j < (header.task k).subtaskCount,
    accumulated.cumulativeExeTime ((header.task k).subtaskStartIdx + j) = u32 (header.prefixTime k (j + 1))
  tasks : ∀ k < count, accumulated.exeTime k = u32 (header.totalTime k)

theorem summed_tasks (wf : header.WellFormed) (sized : header.subtaskTot < 2 ^ 32) (start : Accumulated)
    (count : Nat) (bound : count ≤ header.taskTot) :
    header.Summed count ((List.range count).foldl header.accumulateTask start) := by
  induction count with
  | zero => exact ⟨fun _ none => absurd none (Nat.not_lt_zero _), fun _ none => absurd none (Nat.not_lt_zero _)⟩
  | succ count ih =>
      have summed := ih (Nat.le_of_succ_le bound)
      rw [List.range_succ, List.foldl_append, List.foldl_cons, List.foldl_nil]
      generalize (List.range count).foldl header.accumulateTask start = accumulated at summed
      have progress := progress_task wf sized bound { accumulated with
        hyperPeriod := if accumulated.hyperPeriod < (header.task count).period then (header.task count).period
          else accumulated.hyperPeriod } _ le_rfl
      refine ⟨fun k less j within => ?_, fun k less => ?_⟩
      · rcases Nat.lt_succ_iff_lt_or_eq.mp less with earlier | rfl
        · have before := wf.block_before earlier bound
          exact (progress.outside _ (.inl (by omega))).trans (summed.subtasks k earlier j within)
        · exact progress.inside j within
      · rw [accumulateTask, progress.finished rfl]
        rcases Nat.lt_succ_iff_lt_or_eq.mp less with earlier | rfl
        · rw [Function.update_of_ne (Nat.ne_of_lt earlier)]
          exact summed.tasks k earlier
        · exact Function.update_self _ _ _

theorem summed_accumulate (wf : header.WellFormed) (sized : header.subtaskTot < 2 ^ 32) :
    header.Summed header.taskTot header.accumulate := summed_tasks wf sized _ _ le_rfl

/-- The first loop leaves the low words of the exact times. -/
theorem accumulate_cumulativeExeTime (wf : header.WellFormed) (sized : header.subtaskTot < 2 ^ 32) {i : Nat}
    (inside : i < header.subtaskTot) : header.accumulate.cumulativeExeTime i = u32 (header.elapsedTime i) := by
  obtain ⟨known, within, place⟩ := wf.position inside
  have sum := (summed_accumulate wf sized).subtasks _ known _ within
  rw [firstIdx, parent] at place
  rwa [← place] at sum

theorem accumulate_exeTime (wf : header.WellFormed) (sized : header.subtaskTot < 2 ^ 32) {k : Nat}
    (inside : k < header.taskTot) : header.accumulate.exeTime k = u32 (header.totalTime k) :=
  (summed_accumulate wf sized).tasks k inside

end Header

end KernelStudio.EndToEnd
