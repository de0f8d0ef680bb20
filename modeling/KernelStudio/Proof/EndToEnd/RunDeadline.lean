/-
This file proves when the relative deadlines that `run` checks agree with the order that `E2E_init` has planned.
-/

import KernelStudio.Construction.EndToEnd.IdealSchedule
import KernelStudio.Proof.EndToEnd.DeadlineOrder

namespace KernelStudio.EndToEnd

/-- The deadlines of `run` grow along each task up to its period, and they follow `comp_rel_ddl` on each core. -/
structure Header.DeadlinesAgree (header : Header) : Prop where
  tasks : ∀ l < header.subtaskTot, ∀ r < header.subtaskTot, (header.subtask l).taskId = (header.subtask r).taskId →
    (header.subtask l).subtaskId ≤ (header.subtask r).subtaskId → header.relDdl l ≤ header.relDdl r
  last : ∀ i < header.subtaskTot, (header.subtask i).subtaskId + 1 = (header.parent i).subtaskCount →
    header.relDdl i = (header.parent i).period
  order : ∀ l < header.subtaskTot, ∀ r < header.subtaskTot, (header.subtask l).core = (header.subtask r).core →
    header.compRelDdl l r < 0 → header.relDdl l ≤ header.relDdl r

/-- A smaller fraction has a smaller quotient. -/
theorem div_le_div_of_cross {a b s t : Nat} (left : 0 < t) (right : 0 < s) (cross : a * s ≤ b * t) :
    a / t ≤ b / s := by
  rw [Nat.le_div_iff_mul_le right]
  refine Nat.le_of_mul_le_mul_right ?_ left
  calc a / t * s * t = a / t * t * s := Nat.mul_right_comm _ _ _
    _ ≤ a * s := Nat.mul_le_mul_right s (Nat.div_mul_le_self a t)
    _ ≤ b * t := cross

/-- A quotient of the low word is exact only without wrap. -/
theorem lt_of_u32_div {value divisor : Nat} (positive : 0 < divisor)
    (exact : u32 (value * divisor) / divisor = value) : value * divisor < 2 ^ 32 := by
  have bound : value * divisor ≤ u32 (value * divisor) := (Nat.le_div_iff_mul_le positive).mp exact.ge
  exact bound.trans_lt (Nat.mod_lt _ (by decide))

namespace Header

variable {header : Header} {sort : KernelSort} {i k l r : Nat}

theorem PlannedTimes.relDdl (planned : header.PlannedTimes sort) (wf : header.WellFormed)
    (inside : i < header.subtaskTot) : (header.plan sort).header.relDdl i =
      u32 ((header.parent i).period * header.elapsedTime i) / header.totalTime (header.subtask i).taskId := by
  rw [Header.relDdl, planned.subtasks i inside, planned.tasks i inside, plan_period wf inside]

/-- The last subtask of a task ends with the whole time of the task. -/
theorem elapsedTime_last (last : (header.subtask i).subtaskId + 1 = (header.parent i).subtaskCount) :
    header.elapsedTime i = header.totalTime (header.subtask i).taskId := by
  rw [elapsedTime, last]
  rfl

/-- Each task has a last subtask. -/
theorem WellFormed.exists_last (wf : header.WellFormed) (inside : k < header.taskTot) :
    ∃ i < header.subtaskTot, (header.subtask i).taskId = k ∧
      (header.subtask i).subtaskId + 1 = (header.parent i).subtaskCount := by
  have blockEnd := wf.block_end inside
  have count := wf.counts _ (task_mem inside)
  obtain ⟨task, id⟩ := wf.ids k inside ((header.task k).subtaskCount - 1) (by omega)
  refine ⟨(header.task k).subtaskStartIdx + ((header.task k).subtaskCount - 1), by omega, task, ?_⟩
  rw [parent, task, id]
  omega

/-- Without wrap, the deadline of `run` is the quotient of the exact times. -/
theorem relDdl_exact (planned : header.PlannedTimes sort) (wf : header.WellFormed)
    (exact : ∀ k < header.taskTot, (header.task k).period * header.totalTime k < 2 ^ 32)
    (inside : i < header.subtaskTot) : (header.plan sort).header.relDdl i =
      (header.parent i).period * header.elapsedTime i / header.totalTime (header.subtask i).taskId := by
  have product := (Nat.mul_le_mul_left (header.parent i).period (wf.elapsedTime_le inside)).trans_lt
    (exact _ (wf.position inside).1)
  rw [planned.relDdl wf inside, u32_of_lt product]

/-- Without wrap, the deadlines of `run` agree with the plan. -/
theorem deadlinesAgree_of_exact (below : header.ProductsBelow) (wf : header.WellFormed)
    (sized : header.subtaskTot < 2 ^ 32)
    (exact : ∀ k < header.taskTot, (header.task k).period * header.totalTime k < 2 ^ 32) :
    (header.plan sort).header.DeadlinesAgree := by
  have planned := below.plannedTimes wf sized sort
  have total := plan_subtaskTot sort header
  refine ⟨fun l left r right task before => ?_, fun i inside last => ?_, fun l left r right core less => ?_⟩
  · rw [total] at left right
    rw [(plan_subtask sort left).1, (plan_subtask sort right).1] at task
    rw [(plan_subtask sort left).2.1, (plan_subtask sort right).2.1] at before
    rw [relDdl_exact planned wf exact left, relDdl_exact planned wf exact right, parent, parent, task]
    refine Nat.div_le_div_right (Nat.mul_le_mul_left _ ?_)
    rw [elapsedTime, elapsedTime, task]
    exact header.prefixTime_mono _ (Nat.succ_le_succ before)
  · rw [total] at inside
    rw [(plan_subtask sort inside).2.1, plan_parent sort inside (wf.position inside).1] at last
    rw [relDdl_exact planned wf exact inside, elapsedTime_last last, plan_period wf inside]
    exact Nat.mul_div_cancel _ (wf.totalTime_pos inside)
  · rw [total] at left right
    have key := (below.signs wf sized left right).less.mp less
    rw [relDdlKey_lt_iff, core] at key
    have deadline := (key.resolve_left (Nat.lt_irrefl _)).2
    rw [exactRelDdl_lt_iff (planned.tasks l left ▸ wf.totalTime_pos left)
      (planned.tasks r right ▸ wf.totalTime_pos right), relDdlProduct, relDdlProduct, planned.subtasks l left,
      planned.subtasks r right, planned.tasks l left, planned.tasks r right, plan_period wf left,
      plan_period wf right] at deadline
    rw [relDdl_exact planned wf exact left, relDdl_exact planned wf exact right]
    exact div_le_div_of_cross (wf.totalTime_pos left) (wf.totalTime_pos right) deadline.le

end Header

/-- The deadlines of `run` agree with the planned order exactly when no period times the time of its task wraps. -/
theorem run_deadlines_agree_iff (sort : KernelSort) (table : SizedTable) (below : table.ProductsBelow) :
    (table.plan sort).header.DeadlinesAgree ↔
      ∀ k < table.taskTot, (table.task k).period * table.totalTime k < 2 ^ 32 := by
  have wf := table.wellFormed
  refine ⟨fun agree k inside => ?_, Header.deadlinesAgree_of_exact below wf table.sized⟩
  have planned := below.plannedTimes wf table.sized sort
  obtain ⟨i, within, rfl, last⟩ := wf.exists_last inside
  have period := agree.last i (within.trans_eq (Header.plan_subtaskTot sort table.toHeader).symm) (by
    rwa [(Header.plan_subtask sort within).2.1, Header.plan_parent sort within inside])
  rw [planned.relDdl wf within, Header.elapsedTime_last last, Header.plan_period wf within] at period
  exact lt_of_u32_div (wf.totalTime_pos within) period

/-- The pair of subtasks keeps its deadlines. -/
theorem run_deadlines_agree_pair : (sizedPair.plan insertionSort).header.DeadlinesAgree :=
  (run_deadlines_agree_iff insertionSort sizedPair (by decide)).mpr (by decide)

/-- One subtask of two milliseconds with a period of 2 ^ 31 milliseconds. -/
def longPeriodTable : SizedTable where
  tasks := [⟨2147483648, 1, 0, 2⟩]
  subtasks := [⟨0, 0, 2, 100, 2, 0, 50⟩]
  wellFormed := by constructor <;> decide
  sized := by decide

/-- The product of the long period wraps to zero, and so does the deadline of its only subtask. -/
theorem run_deadline_wraps : longPeriodTable.ProductsBelow ∧
    (longPeriodTable.plan insertionSort).header.relDdl 0 = 0 ∧
    ¬ (longPeriodTable.plan insertionSort).header.DeadlinesAgree := by
  have zero : (longPeriodTable.plan insertionSort).header.relDdl 0 = 0 := by decide +kernel
  refine ⟨by decide, zero, fun agree => ?_⟩
  have period := agree.last 0 (by decide +kernel) (by decide +kernel)
  rw [zero] at period
  exact absurd period (by decide +kernel)

end KernelStudio.EndToEnd
