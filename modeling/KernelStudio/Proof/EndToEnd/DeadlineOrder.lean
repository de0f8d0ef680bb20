/-
This file proves that the planned order is the order of the exact relative deadlines when the cross products fit.
-/

import KernelStudio.Proof.EndToEnd.Comparators
import KernelStudio.Proof.EndToEnd.Priority
import KernelStudio.Proof.EndToEnd.Times

namespace KernelStudio.EndToEnd

open Comparator Runs

namespace Header

variable (header : Header)

/-- The exact cross products of the relative deadlines of different subtasks stay below the sign bit. -/
def ProductsBelow : Prop := ∀ l < header.subtaskTot, ∀ r < header.subtaskTot, l ≠ r →
  (header.parent l).period * header.elapsedTime l * header.totalTime (header.subtask r).taskId < 2 ^ 63

instance : Decidable header.ProductsBelow := inferInstanceAs (Decidable (∀ l < _, _))

/-- The relative deadline of a subtask from the exact times of its task. -/
def idealRelDdl (i : Nat) : Rat :=
  (header.parent i).period * header.elapsedTime i / header.totalTime (header.subtask i).taskId

variable {header} {i k l r : Nat}

theorem WellFormed.exeTime_le_prefixTime (wf : header.WellFormed) {n : Nat} (inside : k < header.taskTot)
    (bound : n ≤ (header.task k).subtaskCount) : n ≤ header.prefixTime k n := by
  induction n with
  | zero => exact Nat.zero_le _
  | succ n ih =>
      have blockEnd := wf.block_end inside
      have positive := wf.exeTime_pos (i := (header.task k).subtaskStartIdx + n) (by omega)
      have before := ih (Nat.le_of_succ_le bound)
      rw [prefixTime_succ]
      omega

theorem WellFormed.elapsedTime_le (wf : header.WellFormed) (inside : i < header.subtaskTot) :
    header.elapsedTime i ≤ header.totalTime (header.subtask i).taskId :=
  header.prefixTime_mono _ (wf.position inside).2.1

theorem WellFormed.elapsedTime_pos (wf : header.WellFormed) (inside : i < header.subtaskTot) :
    0 < header.elapsedTime i := by
  obtain ⟨known, within, _⟩ := wf.position inside
  exact (Nat.succ_pos _).trans_le (wf.exeTime_le_prefixTime known within)

theorem WellFormed.totalTime_pos (wf : header.WellFormed) (inside : i < header.subtaskTot) :
    0 < header.totalTime (header.subtask i).taskId := (wf.elapsedTime_pos inside).trans_le (wf.elapsedTime_le inside)

/-- A later subtask of a task has a larger elapsed time. -/
theorem WellFormed.elapsedTime_lt (wf : header.WellFormed) (right : r < header.subtaskTot)
    (task : (header.subtask l).taskId = (header.subtask r).taskId)
    (before : (header.subtask l).subtaskId < (header.subtask r).subtaskId) :
    header.elapsedTime l < header.elapsedTime r := by
  obtain ⟨_, _, place⟩ := wf.position right
  have positive := wf.exeTime_pos right
  rw [firstIdx, parent] at place
  have mono := header.prefixTime_mono (header.subtask r).taskId before
  rw [elapsedTime, elapsedTime, task, prefixTime_succ _ _ (header.subtask r).subtaskId, ← place]
  exact mono.trans_lt (Nat.lt_add_of_pos_right positive)

/-- The total time of a task is a word. -/
theorem ProductsBelow.totalTime_lt (below : header.ProductsBelow) (wf : header.WellFormed)
    (inside : k < header.taskTot) : header.totalTime k < 2 ^ 32 := by
  obtain ⟨start, task, _⟩ := wf.first inside
  have blockEnd := wf.block_end inside
  have count := wf.counts _ (task_mem inside)
  rcases Nat.eq_or_lt_of_le count with single | several
  · rw [totalTime, ← single, prefixTime_succ]
    simpa [prefixTime] using (wf.subtask_words _).2.2.1
  · -- the first and the last subtask of the task are compared with each other
    have last := wf.ids k inside ((header.task k).subtaskCount - 1) (by omega)
    have product := below ((header.task k).subtaskStartIdx + ((header.task k).subtaskCount - 1)) (by omega)
      (header.task k).subtaskStartIdx start (by omega)
    have period := wf.periods _ (task_mem inside)
    rw [parent, elapsedTime, last.1, last.2, task, Nat.sub_add_cancel count] at product
    by_contra large
    have square := Nat.mul_le_mul (Nat.mul_le_mul period (Nat.le_of_not_lt large)) (Nat.le_of_not_lt large)
    rw [totalTime] at square product
    omega

/-- The plan stores the exact times. -/
structure PlannedTimes (sort : KernelSort) (header : Header) : Prop where
  subtasks : ∀ i < header.subtaskTot,
    ((header.plan sort).header.subtask i).cumulativeExeTime = header.elapsedTime i
  tasks : ∀ i < header.subtaskTot,
    ((header.plan sort).header.parent i).exeTime = header.totalTime (header.subtask i).taskId

theorem ProductsBelow.plannedTimes (below : header.ProductsBelow) (wf : header.WellFormed)
    (sized : header.subtaskTot < 2 ^ 32) (sort : KernelSort) : header.PlannedTimes sort where
  subtasks i inside := by
    have word := (wf.elapsedTime_le inside).trans_lt (below.totalTime_lt wf (wf.position inside).1)
    rw [plan_subtask_eq sort inside, accumulate_cumulativeExeTime wf sized inside, u32_of_lt word]
  tasks i inside := by
    have known := (wf.position inside).1
    rw [plan_parent sort inside known, accumulate_exeTime wf sized known, u32_of_lt (below.totalTime_lt wf known)]

variable {sort : KernelSort}

theorem plan_period (wf : header.WellFormed) (inside : i < header.subtaskTot) :
    ((header.plan sort).header.parent i).period = (header.parent i).period := by
  rw [plan_parent sort inside (wf.position inside).1]

/-- The planned deadlines are the exact ones. -/
theorem PlannedTimes.exactRelDdl (planned : header.PlannedTimes sort) (wf : header.WellFormed)
    (inside : i < header.subtaskTot) : (header.plan sort).header.exactRelDdl i = header.idealRelDdl i := by
  rw [Header.exactRelDdl, idealRelDdl, planned.subtasks i inside, planned.tasks i inside, plan_period wf inside]

/-- The sign of `comp_rel_ddl` is exact for each pair of planned subtasks. -/
theorem ProductsBelow.signs (below : header.ProductsBelow) (wf : header.WellFormed)
    (sized : header.subtaskTot < 2 ^ 32) (left : l < header.subtaskTot) (right : r < header.subtaskTot) :
    SignOf ((header.plan sort).header.compRelDdl l r) ((header.plan sort).header.relDdlKey l)
      ((header.plan sort).header.relDdlKey r) := by
  have planned := below.plannedTimes wf sized sort
  have product (l r : Nat) (left : l < header.subtaskTot) (right : r < header.subtaskTot) :
      (header.plan sort).header.relDdlProduct l r =
        (header.parent l).period * header.elapsedTime l * header.totalTime (header.subtask r).taskId := by
    rw [relDdlProduct, planned.subtasks l left, planned.tasks r right, plan_period wf left]
  by_cases core : ((header.plan sort).header.subtask l).core = ((header.plan sort).header.subtask r).core
  · rw [compRelDdl_sign_iff (planned.tasks l left ▸ wf.totalTime_pos left)
      (planned.tasks r right ▸ wf.totalTime_pos right) core]
    by_cases same : l = r
    · exact .inl (same ▸ rfl)
    · have first := below l left r right same
      have second := below r right l left (Ne.symm same)
      rw [← product l r left right] at first
      rw [← product r l right left] at second
      have aligned := aligned_of_lt first second
      exact aligned
  · exact compRelDdl_sign_of_ne core

/-- The priorities change nothing that the comparators read. -/
theorem withPriorities_compRelDdl (header : Header) (ranking : Ranking) :
    (header.withPriorities ranking).compRelDdl = header.compRelDdl := by
  have fields (i : Nat) : ∃ priority, (header.withPriorities ranking).subtask i =
      { header.subtask i with priority } := by
    by_cases inside : i < header.subtaskTot
    · exact ⟨_, withPriorities_subtask ranking inside⟩
    · have outside : header.subtasks.length ≤ i := Nat.le_of_not_lt inside
      exact ⟨(default : Subtask).priority, by simp [withPriorities, subtask, outside]⟩
  funext l r
  obtain ⟨left, first⟩ := fields l
  obtain ⟨right, second⟩ := fields r
  unfold compRelDdl parent
  rw [first, second]
  rfl

end Header

/-- An array that `sort` has ordered by exact signs is ordered by the keys. -/
theorem KernelSort.sorted {β : Type} [LinearOrder β] (sort : KernelSort) {compare : Nat → Nat → Int}
    {entries : List Nat} (key : Nat → β)
    (signs : ∀ a ∈ entries, ∀ b ∈ entries, SignOf (compare a b) (key a) (key b)) :
    (sort.sort compare entries).Pairwise fun a b => key a ≤ key b := by
  have listed (a : Nat) (known : a ∈ sort.sort compare entries) : a ∈ entries := (sort.perm _ _).mem_iff.mp known
  refine (sort.ordered compare entries (fun a first b second => ?_) fun a first b second c third => ?_).imp_of_mem
    fun first second less => (signs _ (listed _ first) _ (listed _ second)).nonpos.mp less
  · rw [(signs a first b second).nonpos, (signs b second a first).nonpos]
    exact le_total _ _
  · rw [(signs a first b second).nonpos, (signs b second c third).nonpos, (signs a first c third).nonpos]
    exact le_trans

namespace Header

variable {header : Header} {sort : KernelSort}

/-- The planned `sub_ptr` is ordered by cores and exact deadlines. -/
theorem ProductsBelow.ordered (below : header.ProductsBelow) (wf : header.WellFormed)
    (sized : header.subtaskTot < 2 ^ 32) {first last : Nat} (before : first ≤ last) (inside : last < header.subtaskTot) :
    (header.plan sort).header.relDdlKey ((header.plan sort).subtaskAt first) ≤
      (header.plan sort).header.relDdlKey ((header.plan sort).subtaskAt last) := by
  rcases Nat.eq_or_lt_of_le before with rfl | less
  · exact le_rfl
  have indexed := header.plan_indexed sort
  have length := indexed.length
  rw [plan_subtaskTot] at length
  have sorted : (header.plan sort).subPtr.Pairwise fun a b =>
      (header.plan sort).header.relDdlKey a ≤ (header.plan sort).header.relDdlKey b := by
    have comparator : (header.timed.withCores (header.placement sort)).compRelDdl =
        (header.plan sort).header.compRelDdl := (withPriorities_compRelDdl _ _).symm
    change (sort.sort (header.timed.withCores (header.placement sort)).compRelDdl _).Pairwise _
    rw [comparator]
    refine sort.sorted _ fun a left b right => below.signs wf sized ?_ ?_
    · exact List.mem_range.mp ((placementOrder_perm sort header).mem_iff.mp left)
    · exact List.mem_range.mp ((placementOrder_perm sort header).mem_iff.mp right)
  rw [Plan.subtaskAt, Plan.subtaskAt, List.getD_eq_getElem _ _ (by omega), List.getD_eq_getElem _ _ (by omega)]
  exact List.pairwise_iff_getElem.mp sorted first last _ _ less

/-- The planned cores are grouped. -/
theorem ProductsBelow.grouped (below : header.ProductsBelow) (wf : header.WellFormed)
    (sized : header.subtaskTot < 2 ^ 32) : (header.plan sort).CoresGrouped := by
  refine grouped_of_monotone fun first last before inside => ?_
  rw [plan_subtaskTot] at inside
  exact Prod.Lex.monotone_fst _ _ (below.ordered wf sized before inside)

end Header

/-- The priorities of a plan are those of deadline-monotonic scheduling on each core. -/
structure Header.DeadlineMonotonic (header : Header) (plan : Plan) : Prop where
  countdown : ∀ core < coreNum, ((plan.members core).map fun i => (plan.header.subtask i).priority).Perm
    ((List.range (plan.members core).length).map (50 - ·))
  deadlines : ∀ l < header.subtaskTot, ∀ r < header.subtaskTot,
    (plan.header.subtask l).core = (plan.header.subtask r).core → header.idealRelDdl l < header.idealRelDdl r →
      (plan.header.subtask r).priority < (plan.header.subtask l).priority
  tasks : ∀ l < header.subtaskTot, ∀ r < header.subtaskTot,
    (plan.header.subtask l).core = (plan.header.subtask r).core →
      (header.subtask l).taskId = (header.subtask r).taskId →
      (header.subtask l).subtaskId < (header.subtask r).subtaskId →
        (plan.header.subtask r).priority < (plan.header.subtask l).priority

/-- A later subtask of a task has a later exact deadline. -/
theorem Header.WellFormed.idealRelDdl_lt {header : Header} {l r : Nat} (wf : header.WellFormed)
    (right : r < header.subtaskTot)
    (task : (header.subtask l).taskId = (header.subtask r).taskId)
    (before : (header.subtask l).subtaskId < (header.subtask r).subtaskId) :
    header.idealRelDdl l < header.idealRelDdl r := by
  have less : (header.elapsedTime l : Rat) < header.elapsedTime r := by
    exact_mod_cast wf.elapsedTime_lt right task before
  have period : (0 : Rat) < (header.parent r).period := by exact_mod_cast wf.period_pos right
  have total : (0 : Rat) < header.totalTime (header.subtask r).taskId := by exact_mod_cast wf.totalTime_pos right
  have parent : header.parent l = header.parent r := by rw [Header.parent, Header.parent, task]
  rw [Header.idealRelDdl, Header.idealRelDdl, task, parent]
  exact div_lt_div_of_pos_right (mul_lt_mul_of_pos_left less period) total

/-- Cross products below the sign bit and 50 subtasks on each core at most give deadline-monotonic priorities. -/
theorem deadline_monotonic (sort : KernelSort) (table : SizedTable) (below : table.ProductsBelow)
    (few : ∀ core < coreNum, ((table.plan sort).members core).length ≤ 50) :
    table.DeadlineMonotonic (table.plan sort) := by
  have wf := table.wellFormed
  have indexed := table.plan_indexed sort
  have counted := table.plan_counted sort
  have grouped : (table.plan sort).CoresGrouped := below.grouped wf table.sized
  have all := Header.members_few sort few
  have deadlines : ∀ l < table.subtaskTot, ∀ r < table.subtaskTot,
      ((table.plan sort).header.subtask l).core = ((table.plan sort).header.subtask r).core →
      table.idealRelDdl l < table.idealRelDdl r →
        ((table.plan sort).header.subtask r).priority < ((table.plan sort).header.subtask l).priority := by
    intro l left r right core less
    have planned := below.plannedTimes wf table.sized sort
    have key : (table.plan sort).header.relDdlKey l < (table.plan sort).header.relDdlKey r := by
      rw [Header.relDdlKey_lt_iff, planned.exactRelDdl wf left, planned.exactRelDdl wf right]
      exact .inr ⟨core, less⟩
    rw [← Header.plan_subtaskTot sort] at left right
    obtain ⟨first, inside, rfl⟩ := indexed.exists_position left
    obtain ⟨last, within, rfl⟩ := indexed.exists_position right
    have order : first < last := by
      by_contra late
      rw [Header.plan_subtaskTot] at inside
      exact absurd key (below.ordered wf table.sized (Nat.le_of_not_lt late) inside).not_gt
    exact counted.decreasing indexed grouped all order within core
  refine ⟨fun core _ => ?_, deadlines, fun l left r right core task before => ?_⟩
  · have values : ((positions (table.plan sort).coreOf (table.plan sort).header.subtaskTot core).map
        (table.plan sort).subtaskAt).map (fun i => ((table.plan sort).header.subtask i).priority) =
        (List.range ((table.plan sort).members core).length).map (50 - ·) := by
      rw [indexed.members_length, ← map_countBefore, List.map_map, List.map_map]
      refine List.map_congr_left fun position known => ?_
      exact (counted.early indexed grouped all (mem_positions.mp known).1).2
    exact values ▸ (indexed.members_perm core).map _
  · exact deadlines l left r right core (wf.idealRelDdl_lt right task before)

/-- The pair of subtasks with its word-sized total. -/
def sizedPair : SizedTable := { pairTable with sized := by decide }

/-- The earlier subtask of the pair outranks the later one. -/
theorem deadline_monotonic_pair : ((sizedPair.plan insertionSort).header.subtask 1).priority <
    ((sizedPair.plan insertionSort).header.subtask 0).priority := by
  have below : sizedPair.ProductsBelow := by decide
  have few : ∀ core < coreNum, ((sizedPair.plan insertionSort).members core).length ≤ 50 := by decide +kernel
  have tasks := (deadline_monotonic insertionSort sizedPair below few).tasks
  exact tasks 0 (by decide) 1 (by decide) (by decide +kernel) (by decide) (by decide)

end KernelStudio.EndToEnd
