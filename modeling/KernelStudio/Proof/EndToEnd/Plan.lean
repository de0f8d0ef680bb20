/-
This file says which fields of the table the calibrate branch changes.
The planned table is well-formed again, so the run mode can take it over.
-/

import KernelStudio.Construction.EndToEnd.Planner

namespace KernelStudio.EndToEnd

/-- A map over the entries and their indices acts on each entry inside the list. -/
theorem getD_mapIdx {α : Type} (f : Nat → α → α) (entries : List α) (fallback : α) {i : Nat}
    (inside : i < entries.length) : (entries.mapIdx f).getD i fallback = f i (entries.getD i fallback) := by
  rw [List.getD_eq_getElem _ _ (by simpa using inside), List.getD_eq_getElem _ _ inside, List.getElem_mapIdx]

namespace Header

variable (sort : KernelSort) (header : Header)

@[simp] theorem plan_taskTot : (header.plan sort).header.taskTot = header.taskTot := by
  simp [plan, withPriorities, withCores, timed, withTimes, taskTot]

@[simp] theorem plan_subtaskTot : (header.plan sort).header.subtaskTot = header.subtaskTot := by
  simp [plan, withPriorities, withCores, timed, withTimes, subtaskTot]

@[simp] theorem timed_subtaskTot : header.timed.subtaskTot = header.subtaskTot := by
  simp [timed, withTimes, subtaskTot]

variable {header}

theorem timed_subtask {i : Nat} (inside : i < header.subtaskTot) : header.timed.subtask i =
    { header.subtask i with cumulativeExeTime := header.accumulate.cumulativeExeTime i } :=
  getD_mapIdx _ _ _ inside

theorem timed_task {k : Nat} (inside : k < header.taskTot) : header.timed.task k =
    { header.task k with exeTime := header.accumulate.exeTime k } :=
  getD_mapIdx _ _ _ inside

theorem withCores_subtask (placement : Placement) {i : Nat} (inside : i < header.subtaskTot) :
    (header.withCores placement).subtask i = { header.subtask i with core := placement.core i } :=
  getD_mapIdx _ _ _ inside

theorem withPriorities_subtask (ranking : Ranking) {i : Nat} (inside : i < header.subtaskTot) :
    (header.withPriorities ranking).subtask i = { header.subtask i with priority := ranking.priority i } :=
  getD_mapIdx _ _ _ inside

theorem placed_subtaskTot : (header.timed.withCores (header.placement sort)).subtaskTot = header.subtaskTot := by
  simp [withCores, timed, withTimes, subtaskTot]

/-- The plan computes three fields of a subtask. -/
theorem plan_subtask_eq {i : Nat} (inside : i < header.subtaskTot) :
    (header.plan sort).header.subtask i = { header.subtask i with
      cumulativeExeTime := header.accumulate.cumulativeExeTime i
      core := (header.placement sort).core i
      priority := ((header.plan sort).header.subtask i).priority } := by
  have timed : i < header.timed.subtaskTot := by simpa using inside
  have placed := inside.trans_eq (placed_subtaskTot sort).symm
  rw [plan, withPriorities_subtask _ placed, withCores_subtask _ timed, timed_subtask inside]

/-- The plan keeps the ids and the time of a subtask. -/
theorem plan_subtask {i : Nat} (inside : i < header.subtaskTot) :
    ((header.plan sort).header.subtask i).taskId = (header.subtask i).taskId ∧
      ((header.plan sort).header.subtask i).subtaskId = (header.subtask i).subtaskId ∧
      ((header.plan sort).header.subtask i).exeTime = (header.subtask i).exeTime ∧
      ((header.plan sort).header.subtask i).core = (header.placement sort).core i := by
  rw [plan_subtask_eq sort inside]
  exact ⟨rfl, rfl, rfl, rfl⟩

/-- The plan changes the computed time of a task only. -/
theorem plan_task {k : Nat} (inside : k < header.taskTot) :
    (header.plan sort).header.task k = { header.task k with exeTime := header.accumulate.exeTime k } :=
  timed_task inside

end Header

/-- The largest period is the maximum over the tasks. -/
theorem Header.hyperPeriod_eq (header : Header) : header.accumulate.hyperPeriod =
    (List.range header.taskTot).foldl (fun longest k => max longest (header.task k).period) 0 := by
  have inner (k : Nat) (accumulated : Accumulated) (visited : List Nat) :
      (visited.foldl (header.accumulateSubtask k) accumulated).hyperPeriod = accumulated.hyperPeriod := by
    induction visited generalizing accumulated with
    | nil => rfl
    | cons j rest ih => exact ih _
  have outer (accumulated : Accumulated) (visited : List Nat) :
      (visited.foldl header.accumulateTask accumulated).hyperPeriod =
        visited.foldl (fun longest k => max longest (header.task k).period) accumulated.hyperPeriod := by
    induction visited generalizing accumulated with
    | nil => rfl
    | cons k rest ih =>
        rw [List.foldl_cons, ih, List.foldl_cons, accumulateTask, inner]
        congr 1
        change (if accumulated.hyperPeriod < (header.task k).period then _ else _) = _
        split <;> omega
  exact outer _ _

/-- A running maximum stays below a bound when each value does. -/
theorem foldl_max_le_iff {α : Type} (value : α → Nat) (entries : List α) (start bound : Nat) :
    entries.foldl (fun longest entry => max longest (value entry)) start ≤ bound ↔
      start ≤ bound ∧ ∀ entry ∈ entries, value entry ≤ bound := by
  induction entries generalizing start with
  | nil => simp
  | cons entry rest ih => simp [ih, and_assoc]

/-- No period exceeds the largest period. -/
theorem Header.period_le_hyperPeriod (header : Header) {k : Nat} (inside : k < header.taskTot) :
    (header.task k).period ≤ header.accumulate.hyperPeriod := by
  have bounds := (foldl_max_le_iff (fun k => (header.task k).period) (List.range header.taskTot) 0
    header.accumulate.hyperPeriod).mp (Nat.le_of_eq header.hyperPeriod_eq.symm)
  exact bounds.2 k (List.mem_range.mpr inside)

/-- The first core whose test passes takes the subtask. -/
theorem Header.place_cases (header : Header) {hyperPeriod : Nat} {placement : Placement} (i : Nat) :
    (∃ j < coreNum, header.fits hyperPeriod placement i j = true ∧
      (∀ earlier < j, header.fits hyperPeriod placement i earlier = false) ∧
      header.place hyperPeriod placement i = { placement with
        aggTime := Function.update placement.aggTime j
          (u32 (placement.aggTime j + header.scaledTime hyperPeriod i))
        core := Function.update placement.core i j }) ∨
    ((∀ j < coreNum, header.fits hyperPeriod placement i j = false) ∧
      header.place hyperPeriod placement i =
        { aggTime := Function.update placement.aggTime 0 hyperPeriod
          core := Function.update placement.core i 0
          invalid := true }) := by
  cases found : (List.range coreNum).find? (header.fits hyperPeriod placement i) with
  | some j =>
      obtain ⟨passes, inside, before⟩ := List.find?_range_eq_some.mp found
      refine .inl ⟨j, List.mem_range.mp inside, passes, fun earlier less => ?_, ?_⟩
      · simpa using before earlier less
      · rw [place, found]
  | none =>
      refine .inr ⟨fun j inside => ?_, ?_⟩
      · simpa using List.find?_range_eq_none.mp found j inside
      · rw [place, found]

namespace Header

variable (sort : KernelSort) {header : Header}

/-- The planned header keeps the index arithmetic of the table. -/
theorem plan_parent {i : Nat} (inside : i < header.subtaskTot) (known : (header.subtask i).taskId < header.taskTot) :
    (header.plan sort).header.parent i =
      { header.parent i with exeTime := header.accumulate.exeTime (header.subtask i).taskId } := by
  rw [parent, (plan_subtask sort inside).1, plan_task sort known]
  rfl

theorem WellFormed.task_words (wf : header.WellFormed) (k : Nat) : (header.task k).Words := by
  by_cases inside : k < header.taskTot
  · exact wf.taskWords _ (task_mem inside)
  · rw [task, List.getD_eq_default _ _ (Nat.le_of_not_lt inside)]
    decide

theorem WellFormed.subtask_words (wf : header.WellFormed) (i : Nat) : (header.subtask i).Words := by
  by_cases inside : i < header.subtaskTot
  · exact wf.subtaskWords _ (subtask_mem inside)
  · rw [subtask, List.getD_eq_default _ _ (Nat.le_of_not_lt inside)]
    decide

theorem u32_lt (value : Nat) : u32 value < 2 ^ 32 := Nat.mod_lt _ (by decide)

end Header

theorem update_words {values : Nat → Nat} (words : ∀ i, values i < 2 ^ 32) (k : Nat) {value : Nat}
    (word : value < 2 ^ 32) : ∀ i, Function.update values k value i < 2 ^ 32 :=
  (Function.forall_update_iff values fun _ entry => entry < 2 ^ 32).mpr ⟨word, fun i _ => words i⟩

/-- The accumulated times are words. -/
def Accumulated.Words (accumulated : Accumulated) : Prop :=
  (∀ i, accumulated.cumulativeExeTime i < 2 ^ 32) ∧ ∀ k, accumulated.exeTime k < 2 ^ 32

namespace Header

variable (sort : KernelSort) {header : Header}

/-- Each addition of the first loop keeps the low word. -/
theorem accumulateSubtask_words (k : Nat) {accumulated : Accumulated} (words : accumulated.Words) (j : Nat) :
    (header.accumulateSubtask k accumulated j).Words := by
  refine ⟨update_words words.1 _ (u32_lt _), ?_⟩
  unfold accumulateSubtask
  dsimp only
  split
  · exact update_words words.2 _ (u32_lt _)
  · exact words.2

theorem accumulate_words (wf : header.WellFormed) : header.accumulate.Words := by
  refine List.foldlRecOn (motive := Accumulated.Words) _ _ ?_ fun accumulated words k _ => ?_
  · exact ⟨fun i => (wf.subtask_words i).2.2.2.2.1, fun k => (wf.task_words k).2.2.2⟩
  · exact List.foldlRecOn (motive := Accumulated.Words) _ _ words fun _ words j _ =>
      accumulateSubtask_words k words j

/-- The placement loop chooses one of the cores for each subtask that it visits. -/
theorem placement_core_lt {i : Nat} (inside : i < header.subtaskTot) :
    (header.placement sort).core i < coreNum := by
  have step (placement : Placement) (k : Nat) :
      ((header.timed.place header.accumulate.hyperPeriod placement k).core k < coreNum) ∧
        ∀ j, j ≠ k → (header.timed.place header.accumulate.hyperPeriod placement k).core j = placement.core j := by
    rcases header.timed.place_cases k with ⟨j, below, _, _, result⟩ | ⟨_, result⟩
    · rw [result]
      exact ⟨by simpa using below, fun j other => Function.update_of_ne other _ _⟩
    · rw [result]
      exact ⟨by simp [coreNum], fun j other => Function.update_of_ne other _ _⟩
  have visited (rest : List Nat) (placement : Placement)
      (known : i ∈ rest ∨ placement.core i < coreNum) :
      (rest.foldl (header.timed.place header.accumulate.hyperPeriod) placement).core i < coreNum := by
    induction rest generalizing placement with
    | nil => simpa using known
    | cons k rest ih =>
        refine ih _ ?_
        by_cases here : i = k
        · exact .inr (here ▸ (step placement k).1)
        · rw [(step placement k).2 i here]
          simpa [here] using known
  exact visited _ _ (.inl ((sort.perm _ _).mem_iff.mpr (List.mem_range.mpr inside)))

/-- Each computed priority is a word. -/
theorem ranking_words (subPtr : List Nat) (start : Nat → Nat) (words : ∀ i, start i < 2 ^ 32) (visited : List Nat) :
    ∀ i, (visited.foldl (header.rank subPtr) { priority := start }).priority i < 2 ^ 32 := by
  refine List.foldlRecOn (motive := fun ranking : Ranking => ∀ i, ranking.priority i < 2 ^ 32) _ _ words
    fun ranking words position _ => ?_
  unfold rank
  dsimp only
  split
  · exact update_words words _ (by decide)
  · exact update_words words _ (u32_lt _)

theorem forall_tasks {property : Task → Prop} :
    (∀ k < header.taskTot, property (header.task k)) → ∀ entry ∈ header.tasks, property entry := by
  refine fun all => List.forall_mem_iff_getElem.mpr fun k inside => ?_
  have entry := all k inside
  rwa [task, List.getD_eq_getElem _ _ inside] at entry

theorem forall_subtasks {property : Subtask → Prop} :
    (∀ i < header.subtaskTot, property (header.subtask i)) → ∀ entry ∈ header.subtasks, property entry := by
  refine fun all => List.forall_mem_iff_getElem.mpr fun i inside => ?_
  have entry := all i inside
  rwa [subtask, List.getD_eq_getElem _ _ inside] at entry

theorem plan_priority_lt (wf : header.WellFormed) {i : Nat} (inside : i < header.subtaskTot) :
    ((header.plan sort).header.subtask i).priority < 2 ^ 32 := by
  have placed := inside.trans_eq (placed_subtaskTot sort).symm
  rw [plan, withPriorities_subtask _ placed]
  exact ranking_words _ _ (fun j => (wf.subtask_words j).2.2.2.2.2.2) _ i

/-- The planned table is well-formed again. -/
theorem plan_wellFormed (wf : header.WellFormed) : (header.plan sort).header.WellFormed := by
  have counts : (header.plan sort).header.tasks.map Task.subtaskCount = header.tasks.map Task.subtaskCount := by
    change (header.tasks.mapIdx _).map _ = _
    exact List.ext_getElem (by simp) fun k _ _ => by simp
  have words := accumulate_words wf
  constructor
  · intro k inside
    rw [plan_taskTot] at inside
    rw [plan_task sort inside, List.map_take, counts, ← List.map_take]
    exact wf.starts k inside
  · rw [plan_subtaskTot, counts]
    exact wf.total
  · intro k inside j below
    rw [plan_taskTot] at inside
    rw [plan_task sort inside] at below ⊢
    have place : (header.task k).subtaskStartIdx + j < header.subtaskTot :=
      Nat.lt_of_lt_of_le (Nat.add_lt_add_left below _) (wf.block_end inside)
    rw [(plan_subtask sort place).1, (plan_subtask sort place).2.1]
    exact wf.ids k inside j below
  · refine forall_tasks fun k inside => ?_
    rw [plan_taskTot] at inside
    rw [plan_task sort inside]
    exact wf.counts (header.task k) (task_mem inside)
  · refine forall_tasks fun k inside => ?_
    rw [plan_taskTot] at inside
    rw [plan_task sort inside]
    exact wf.periods (header.task k) (task_mem inside)
  · refine forall_subtasks fun i inside => ?_
    rw [plan_subtaskTot] at inside
    rw [(plan_subtask sort inside).2.2.1]
    exact wf.exeTimes _ (subtask_mem inside)
  · refine forall_tasks fun k inside => ?_
    rw [plan_taskTot] at inside
    rw [plan_task sort inside]
    obtain ⟨period, count, start, _⟩ := wf.task_words k
    exact ⟨period, count, start, words.2 k⟩
  · refine forall_subtasks fun i inside => ?_
    rw [plan_subtaskTot] at inside
    have priority := plan_priority_lt sort wf inside
    obtain ⟨task, id, time, loops, _⟩ := wf.subtask_words i
    have core := Nat.lt_trans (placement_core_lt sort inside) (by decide : coreNum < 2 ^ 32)
    rw [plan_subtask_eq sort inside]
    exact ⟨task, id, time, loops, words.1 i, core, priority⟩

end Header

end KernelStudio.EndToEnd
