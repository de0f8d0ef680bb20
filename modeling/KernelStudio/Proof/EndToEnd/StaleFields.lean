/-
This file proves that the plan of `E2E_init` does not depend on the computed fields that a header already holds.
Each of them is overwritten before it is read, so a header that an earlier calibration has generated is planned again
in the same way.
-/

import KernelStudio.Proof.EndToEnd.Times

namespace KernelStudio.EndToEnd

/-- A task without the time that the planner computes. -/
def Task.given (task : Task) : Task := { task with exeTime := 0 }

/-- A subtask without its loop count. -/
def Subtask.planned (subtask : Subtask) : Subtask := { subtask with loopCount := 0 }

/-- A subtask before it has a priority. -/
def Subtask.placed (subtask : Subtask) : Subtask := { subtask with loopCount := 0, priority := 0 }

/-- A subtask before it has a core. -/
def Subtask.timed (subtask : Subtask) : Subtask := { subtask with loopCount := 0, priority := 0, core := 0 }

/-- A subtask without the fields that the planner computes. -/
def Subtask.given (subtask : Subtask) : Subtask :=
  { subtask with loopCount := 0, priority := 0, core := 0, cumulativeExeTime := 0 }

/-- Two headers agree on the fields that describe the tasks. -/
structure Header.Agrees (first second : Header) : Prop where
  tasks : first.tasks.map Task.given = second.tasks.map Task.given
  subtasks : first.subtasks.map Subtask.given = second.subtasks.map Subtask.given

/-- Two plans have the same times, cores, priorities and verdict. The loop counts are left out. -/
structure Plan.Same (first second : Plan) : Prop where
  tasks : first.header.tasks = second.header.tasks
  subtasks : first.header.subtasks.map Subtask.planned = second.header.subtasks.map Subtask.planned
  hyperPeriod : first.hyperPeriod = second.hyperPeriod
  aggTime : first.aggTime = second.aggTime
  invalid : first.invalid = second.invalid
  subPtr : first.subPtr = second.subPtr
  startAddr : first.startAddr = second.startAddr

section Lists

variable {α β : Type} {view : α → β} {entries others : List α}

/-- Lists with the same views have the same view at each index. -/
theorem view_getD (same : entries.map view = others.map view) (i : Nat) (fallback : α) :
    view (entries.getD i fallback) = view (others.getD i fallback) := by
  have mapped (list : List α) : view (list.getD i fallback) = (list.map view).getD i (view fallback) :=
    (List.getD_map _ _ _).symm
  rw [mapped, mapped, same]

theorem view_length (same : entries.map view = others.map view) : entries.length = others.length := by
  simpa using congrArg List.length same

/-- Entries with the same view that are changed in the same way have the same finer view. -/
theorem view_mapIdx {γ : Type} {finer : α → γ} (same : entries.map view = others.map view)
    {change change' : Nat → α → α}
    (refines : ∀ i < entries.length, ∀ a b, view a = view b → finer (change i a) = finer (change' i b)) :
    (entries.mapIdx change).map finer = (others.mapIdx change').map finer := by
  have length := view_length same
  refine List.ext_getElem (by simpa using length) fun i inside _ => ?_
  simp only [List.length_map, List.length_mapIdx] at inside
  simp only [List.getElem_map, List.getElem_mapIdx]
  apply refines i inside
  have entry := congrArg (fun views => views[i]?) same
  simpa only [List.getElem?_map, List.getElem?_eq_getElem inside, List.getElem?_eq_getElem (length ▸ inside),
    Option.map_some, Option.some.injEq] using entry

end Lists

namespace Header

variable {first second : Header}

section Agrees

variable (agrees : first.Agrees second)
include agrees

theorem Agrees.task (k : Nat) : (first.task k).period = (second.task k).period ∧
    (first.task k).subtaskCount = (second.task k).subtaskCount ∧
    (first.task k).subtaskStartIdx = (second.task k).subtaskStartIdx := by
  have same : (first.task k).given = (second.task k).given := view_getD agrees.tasks k default
  simpa only [Task.given, Task.mk.injEq, and_true] using same

theorem Agrees.subtask (i : Nat) : (first.subtask i).taskId = (second.subtask i).taskId ∧
    (first.subtask i).subtaskId = (second.subtask i).subtaskId ∧
    (first.subtask i).exeTime = (second.subtask i).exeTime := by
  have same : (first.subtask i).given = (second.subtask i).given := view_getD agrees.subtasks i default
  simpa only [Subtask.given, Subtask.mk.injEq, and_true] using same

theorem Agrees.taskTot : first.taskTot = second.taskTot := view_length agrees.tasks

theorem Agrees.subtaskTot : first.subtaskTot = second.subtaskTot := view_length agrees.subtasks

/-- Times are sums over the same subtasks. -/
theorem Agrees.prefixTime (k n : Nat) : first.prefixTime k n = second.prefixTime k n := by
  have times (i : Nat) : (first.subtask i).exeTime = (second.subtask i).exeTime := (agrees.subtask i).2.2
  simp only [Header.prefixTime, (agrees.task k).2.2, times]

theorem Agrees.hyperPeriod : first.accumulate.hyperPeriod = second.accumulate.hyperPeriod := by
  have periods (k : Nat) : (first.task k).period = (second.task k).period := (agrees.task k).1
  simp only [hyperPeriod_eq, agrees.taskTot, periods]

end Agrees

/-- The first loop overwrites the times of all tasks and subtasks. -/
theorem timed_same (firstWf : first.WellFormed) (secondWf : second.WellFormed)
    (firstSized : first.subtaskTot < 2 ^ 32)
    (secondSized : second.subtaskTot < 2 ^ 32) (agrees : first.Agrees second) :
    first.timed.tasks = second.timed.tasks ∧
      first.timed.subtasks.map Subtask.timed = second.timed.subtasks.map Subtask.timed := by
  constructor
  · have same : first.timed.tasks.map id = second.timed.tasks.map id := by
      apply view_mapIdx agrees.tasks
      intro k inside a b given
      have total : first.totalTime k = second.totalTime k := by
        rw [totalTime, totalTime, agrees.prefixTime, (agrees.task k).2.1]
      have time : first.accumulate.exeTime k = second.accumulate.exeTime k := by
        rw [accumulate_exeTime firstWf firstSized inside,
          accumulate_exeTime secondWf secondSized (agrees.taskTot ▸ inside), total]
      simpa only [Task.given, Task.mk.injEq, time, and_true, id_eq] using given
    simpa only [List.map_id] using same
  · apply view_mapIdx agrees.subtasks
    intro i inside a b given
    have elapsed : first.elapsedTime i = second.elapsedTime i := by
      rw [elapsedTime, elapsedTime, agrees.prefixTime, (agrees.subtask i).1, (agrees.subtask i).2.1]
    have time : first.accumulate.cumulativeExeTime i = second.accumulate.cumulativeExeTime i := by
      rw [accumulate_cumulativeExeTime firstWf firstSized inside,
        accumulate_cumulativeExeTime secondWf secondSized (agrees.subtaskTot ▸ inside), elapsed]
    simpa only [Subtask.given, Subtask.timed, Subtask.mk.injEq, time, and_true, true_and] using given

/-- Two headers have the same times. -/
structure SameTimed (first second : Header) : Prop where
  tasks : first.tasks = second.tasks
  subtasks : first.subtasks.map Subtask.timed = second.subtasks.map Subtask.timed

/-- The header after the placement loop has the same cores as well. -/
structure SamePlaced (first second : Header) : Prop where
  tasks : first.tasks = second.tasks
  subtasks : first.subtasks.map Subtask.placed = second.subtasks.map Subtask.placed

/-- Both comparators use the tasks, the ids and the times of subtasks. -/
theorem SameTimed.subtask (same : first.SameTimed second) (i : Nat) :
    (first.subtask i).exeTime = (second.subtask i).exeTime ∧
      (first.subtask i).cumulativeExeTime = (second.subtask i).cumulativeExeTime ∧
      first.parent i = second.parent i := by
  have view : (first.subtask i).timed = (second.subtask i).timed := view_getD same.subtasks i default
  simp only [Subtask.timed, Subtask.mk.injEq, and_true, true_and] at view
  refine ⟨view.2.2.1, view.2.2.2, ?_⟩
  rw [parent, parent, view.1, task, task, same.tasks]

theorem SameTimed.compUtil (same : first.SameTimed second) : first.compUtil = second.compUtil := by
  funext l r
  simp only [Header.compUtil, same.subtask l, same.subtask r]

theorem SamePlaced.timed (same : first.SamePlaced second) : first.SameTimed second := by
  refine ⟨same.tasks, ?_⟩
  have forget : Subtask.timed ∘ Subtask.placed = Subtask.timed := rfl
  rw [← forget, ← List.map_map, same.subtasks, List.map_map]

theorem SamePlaced.core (same : first.SamePlaced second) (i : Nat) :
    (first.subtask i).core = (second.subtask i).core := by
  have view : (first.subtask i).placed = (second.subtask i).placed := view_getD same.subtasks i default
  simp only [Subtask.placed, Subtask.mk.injEq, and_true, true_and] at view
  exact view.2.2.2.2

theorem SamePlaced.compRelDdl (same : first.SamePlaced second) : first.compRelDdl = second.compRelDdl := by
  funext l r
  simp only [Header.compRelDdl, same.core, same.timed.subtask l, same.timed.subtask r]

/-- Two states of the placement loop agree on the subtasks that were placed. -/
structure SamePlacement (placed : List Nat) (first second : Placement) : Prop where
  aggTime : first.aggTime = second.aggTime
  invalid : first.invalid = second.invalid
  core : ∀ i ∈ placed, first.core i = second.core i

/-- Each round of the placement loop overwrites the core of its subtask. -/
theorem SameTimed.place (same : first.SameTimed second) (hyperPeriod : Nat) {placed : List Nat}
    {left right : Placement}
    (before : SamePlacement placed left right) (i : Nat) :
    SamePlacement (placed ++ [i]) (first.place hyperPeriod left i) (second.place hyperPeriod right i) := by
  have scaled : first.scaledTime hyperPeriod i = second.scaledTime hyperPeriod i := by
    simp only [scaledTime, same.subtask i]
  have tests : first.fits hyperPeriod left i = second.fits hyperPeriod right i := by
    funext j
    simp only [fits, scaled, before.aggTime]
  have cores (value : Nat) : ∀ other ∈ placed ++ [i],
      Function.update left.core i value other = Function.update right.core i value other := by
    intro other member
    by_cases own : other = i
    · rw [own, Function.update_self, Function.update_self]
    · rw [Function.update_of_ne own, Function.update_of_ne own]
      rcases List.mem_append.1 member with earlier | last
      · exact before.core other earlier
      · exact absurd (List.mem_singleton.1 last) own
  unfold Header.place
  rw [tests]
  cases (List.range coreNum).find? (second.fits hyperPeriod right i) with
  | some j => exact ⟨by simp only [before.aggTime, scaled], before.invalid, cores j⟩
  | none => exact ⟨by simp only [before.aggTime], rfl, cores 0⟩

theorem SameTimed.foldl_place (same : first.SameTimed second) (hyperPeriod : Nat) (rest : List Nat)
    {placed : List Nat}
    {left right : Placement} (before : SamePlacement placed left right) :
    SamePlacement (placed ++ rest) (rest.foldl (first.place hyperPeriod) left)
      (rest.foldl (second.place hyperPeriod) right) := by
  induction rest generalizing placed left right with
  | nil => simpa using before
  | cons i rest inductionHypothesis =>
      have after := inductionHypothesis (same.place hyperPeriod before i)
      simpa using after

/-- Two states of the priority loop agree on the first positions. -/
structure SameRanking (subPtr : List Nat) (count : Nat) (first second : Ranking) : Prop where
  startAddr : first.startAddr = second.startAddr
  priority : ∀ position < count, first.priority (subPtr.getD position 0) = second.priority (subPtr.getD position 0)

/-- Each round of the priority loop overwrites the priority of its subtask. -/
theorem SamePlaced.rank (same : first.SamePlaced second) {subPtr : List Nat} {count : Nat} {left right : Ranking}
    (before : SameRanking subPtr count left right) :
    SameRanking subPtr (count + 1) (first.rank subPtr left count) (second.rank subPtr right count) := by
  have updated {value other : Nat} (equal : value = other) : ∀ position < count + 1,
      Function.update left.priority (subPtr.getD count 0) value (subPtr.getD position 0) =
        Function.update right.priority (subPtr.getD count 0) other (subPtr.getD position 0) := by
    intro position bound
    subst equal
    by_cases own : subPtr.getD position 0 = subPtr.getD count 0
    · rw [own, Function.update_self, Function.update_self]
    · rw [Function.update_of_ne own, Function.update_of_ne own]
      have earlier : position ≠ count := fun last => own (last ▸ rfl)
      exact before.priority position (by omega)
  unfold Header.rank
  simp only [same.core]
  split_ifs
  · exact ⟨by simp only [before.startAddr], updated rfl⟩
  · have previous := before.priority (count - 1) (by omega)
    exact ⟨before.startAddr, updated (by rw [previous])⟩

theorem SamePlaced.foldl_rank (same : first.SamePlaced second) {subPtr : List Nat} {left right : Ranking}
    (start : left.startAddr = right.startAddr) (count : Nat) :
    SameRanking subPtr count ((List.range count).foldl (first.rank subPtr) left)
      ((List.range count).foldl (second.rank subPtr) right) := by
  induction count with
  | zero => exact ⟨start, fun _ none => absurd none (Nat.not_lt_zero _)⟩
  | succ count inductionHypothesis =>
      simp only [List.range_succ, List.foldl_append, List.foldl_cons, List.foldl_nil]
      exact same.rank inductionHypothesis

/-- The end of the priority loop. -/
def rankingBy (sort : Rearrangement) (header : Header) : Ranking :=
  (List.range header.subtaskTot).foldl
    ((header.timed.withCores (header.placementBy sort)).rank (header.planBy sort).subPtr)
    { priority := fun i => (header.subtask i).priority }

theorem planBy_subPtr_length (sort : Rearrangement) (header : Header) :
    (header.planBy sort).subPtr.length = header.subtaskTot := by
  have rearranged := ((sort.perm (header.timed.withCores (header.placementBy sort)).compRelDdl _).trans
    (sort.perm header.timed.compUtil (List.range header.subtaskTot))).length_eq
  exact rearranged.trans List.length_range

/-- The plan depends on the fields that describe the tasks only. -/
theorem planBy_same (sort : Rearrangement) (firstWf : first.WellFormed) (secondWf : second.WellFormed)
    (firstSized : first.subtaskTot < 2 ^ 32) (secondSized : second.subtaskTot < 2 ^ 32)
    (agrees : first.Agrees second) :
    (first.planBy sort).Same (second.planBy sort) := by
  obtain ⟨tasks, subtasks⟩ := timed_same firstWf secondWf firstSized secondSized agrees
  have timed : first.timed.SameTimed second.timed := ⟨tasks, subtasks⟩
  have order : first.placementOrderBy sort = second.placementOrderBy sort := by
    rw [placementOrderBy, placementOrderBy, timed.compUtil, agrees.subtaskTot]
  have placement :
      SamePlacement (first.placementOrderBy sort) (first.placementBy sort) (second.placementBy sort) := by
    rw [placementBy, placementBy, ← order, agrees.hyperPeriod]
    have start : SamePlacement [] { core := fun i => (first.subtask i).core }
        { core := fun i => (second.subtask i).core } := ⟨rfl, rfl, by simp⟩
    exact timed.foldl_place _ _ start
  have placed : (first.timed.withCores (first.placementBy sort)).SamePlaced
      (second.timed.withCores (second.placementBy sort)) := by
    refine ⟨tasks, view_mapIdx subtasks fun i inside a b same => ?_⟩
    have visited : i ∈ first.placementOrderBy sort :=
      (sort.perm _ _).mem_iff.2 (List.mem_range.2 (inside.trans_eq first.timed_subtaskTot))
    simp only [Subtask.timed, Subtask.placed, Subtask.mk.injEq, and_true, true_and] at same ⊢
    exact ⟨same.1, same.2.1, same.2.2.1, same.2.2.2, placement.core i visited⟩
  have subPtr : (first.planBy sort).subPtr = (second.planBy sort).subPtr := by
    show sort.sort _ _ = sort.sort _ _
    rw [placed.compRelDdl, order]
  have ranked : SameRanking (first.planBy sort).subPtr first.subtaskTot (first.rankingBy sort)
      (second.rankingBy sort) := by
    unfold rankingBy
    rw [← subPtr, ← agrees.subtaskTot]
    apply placed.foldl_rank
    rfl
  have subtasks' : (first.planBy sort).header.subtasks.map Subtask.planned =
      (second.planBy sort).header.subtasks.map Subtask.planned := by
    refine view_mapIdx placed.subtasks fun i inside a b same => ?_
    have visited : i ∈ (first.planBy sort).subPtr := by
      refine ((sort.perm _ _).trans (sort.perm _ _)).mem_iff.2 (List.mem_range.2 (inside.trans_eq ?_))
      exact List.length_mapIdx.trans first.timed_subtaskTot
    obtain ⟨position, bound, found⟩ := List.getElem_of_mem visited
    have priority := ranked.priority position (bound.trans_eq (planBy_subPtr_length sort first))
    rw [List.getD_eq_getElem _ _ bound, found] at priority
    simp only [Subtask.placed, Subtask.planned, Subtask.mk.injEq, and_true, true_and] at same ⊢
    exact ⟨same.1, same.2.1, same.2.2.1, same.2.2.2.1, same.2.2.2.2, priority⟩
  refine ⟨tasks, subtasks', agrees.hyperPeriod, placement.aggTime, placement.invalid, subPtr, ?_⟩
  funext core
  show ((first.rankingBy sort).startAddr core).getD first.subtaskTot =
    ((second.rankingBy sort).startAddr core).getD second.subtaskTot
  rw [ranked.startAddr, agrees.subtaskTot]

/-- The header with the loop counts of a calibration. -/
def withLoopCounts (loopCount : Nat → Nat) (header : Header) : Header :=
  { header with subtasks := header.subtasks.mapIdx fun i subtask => { subtask with loopCount := loopCount i } }

theorem withLoopCounts_agrees (loopCount : Nat → Nat) (header : Header) :
    (header.withLoopCounts loopCount).Agrees header := by
  refine ⟨rfl, List.ext_getElem (by simp [withLoopCounts]) fun i _ _ => ?_⟩
  simp [withLoopCounts, Subtask.given]

/-- A planned header agrees with the header that was planned. -/
theorem planBy_agrees (sort : Rearrangement) (header : Header) : (header.planBy sort).header.Agrees header := by
  constructor
  · refine List.ext_getElem (by simp [planBy, withPriorities, withCores, timed, withTimes]) fun k _ _ => ?_
    simp [planBy, withPriorities, withCores, timed, withTimes, Task.given]
  · refine List.ext_getElem (by simp [planBy, withPriorities, withCores, timed, withTimes]) fun i _ _ => ?_
    simp [planBy, withPriorities, withCores, timed, withTimes, Subtask.given]

theorem Agrees.trans {third : Header} (agrees : first.Agrees second) (later : second.Agrees third) :
    first.Agrees third :=
  ⟨agrees.tasks.trans later.tasks, agrees.subtasks.trans later.subtasks⟩

end Header

/-- Tables that agree on the fields that describe the tasks are planned in the same way, and so is the header that an
earlier calibration of a table has generated. -/
theorem planning_independent (sort : Rearrangement) :
    (∀ first second : SizedTable, first.Agrees second.toHeader → (first.planBy sort).Same (second.planBy sort)) ∧
      ∀ table generated : SizedTable, (∃ loopCount,
        generated.toHeader = (table.planBy sort).header.withLoopCounts loopCount) →
          (generated.planBy sort).Same (table.planBy sort) := by
  have independent : ∀ first second : SizedTable, first.Agrees second.toHeader →
      (first.planBy sort).Same (second.planBy sort) := fun first second agrees =>
    Header.planBy_same sort first.wellFormed second.wellFormed first.sized second.sized agrees
  refine ⟨independent, ?_⟩
  rintro table generated ⟨loopCount, same⟩
  apply independent
  rw [same]
  exact (Header.withLoopCounts_agrees loopCount _).trans (Header.planBy_agrees sort table.toHeader)

/-- The planned header of a table is a table again. -/
def plannedTable (sort : KernelSort) (table : SizedTable) : SizedTable where
  toHeader := (table.plan sort).header
  wellFormed := Header.plan_wellFormed sort table.wellFormed
  sized := (Header.plan_subtaskTot sort table.toHeader).trans_lt table.sized

/-- Planning a planned table again changes nothing but the loop counts. -/
theorem planned_again (sort : KernelSort) (table : SizedTable) :
    ((plannedTable sort table).plan sort).Same (table.plan sort) := by
  rw [← Header.planBy_rearrangement, ← Header.planBy_rearrangement]
  exact Header.planBy_same sort.rearrangement (plannedTable sort table).wellFormed table.wellFormed
    (plannedTable sort table).sized table.sized (Header.planBy_agrees sort.rearrangement table.toHeader)

end KernelStudio.EndToEnd
