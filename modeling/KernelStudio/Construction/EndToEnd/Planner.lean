/-
This file models the parameters that the calibrate branch of `E2E_init` computes:
accumulated times, cores and priorities. Each loop is a fold over the indices it visits.
-/

import KernelStudio.Construction.EndToEnd.Table
import Mathlib.Data.List.Sort
import Mathlib.Logic.Function.Basic

namespace KernelStudio.EndToEnd

/-- Signed 64-bit arithmetic keeps the balanced low word. -/
def s64 (value : Int) : Int := value.bmod (2 ^ 64)

/-- The kernel's `sort` permutes its array, and a comparator that is a weak order on the array orders it. -/
structure KernelSort where
  sort : (Nat → Nat → Int) → List Nat → List Nat
  perm : ∀ compare entries, (sort compare entries).Perm entries
  ordered : ∀ compare entries,
    (∀ a ∈ entries, ∀ b ∈ entries, compare a b ≤ 0 ∨ compare b a ≤ 0) →
    (∀ a ∈ entries, ∀ b ∈ entries, ∀ c ∈ entries, compare a b ≤ 0 → compare b c ≤ 0 → compare a c ≤ 0) →
    (sort compare entries).Pairwise fun a b => compare a b ≤ 0

/-- Insertion sort is one such function. -/
def insertionSort : KernelSort where
  sort compare entries := (entries.attach.insertionSort fun a b => compare a.1 b.1 ≤ 0).map Subtype.val
  perm compare entries := by
    refine ((List.perm_insertionSort _ entries.attach).map Subtype.val).trans ?_
    rw [List.attach_map_subtype_val]
  ordered compare entries total trans := by
    have totality : Std.Total fun a b : { entry // entry ∈ entries } => compare a.1 b.1 ≤ 0 :=
      ⟨fun a b => total a.1 a.2 b.1 b.2⟩
    have transitivity : IsTrans { entry // entry ∈ entries } fun a b => compare a.1 b.1 ≤ 0 :=
      ⟨fun a b c => trans a.1 a.2 b.1 b.2 c.1 c.2⟩
    rw [List.pairwise_map]
    exact List.pairwise_insertionSort _ entries.attach

namespace Header

variable (header : Header)

/-- The comparator `comp_util` puts the larger utilisation first. -/
def compUtil (l r : Nat) : Int :=
  let left := s64 ((header.subtask l).exeTime * (header.parent r).period)
  let right := s64 ((header.subtask r).exeTime * (header.parent l).period)
  if right < left then -1 else if left < right then 1 else 0

/-- The comparator `comp_rel_ddl` groups the cores and puts the shorter relative deadline first. -/
def compRelDdl (l r : Nat) : Int :=
  let left := s64 (s64 ((header.parent l).period * (header.subtask l).cumulativeExeTime) * (header.parent r).exeTime)
  let right := s64 (s64 ((header.parent r).period * (header.subtask r).cumulativeExeTime) * (header.parent l).exeTime)
  if (header.subtask l).core < (header.subtask r).core then -1
  else if (header.subtask r).core < (header.subtask l).core then 1
  else if left < right then -1 else if right < left then 1 else 0

end Header

/-- The first loop accumulates the largest period, the subtasks' times and the tasks' times. -/
structure Accumulated where
  hyperPeriod : Nat
  cumulativeExeTime : Nat → Nat
  exeTime : Nat → Nat

namespace Header

variable (header : Header)

/-- One subtask of the first loop. -/
def accumulateSubtask (k : Nat) (accumulated : Accumulated) (j : Nat) : Accumulated :=
  let curIdx := u32 ((header.task k).subtaskStartIdx + j)
  let before := if j = 0 then 0 else accumulated.cumulativeExeTime (curIdx - 1)
  let cumulative := u32 (before + (header.subtask curIdx).exeTime)
  { accumulated with
    cumulativeExeTime := Function.update accumulated.cumulativeExeTime curIdx cumulative
    exeTime := if j = u32 ((header.task k).subtaskCount + (2 ^ 32 - 1))
      then Function.update accumulated.exeTime k cumulative else accumulated.exeTime }

/-- One task of the first loop. -/
def accumulateTask (accumulated : Accumulated) (k : Nat) : Accumulated :=
  let period := (header.task k).period
  (List.range (header.task k).subtaskCount).foldl (header.accumulateSubtask k)
    { accumulated with hyperPeriod := if accumulated.hyperPeriod < period then period else accumulated.hyperPeriod }

/-- The first loop of the calibrate branch. -/
def accumulate : Accumulated :=
  (List.range header.taskTot).foldl header.accumulateTask
    { hyperPeriod := 0
      cumulativeExeTime := fun i => (header.subtask i).cumulativeExeTime
      exeTime := fun k => (header.task k).exeTime }

/-- The header with the accumulated times. -/
def withTimes (accumulated : Accumulated) : Header where
  tasks := header.tasks.mapIdx fun k task => { task with exeTime := accumulated.exeTime k }
  subtasks := header.subtasks.mapIdx fun i subtask =>
    { subtask with cumulativeExeTime := accumulated.cumulativeExeTime i }

end Header

/-- The state of the placement loop. -/
structure Placement where
  aggTime : Nat → Nat := fun _ => 0
  core : Nat → Nat
  invalid : Bool := false

namespace Header

variable (header : Header) (hyperPeriod : Nat)

/-- The time of a subtask in the largest period, in unsigned arithmetic. -/
def scaledTime (i : Nat) : Nat := u32 ((header.subtask i).exeTime * hyperPeriod) / (header.parent i).period

/-- The test of the placement loop for one core. -/
def fits (placement : Placement) (i j : Nat) : Bool :=
  u32 (placement.aggTime j + header.scaledTime hyperPeriod i) ≤ hyperPeriod

/-- One subtask of the placement loop. -/
def place (placement : Placement) (i : Nat) : Placement :=
  match (List.range coreNum).find? (header.fits hyperPeriod placement i) with
  | some j => { placement with
      aggTime := Function.update placement.aggTime j
        (u32 (placement.aggTime j + header.scaledTime hyperPeriod i))
      core := Function.update placement.core i j }
  | none =>
      { aggTime := Function.update placement.aggTime 0 hyperPeriod
        core := Function.update placement.core i 0
        invalid := true }

/-- The header with the cores of a placement. -/
def withCores (placement : Placement) : Header :=
  { header with subtasks := header.subtasks.mapIdx fun i subtask => { subtask with core := placement.core i } }

end Header

/-- The state of the priority loop: priorities and the first position of each core in `sub_ptr`. -/
structure Ranking where
  priority : Nat → Nat
  startAddr : Nat → Option Nat := fun _ => none

namespace Header

variable (header : Header) (subPtr : List Nat)

/-- One position of the priority loop. -/
def rank (ranking : Ranking) (i : Nat) : Ranking :=
  let cur := subPtr.getD i 0
  let previous := subPtr.getD (i - 1) 0
  if i = 0 ∨ (header.subtask cur).core ≠ (header.subtask previous).core then
    { priority := Function.update ranking.priority cur 50
      startAddr := Function.update ranking.startAddr (header.subtask cur).core (some i) }
  else { ranking with
    priority := Function.update ranking.priority cur (u32 (ranking.priority previous + (2 ^ 32 - 1))) }

/-- The header with the priorities of a ranking. -/
def withPriorities (ranking : Ranking) : Header :=
  { header with
    subtasks := header.subtasks.mapIdx fun i subtask => { subtask with priority := ranking.priority i } }

end Header

/-- What the calibrate branch has computed when it creates its threads. -/
structure Plan where
  header : Header
  hyperPeriod : Nat
  aggTime : Nat → Nat
  invalid : Bool
  subPtr : List Nat
  startAddr : Nat → Nat

namespace Header

variable (sort : KernelSort) (header : Header)

/-- The header after the first loop. -/
def timed : Header := header.withTimes header.accumulate

/-- The order in which the placement loop visits the subtasks. -/
def placementOrder : List Nat := sort.sort header.timed.compUtil (List.range header.subtaskTot)

/-- The placement loop. -/
def placement : Placement :=
  (header.placementOrder sort).foldl (header.timed.place header.accumulate.hyperPeriod)
    { core := fun i => (header.subtask i).core }

/-- The parameters computed by the calibrate branch of `E2E_init`. -/
def plan : Plan :=
  let placed := header.timed.withCores (header.placement sort)
  let subPtr := sort.sort placed.compRelDdl (header.placementOrder sort)
  let ranking := (List.range header.subtaskTot).foldl (placed.rank subPtr)
    { priority := fun i => (header.subtask i).priority }
  { header := placed.withPriorities ranking
    hyperPeriod := header.accumulate.hyperPeriod
    aggTime := (header.placement sort).aggTime
    invalid := (header.placement sort).invalid
    subPtr
    startAddr := fun core => (ranking.startAddr core).getD header.subtaskTot }

end Header

/-- A function that rearranges its array and may use the outcomes of the comparator in any way. -/
structure Rearrangement where
  sort : (Nat → Nat → Int) → List Nat → List Nat
  perm : ∀ compare entries, (sort compare entries).Perm entries

/-- The kernel's `sort` is one such function. -/
def KernelSort.rearrangement (sort : KernelSort) : Rearrangement := ⟨sort.sort, sort.perm⟩

namespace Header

variable (sort : Rearrangement) (header : Header)

/-- The order in which the placement loop visits the subtasks after this rearrangement. -/
def placementOrderBy : List Nat := sort.sort header.timed.compUtil (List.range header.subtaskTot)

/-- The placement loop in this order. -/
def placementBy : Placement :=
  (header.placementOrderBy sort).foldl (header.timed.place header.accumulate.hyperPeriod)
    { core := fun i => (header.subtask i).core }

/-- The parameters computed by the calibrate branch of `E2E_init` with this function in the place of `sort`. -/
def planBy : Plan :=
  let placed := header.timed.withCores (header.placementBy sort)
  let subPtr := sort.sort placed.compRelDdl (header.placementOrderBy sort)
  let ranking := (List.range header.subtaskTot).foldl (placed.rank subPtr)
    { priority := fun i => (header.subtask i).priority }
  { header := placed.withPriorities ranking
    hyperPeriod := header.accumulate.hyperPeriod
    aggTime := (header.placementBy sort).aggTime
    invalid := (header.placementBy sort).invalid
    subPtr
    startAddr := fun core => (ranking.startAddr core).getD header.subtaskTot }

/-- With the kernel's `sort` this is the plan of the module. -/
theorem planBy_rearrangement (sort : KernelSort) : header.planBy sort.rearrangement = header.plan sort := rfl

end Header

end KernelStudio.EndToEnd
