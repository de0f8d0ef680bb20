/-
This file models the replaceable header of the end-to-end scheduling module.
The run-time fields of `struct subtask` (timer, thread, last release) belong to the run-mode state.
-/

import Mathlib.Algebra.GroupWithZero.Nat
import Mathlib.Algebra.Order.BigOperators.Group.List
import Mathlib.Data.List.GetD

namespace KernelStudio.EndToEnd

/-- The `CORE_NUM` cores of the module. -/
def coreNum : Nat := 3

/-- Unsigned 32-bit arithmetic keeps the low word. -/
def u32 (value : Nat) : Nat := value % 2 ^ 32

theorem u32_of_lt {value : Nat} (fits : value < 2 ^ 32) : u32 value = value := Nat.mod_eq_of_lt fits

/-- This is `struct task`. -/
structure Task where
  period : Nat
  subtaskCount : Nat
  subtaskStartIdx : Nat
  exeTime : Nat
  deriving DecidableEq, Inhabited

/-- These are the fields of `struct subtask` that the header initialises and the planner computes. -/
structure Subtask where
  taskId : Nat
  subtaskId : Nat
  exeTime : Nat
  loopCount : Nat := 0
  cumulativeExeTime : Nat := 0
  core : Nat := 0
  priority : Nat := 0
  deriving DecidableEq, Inhabited

/-- The header holds the arrays `tasks[]` and `subtasks[]`. -/
structure Header where
  tasks : List Task
  subtasks : List Subtask
  deriving DecidableEq

namespace Header

variable (header : Header)

def taskTot : Nat := header.tasks.length

def subtaskTot : Nat := header.subtasks.length

def task (k : Nat) : Task := header.tasks.getD k default

def subtask (i : Nat) : Subtask := header.subtasks.getD i default

/-- The pointer `parent` of a subtask thread. -/
def parent (i : Nat) : Task := header.task (header.subtask i).taskId

/-- The index of `subtasks[parent->subtask_start_idx]`. -/
def firstIdx (i : Nat) : Nat := (header.parent i).subtaskStartIdx

/-- The index of the pointer `successor`. -/
def successorIdx (i : Nat) : Nat := (header.parent i).subtaskStartIdx + (header.subtask i).subtaskId + 1

/-- The test `cur->subtask_id < parent->subtask_count - 1` in unsigned arithmetic. -/
def hasSuccessor (i : Nat) : Bool :=
  (header.subtask i).subtaskId < u32 ((header.parent i).subtaskCount + (2 ^ 32 - 1))

end Header

/-- Each field of a task is an unsigned word. -/
def Task.Words (task : Task) : Prop :=
  task.period < 2 ^ 32 ∧ task.subtaskCount < 2 ^ 32 ∧ task.subtaskStartIdx < 2 ^ 32 ∧ task.exeTime < 2 ^ 32

/-- Each field of a subtask is an unsigned word. -/
def Subtask.Words (subtask : Subtask) : Prop :=
  subtask.taskId < 2 ^ 32 ∧ subtask.subtaskId < 2 ^ 32 ∧ subtask.exeTime < 2 ^ 32 ∧
    subtask.loopCount < 2 ^ 32 ∧ subtask.cumulativeExeTime < 2 ^ 32 ∧
    subtask.core < 2 ^ 32 ∧ subtask.priority < 2 ^ 32

instance (task : Task) : Decidable task.Words :=
  inferInstanceAs (Decidable (_ ∧ _ ∧ _ ∧ _))

instance (subtask : Subtask) : Decidable subtask.Words :=
  inferInstanceAs (Decidable (_ ∧ _ ∧ _ ∧ _ ∧ _ ∧ _ ∧ _))

/-- The subtask ranges tile `subtasks[]` in order, the ids match, and each quantity is at least one. -/
structure Header.WellFormed (header : Header) : Prop where
  starts : ∀ k < header.taskTot, (header.task k).subtaskStartIdx =
    ((header.tasks.take k).map Task.subtaskCount).sum
  total : header.subtaskTot = (header.tasks.map Task.subtaskCount).sum
  ids : ∀ k < header.taskTot, ∀ j < (header.task k).subtaskCount,
    (header.subtask ((header.task k).subtaskStartIdx + j)).taskId = k ∧
      (header.subtask ((header.task k).subtaskStartIdx + j)).subtaskId = j
  counts : ∀ task ∈ header.tasks, 1 ≤ task.subtaskCount
  periods : ∀ task ∈ header.tasks, 1 ≤ task.period
  exeTimes : ∀ subtask ∈ header.subtasks, 1 ≤ subtask.exeTime
  taskWords : ∀ task ∈ header.tasks, task.Words
  subtaskWords : ∀ subtask ∈ header.subtasks, subtask.Words

/-- A task table is a well-formed header. -/
structure Table extends Header where
  wellFormed : toHeader.WellFormed

/-- Two subtasks are consecutive in one task of the header. -/
structure Header.Consecutive (header : Header) (p s : Nat) : Prop where
  before : p < header.subtaskTot
  after : s < header.subtaskTot
  sameTask : (header.subtask s).taskId = (header.subtask p).taskId
  next : (header.subtask s).subtaskId = (header.subtask p).subtaskId + 1

/-- A position below a sum of block lengths lies in exactly one block. -/
theorem exists_block {α : Type} (length : α → Nat) (blocks : List α) {position : Nat}
    (inside : position < (blocks.map length).sum) :
    ∃ k j, ∃ found : k < blocks.length, j < length blocks[k] ∧
      position = ((blocks.take k).map length).sum + j := by
  induction blocks generalizing position with
  | nil => simp at inside
  | cons block rest ih =>
      by_cases here : position < length block
      · exact ⟨0, position, by simp, here, by simp⟩
      · have later : position - length block < (rest.map length).sum := by
          simp only [List.map_cons, List.sum_cons] at inside
          omega
        obtain ⟨k, j, found, within, place⟩ := ih later
        refine ⟨k + 1, j, by simpa using found, by simpa using within, ?_⟩
        simp only [List.take_succ_cons, List.map_cons, List.sum_cons]
        omega

namespace Header

variable {header : Header}

theorem task_mem {k : Nat} (inside : k < header.taskTot) : header.task k ∈ header.tasks := by
  unfold task
  rw [List.getD_eq_getElem _ _ inside]
  exact List.getElem_mem inside

theorem subtask_mem {i : Nat} (inside : i < header.subtaskTot) : header.subtask i ∈ header.subtasks := by
  unfold subtask
  rw [List.getD_eq_getElem _ _ inside]
  exact List.getElem_mem inside

/-- Each block of subtasks ends inside the array. -/
theorem WellFormed.block_end (wf : header.WellFormed) {k : Nat} (inside : k < header.taskTot) :
    (header.task k).subtaskStartIdx + (header.task k).subtaskCount ≤ header.subtaskTot := by
  have split := List.sum_take_add_sum_drop (header.tasks.map Task.subtaskCount) (k + 1)
  have last : ((header.tasks.map Task.subtaskCount).take (k + 1)).sum =
      (header.task k).subtaskStartIdx + (header.task k).subtaskCount := by
    have bound : k < (header.tasks.map Task.subtaskCount).length := by simpa [taskTot] using inside
    rw [List.sum_take_succ _ _ bound, wf.starts k inside, List.map_take, List.getElem_map]
    congr 2
    exact (List.getD_eq_getElem _ _ inside).symm
  rw [wf.total]
  omega

/-- Each subtask sits in its own task's block at its own id. -/
theorem WellFormed.position (wf : header.WellFormed) {i : Nat} (inside : i < header.subtaskTot) :
    (header.subtask i).taskId < header.taskTot ∧
      (header.subtask i).subtaskId < (header.parent i).subtaskCount ∧
      i = header.firstIdx i + (header.subtask i).subtaskId := by
  rw [wf.total] at inside
  obtain ⟨k, j, found, within, place⟩ := exists_block Task.subtaskCount header.tasks inside
  have entry : header.task k = header.tasks[k] := List.getD_eq_getElem _ _ found
  rw [← wf.starts k found] at place
  obtain ⟨sameTask, sameId⟩ := wf.ids k found j (entry ▸ within)
  rw [← place] at sameTask sameId
  refine ⟨sameTask ▸ found, ?_, ?_⟩
  · rw [parent, sameTask, sameId, entry]
    exact within
  · rw [firstIdx, parent, sameTask, sameId]
    exact place

theorem WellFormed.parent_mem (wf : header.WellFormed) {i : Nat} (inside : i < header.subtaskTot) :
    header.parent i ∈ header.tasks := task_mem (wf.position inside).1

/-- The thread's test holds exactly when the task has a later subtask. -/
theorem WellFormed.hasSuccessor_iff (wf : header.WellFormed) {i : Nat} (inside : i < header.subtaskTot) :
    header.hasSuccessor i = true ↔ (header.subtask i).subtaskId + 1 < (header.parent i).subtaskCount := by
  have positive := wf.counts _ (wf.parent_mem inside)
  have word := (wf.taskWords _ (wf.parent_mem inside)).2.1
  have value : u32 ((header.parent i).subtaskCount + (2 ^ 32 - 1)) = (header.parent i).subtaskCount - 1 := by
    unfold u32
    omega
  simp only [hasSuccessor, value, decide_eq_true_eq]
  omega

/-- The first subtask of a task carries id zero. -/
theorem WellFormed.first (wf : header.WellFormed) {k : Nat} (inside : k < header.taskTot) :
    (header.task k).subtaskStartIdx < header.subtaskTot ∧
      (header.subtask (header.task k).subtaskStartIdx).taskId = k ∧
      (header.subtask (header.task k).subtaskStartIdx).subtaskId = 0 := by
  have positive := wf.counts _ (task_mem inside)
  have bound := wf.block_end inside
  have place := wf.ids k inside 0 (by omega)
  rw [Nat.add_zero] at place
  exact ⟨by omega, place⟩

/-- A successor stands right behind its predecessor. -/
theorem WellFormed.successorIdx_eq (wf : header.WellFormed) {i : Nat} (inside : i < header.subtaskTot) :
    header.successorIdx i = i + 1 := by
  have place := (wf.position inside).2.2
  unfold firstIdx at place
  unfold successorIdx
  omega

/-- The thread's successor shares its task and carries the next id. -/
theorem WellFormed.consecutive (wf : header.WellFormed) {i : Nat} (inside : i < header.subtaskTot)
    (more : header.hasSuccessor i = true) : header.Consecutive i (i + 1) := by
  have room := (wf.hasSuccessor_iff inside).mp more
  obtain ⟨known, _, place⟩ := wf.position inside
  have bound := wf.block_end known
  have ids := wf.ids _ known _ room
  unfold firstIdx parent at place
  unfold parent at room
  rw [show (header.task (header.subtask i).taskId).subtaskStartIdx +
    ((header.subtask i).subtaskId + 1) = i + 1 by omega] at ids
  exact ⟨inside, by omega, ids.1, ids.2⟩

variable {p s : Nat}

theorem Consecutive.eq (wf : header.WellFormed) (pair : header.Consecutive p s) : s = p + 1 := by
  have left := (wf.position pair.before).2.2
  have right := (wf.position pair.after).2.2
  unfold firstIdx parent at left right
  rw [pair.sameTask, pair.next] at right
  omega

theorem Consecutive.parent_eq (pair : header.Consecutive p s) : header.parent s = header.parent p := by
  unfold parent
  rw [pair.sameTask]

theorem Consecutive.hasSuccessor (wf : header.WellFormed) (pair : header.Consecutive p s) :
    header.hasSuccessor p = true := by
  have room := (wf.position pair.after).2.1
  rw [pair.parent_eq, pair.next] at room
  exact (wf.hasSuccessor_iff pair.before).mpr room

end Header

/-- One task of period two with two subtasks of one millisecond each. -/
def pairTable : Table where
  tasks := [⟨2, 2, 0, 2⟩]
  subtasks := [⟨0, 0, 1, 100, 1, 0, 50⟩, ⟨0, 1, 1, 100, 2, 1, 50⟩]
  wellFormed := by constructor <;> decide

theorem pairTable_consecutive : pairTable.Consecutive 0 1 := by constructor <;> decide

end KernelStudio.EndToEnd
