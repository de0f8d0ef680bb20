/-
This file proves what first-fit leaves on each core, for tables that are accepted and for tables that are not.
A rejected subtask fills the first core for good, and the other cores keep exact accounts.
-/

import KernelStudio.Proof.EndToEnd.Priority
import KernelStudio.Proof.EndToEnd.Schedulability

namespace KernelStudio.EndToEnd

namespace Header

variable (header : Header)

/-- The largest period of the table. -/
def longestPeriod : Nat := (header.tasks.map Task.period).foldl max 0

/-- The exact share of a subtask in the largest period, rounded down. -/
def share (i : Nat) : Nat := (header.subtask i).exeTime * header.longestPeriod / (header.parent i).period

/-- The placement when the subtasks before a turn have been placed. -/
def turn (before : List Nat) : Placement :=
  before.foldl (header.timed.place header.accumulate.hyperPeriod) { core := fun i => (header.subtask i).core }

/-- The fit test of a turn places a subtask on a core. -/
def PlacedByFit (before : List Nat) (i j : Nat) : Prop :=
  header.timed.fits header.accumulate.hyperPeriod (header.turn before) i j = true ∧
    (header.timed.place header.accumulate.hyperPeriod (header.turn before) i).core i = j

/-- First-fit keeps exact accounts of the cores behind the first one, tries the cores in their order, and does not
use the first core any more when it has rejected a subtask. -/
structure FirstFit (sort : KernelSort) : Prop where
  cores : ∀ i < header.subtaskTot, ((header.plan sort).header.subtask i).core < coreNum
  accounts : ∀ core < coreNum, 1 ≤ core ∨ (header.plan sort).invalid = false →
    (header.plan sort).aggTime core = (((header.plan sort).members core).map header.share).sum ∧
      (header.plan sort).aggTime core ≤ header.longestPeriod
  turns : ∀ before i after, header.placementOrder sort = before ++ i :: after → ∀ j < coreNum,
    header.PlacedByFit before i j →
      ∀ earlier < j, header.longestPeriod < (header.turn before).aggTime earlier + header.share i
  contained : ∀ before i middle k after, header.placementOrder sort = before ++ i :: (middle ++ k :: after) →
    (∀ j < coreNum, header.longestPeriod < (header.turn before).aggTime j + header.share i) →
      ¬ header.PlacedByFit before i 0 ∧ ¬ header.PlacedByFit (before ++ i :: middle) k 0

variable {header} {hyperPeriod : Nat} {placement : Placement} {placed : List Nat} {i : Nat}

/-- The accounts of a placement that may have rejected subtasks. -/
structure Contained (header : Header) (hyperPeriod : Nat) (placement : Placement) (placed : List Nat) : Prop where
  account : ∀ core < coreNum, 1 ≤ core ∨ placement.invalid = false →
    placement.aggTime core = ((placement.members placed core).map (header.scaledTime hyperPeriod)).sum
  bound : ∀ core < coreNum, placement.aggTime core ≤ hyperPeriod
  full : placement.invalid = true → placement.aggTime 0 = hyperPeriod

/-- Without wrap, the fit test compares exactly. -/
theorem NoWrapAt.fits_iff (exact : header.NoWrapAt hyperPeriod placement i) {j : Nat} (inside : j < coreNum)
    (before : ∀ earlier < j, header.fits hyperPeriod placement i earlier = false) :
    header.fits hyperPeriod placement i j = true ↔
      placement.aggTime j + header.scaledTime hyperPeriod i ≤ hyperPeriod := by
  rw [fits, u32_of_lt (exact.sum j inside before), decide_eq_true_eq]

/-- A full core takes no more time. -/
theorem Contained.fits_zero (contained : header.Contained hyperPeriod placement placed)
    (exact : header.NoWrapAt hyperPeriod placement i) (positive : 0 < header.scaledTime hyperPeriod i)
    (rejected : placement.invalid = true) : header.fits hyperPeriod placement i 0 = false := by
  rw [← Bool.not_eq_true, exact.fits_iff (by decide) fun _ none => absurd none (Nat.not_lt_zero _),
    contained.full rejected]
  omega

/-- Each turn keeps the accounts. -/
theorem Contained.place (contained : header.Contained hyperPeriod placement placed) (fresh : i ∉ placed)
    (exact : header.NoWrapAt hyperPeriod placement i) (positive : 0 < header.scaledTime hyperPeriod i) :
    header.Contained hyperPeriod (header.place hyperPeriod placement i) (placed ++ [i]) := by
  rcases header.place_cases i with ⟨j, inside, passes, before, result⟩ | ⟨_, result⟩
  · have fit := (exact.fits_iff inside before).mp passes
    have later (rejected : placement.invalid = true) : 0 ≠ j := by
      rintro rfl
      rw [contained.fits_zero exact positive rejected] at passes
      contradiction
    rw [result, u32_of_lt (exact.sum j inside before)]
    refine ⟨fun core known valid => ?_, fun core known => ?_, fun rejected => ?_⟩
    · rw [Placement.members_concat fresh]
      by_cases own : j = core
      · subst own
        simp [contained.account j known valid]
      · simp [own, Function.update_of_ne (Ne.symm own), contained.account core known valid]
    · by_cases own : j = core
      · subst own
        simpa using fit
      · simpa [Function.update_of_ne (Ne.symm own)] using contained.bound core known
    · change placement.invalid = true at rejected
      simpa [Function.update_of_ne (later rejected)] using contained.full rejected
  · rw [result]
    refine ⟨fun core known valid => ?_, fun core known => ?_, fun _ => by simp⟩
    · have later : core ≠ 0 := by
        rintro rfl
        simp at valid
      rw [Placement.members_concat fresh, if_neg (Ne.symm later), List.append_nil]
      simpa [Function.update_of_ne later] using
        contained.account core known (.inl (Nat.one_le_iff_ne_zero.mpr later))
    · by_cases own : core = 0
      · simp [own]
      · simpa [Function.update_of_ne own] using contained.bound core known

/-- The accounts hold after each part of the loop. -/
theorem Contained.foldl (rest : List Nat) (contained : header.Contained hyperPeriod placement placed)
    (distinct : (placed ++ rest).Nodup) (exact : header.NoWrap hyperPeriod placement rest)
    (positive : ∀ i ∈ rest, 0 < header.scaledTime hyperPeriod i) :
    header.Contained hyperPeriod (rest.foldl (header.place hyperPeriod) placement) (placed ++ rest) := by
  induction rest generalizing placement placed with
  | nil => simpa using contained
  | cons i rest ih =>
      have fresh : i ∉ placed := fun known =>
        (List.nodup_append.mp distinct).2.2 i known i List.mem_cons_self rfl
      have step := contained.place fresh exact.1 (positive i List.mem_cons_self)
      have result := ih step (by simpa using distinct) exact.2
        fun k later => positive k (List.mem_cons_of_mem i later)
      simpa using result

/-- A loop without wrap has no wrap at a later turn. -/
theorem NoWrap.after {before rest : List Nat} (exact : header.NoWrap hyperPeriod placement (before ++ rest)) :
    header.NoWrap hyperPeriod (before.foldl (header.place hyperPeriod) placement) rest := by
  induction before generalizing placement with
  | nil => exact exact
  | cons i before ih => exact ih exact.2

theorem NoWrap.before {before rest : List Nat} (exact : header.NoWrap hyperPeriod placement (before ++ rest)) :
    header.NoWrap hyperPeriod placement before := by
  induction before generalizing placement with
  | nil => trivial
  | cons i before ih => exact ⟨exact.1, ih exact.2⟩

theorem turn_append (header : Header) (before rest : List Nat) : header.turn (before ++ rest) =
    rest.foldl (header.timed.place header.accumulate.hyperPeriod) (header.turn before) := List.foldl_append

/-- The first loop finds the largest period. -/
theorem hyperPeriod_longest (header : Header) : header.accumulate.hyperPeriod = header.longestPeriod := by
  have tasks : header.tasks = (List.range header.taskTot).map header.task := by
    refine List.ext_getElem (by simp [taskTot]) fun k inside _ => ?_
    rw [List.getElem_map, List.getElem_range, task, List.getD_eq_getElem _ _ inside]
  rw [hyperPeriod_eq, longestPeriod, tasks, List.map_map, List.foldl_map]
  rfl

section Exact

variable {sort : KernelSort} (wf : header.WellFormed) (exact : header.PlacementExact sort)

include exact

/-- No step wraps at a turn. -/
theorem noWrap_turn {before after : List Nat} (order : header.placementOrder sort = before ++ i :: after) :
    header.timed.NoWrapAt header.accumulate.hyperPeriod (header.turn before) i := by
  rw [PlacementExact, order] at exact
  exact exact.after.1

include wf

/-- The time that the loop accounts for is the exact share. -/
theorem timed_scaledTime_share (listed : i ∈ header.placementOrder sort) :
    header.timed.scaledTime header.accumulate.hyperPeriod i = header.share i := by
  have inside := List.mem_range.mp ((placementOrder_perm sort header).mem_iff.mp listed)
  have product := NoWrap.product exact i listed
  rw [timed_subtask inside] at product
  rw [timed_scaledTime wf inside, scaledTime, u32_of_lt product, hyperPeriod_longest, share]

/-- No subtask has less than its own time in the largest period. -/
theorem scaledTime_pos (listed : i ∈ header.placementOrder sort) :
    0 < header.timed.scaledTime header.accumulate.hyperPeriod i := by
  have inside := List.mem_range.mp ((placementOrder_perm sort header).mem_iff.mp listed)
  have longest := header.period_le_hyperPeriod (wf.position inside).1
  rw [timed_scaledTime_share wf exact listed, share, ← hyperPeriod_longest]
  exact Nat.div_pos (longest.trans (Nat.le_mul_of_pos_left _ (wf.exeTime_pos inside))) (wf.period_pos inside)

/-- The accounts hold at each turn. -/
theorem contained_turn {before after : List Nat} (order : header.placementOrder sort = before ++ after) :
    header.timed.Contained header.accumulate.hyperPeriod (header.turn before) before := by
  have start : header.timed.Contained header.accumulate.hyperPeriod
      { core := fun i => (header.subtask i).core } [] := ⟨fun _ _ _ => rfl, fun _ _ => Nat.zero_le _, by simp⟩
  have distinct := (placementOrder_perm sort header).nodup_iff.mpr List.nodup_range
  have result := start.foldl before (by
    rw [order] at distinct
    exact (List.nodup_append.mp distinct).1) (by
    rw [PlacementExact, order] at exact
    exact exact.before) fun i listed => scaledTime_pos wf exact (by
    rw [order]
    exact List.mem_append_left _ listed)
  exact result

/-- A subtask that passes no exact test is rejected. -/
theorem rejected_turn {before after : List Nat} (order : header.placementOrder sort = before ++ i :: after)
    (none : ∀ j < coreNum, header.longestPeriod < (header.turn before).aggTime j + header.share i) :
    (∀ j < coreNum, header.timed.fits header.accumulate.hyperPeriod (header.turn before) i j = false) ∧
      (header.turn (before ++ [i])).invalid = true := by
  have listed : i ∈ header.placementOrder sort := by
    rw [order]
    simp
  have here := noWrap_turn exact order
  have fails (j : Nat) (inside : j < coreNum) :
      header.timed.fits header.accumulate.hyperPeriod (header.turn before) i j = false := by
    induction j using Nat.strong_induction_on with
    | _ j ih =>
        have earlier := none j inside
        rw [← timed_scaledTime_share wf exact listed, ← hyperPeriod_longest] at earlier
        rw [← Bool.not_eq_true, here.fits_iff inside fun k less => ih k less (less.trans inside)]
        omega
  refine ⟨fails, ?_⟩
  rw [turn_append, List.foldl_cons, List.foldl_nil]
  rcases header.timed.place_cases i with ⟨j, inside, passes, _⟩ | ⟨_, result⟩
  · rw [fails j inside] at passes
    contradiction
  · rw [result]

end Exact

end Header

/-- Without wrap, the placement loop of `E2E_init` is first-fit, also for tables that it rejects. -/
theorem first_fit_accounts (sort : KernelSort) (table : Table) (exact : table.PlacementExact sort) :
    table.FirstFit sort := by
  have wf := table.wellFormed
  have order := table.placementOrder_perm sort
  refine ⟨fun i inside => Header.plan_core_lt sort inside, fun core known valid => ?_,
    fun before i after split j inside fit earlier less => ?_, fun before i middle k after split none => ?_⟩
  · have contained := Header.contained_turn wf exact (table.placementOrder sort).append_nil.symm
    have members : ((table.plan sort).members core).Perm
        ((table.placement sort).members (table.placementOrder sort) core) := by
      rw [Plan.members, Header.plan_subtaskTot]
      refine List.Perm.trans (List.Perm.of_eq (List.filter_congr fun i inside => ?_)) (order.symm.filter _)
      rw [(Header.plan_subtask sort (List.mem_range.mp inside)).2.2.2]
    have shares := List.map_congr_left fun i
        (listed : i ∈ (table.placement sort).members (table.placementOrder sort) core) =>
      Header.timed_scaledTime_share wf exact (List.mem_of_mem_filter listed)
    rw [(members.map _).sum_eq, ← shares, ← Header.hyperPeriod_longest]
    exact ⟨contained.account core known valid, contained.bound core known⟩
  · obtain ⟨passes, core⟩ := fit
    have listed : i ∈ table.placementOrder sort := by
      rw [split]
      simp
    have here := Header.noWrap_turn exact split
    rcases table.timed.place_cases i with ⟨first, bound, _, fails, result⟩ | ⟨fails, _⟩
    · rw [result] at core
      obtain rfl : first = j := by simpa using core
      have missed := fails earlier less
      rw [← Bool.not_eq_true, here.fits_iff (less.trans inside) fun k before => fails k (before.trans less),
        Header.timed_scaledTime_share wf exact listed, Header.hyperPeriod_longest] at missed
      exact Nat.lt_of_not_le missed
    · rw [fails j inside] at passes
      contradiction
  · obtain ⟨fails, rejected⟩ := Header.rejected_turn wf exact split none
    refine ⟨fun fit => ?_, fun fit => ?_⟩
    · rw [Header.PlacedByFit, fails 0 (by decide)] at fit
      exact absurd fit.1 Bool.false_ne_true
    · have later : table.placementOrder sort = (before ++ i :: middle) ++ k :: after := by rw [split]; simp
      have contained := Header.contained_turn wf exact later
      have kept : (table.turn (before ++ i :: middle)).invalid = true := by
        have cut : before ++ i :: middle = before ++ [i] ++ middle := by simp
        rw [cut, Header.turn_append]
        exact invalid_foldl middle rejected
      have listed : k ∈ table.placementOrder sort := by
        rw [later]
        simp
      have fails := contained.fits_zero (Header.noWrap_turn exact later) (Header.scaledTime_pos wf exact listed) kept
      rw [Header.PlacedByFit, fails] at fit
      exact absurd fit.1 Bool.false_ne_true

/-- Four full tasks for three cores. -/
def overloadedTable : Table where
  tasks := [⟨1, 1, 0, 1⟩, ⟨1, 1, 1, 1⟩, ⟨1, 1, 2, 1⟩, ⟨1, 1, 3, 1⟩]
  subtasks := [⟨0, 0, 1, 0, 1, 0, 0⟩, ⟨1, 0, 1, 0, 1, 0, 0⟩, ⟨2, 0, 1, 0, 1, 0, 0⟩, ⟨3, 0, 1, 0, 1, 0, 0⟩]
  wellFormed := by constructor <;> decide

/-- The overloaded table is rejected, and its last core is still accounted for. -/
theorem first_fit_accounts_overloaded : (overloadedTable.plan insertionSort).invalid = true ∧
    (overloadedTable.plan insertionSort).aggTime 2 =
      (((overloadedTable.plan insertionSort).members 2).map overloadedTable.share).sum := by
  have rejected : (overloadedTable.plan insertionSort).invalid = true := by decide +kernel
  have exact : overloadedTable.PlacementExact insertionSort := by decide +kernel
  have fit := first_fit_accounts insertionSort overloadedTable exact
  exact ⟨rejected, (fit.accounts 2 (by decide) (.inl (by decide))).1⟩

end KernelStudio.EndToEnd
