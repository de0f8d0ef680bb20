/-
This file proves which priorities the last loop of `E2E_init` assigns: they count down from 50 in each run of a core.
-/

import KernelStudio.Library.Runs
import KernelStudio.Proof.EndToEnd.Calibrate
import KernelStudio.Proof.EndToEnd.Placement

namespace KernelStudio.EndToEnd

open Runs

namespace Header

variable (header : Header) (subPtr : List Nat)

/-- The core of the subtask at a position of `sub_ptr`. -/
def coreIn (position : Nat) : Nat := (header.subtask (subPtr.getD position 0)).core

/-- The priorities and start addresses after the first positions of the priority loop. -/
structure Ranked (count : Nat) (ranking : Ranking) : Prop where
  priority : ∀ position < count, ranking.priority (subPtr.getD position 0) =
    u32 (50 + (2 ^ 32 - 1) * runIndex (header.coreIn subPtr) position)
  start : ∀ c position, ranking.startAddr c = some position →
    position < count ∧ runIndex (header.coreIn subPtr) position = 0 ∧ header.coreIn subPtr position = c
  found : ∀ position < count, ranking.startAddr (header.coreIn subPtr position) ≠ none

/-- A position of the priority loop starts a run or continues one. -/
theorem rank_cases (ranking : Ranking) (position : Nat) :
    (runIndex (header.coreIn subPtr) position = 0 ∧ header.rank subPtr ranking position =
      { priority := Function.update ranking.priority (subPtr.getD position 0) 50
        startAddr := Function.update ranking.startAddr (header.coreIn subPtr position) (some position) }) ∨
    (∃ before, position = before + 1 ∧ header.coreIn subPtr position = header.coreIn subPtr before ∧
      runIndex (header.coreIn subPtr) position = runIndex (header.coreIn subPtr) before + 1 ∧
      header.rank subPtr ranking position = { ranking with
        priority := Function.update ranking.priority (subPtr.getD position 0)
          (u32 (ranking.priority (subPtr.getD before 0) + (2 ^ 32 - 1))) }) := by
  unfold rank
  cases position with
  | zero => exact .inl ⟨rfl, rfl⟩
  | succ before =>
      by_cases same : header.coreIn subPtr (before + 1) = header.coreIn subPtr before
      · refine .inr ⟨before, rfl, same, if_pos same, ?_⟩
        dsimp only
        rw [if_neg (by simpa [coreIn] using same)]
        rfl
      · refine .inl ⟨if_neg same, ?_⟩
        dsimp only
        rw [if_pos (.inr same)]
        rfl

variable {header subPtr}

/-- The priority loop counts down from 50 in each run. -/
theorem ranked_range (distinct : subPtr.Nodup) (start : Nat → Nat) (count : Nat) (bound : count ≤ subPtr.length) :
    header.Ranked subPtr count ((List.range count).foldl (header.rank subPtr) { priority := start }) := by
  induction count with
  | zero => exact ⟨by simp, by simp, by simp⟩
  | succ count ih =>
      have ranked := ih (Nat.le_of_succ_le bound)
      rw [List.range_succ, List.foldl_append, List.foldl_cons, List.foldl_nil]
      generalize (List.range count).foldl (header.rank subPtr) { priority := start } = ranking at ranked
      have apart (position : Nat) (less : position < count) : subPtr.getD position 0 ≠ subPtr.getD count 0 := by
        rw [List.getD_eq_getElem _ _ (less.trans bound), List.getD_eq_getElem _ _ bound]
        exact fun same => absurd ((List.Nodup.getElem_inj_iff distinct).mp same) (Nat.ne_of_lt less)
      rcases header.rank_cases subPtr ranking count with ⟨zero, result⟩ | ⟨before, rfl, same, next, result⟩
      all_goals rw [result]
      · refine ⟨fun position inside => ?_, fun c position known => ?_, fun position inside => ?_⟩
        · rcases Nat.lt_succ_iff_lt_or_eq.mp inside with earlier | rfl
          · dsimp only
            rw [Function.update_of_ne (apart position earlier)]
            exact ranked.priority position earlier
          · rw [zero]
            exact Function.update_self _ _ _
        · by_cases own : c = header.coreIn subPtr count
          · subst own
            simp only [Function.update_self, Option.some.injEq] at known
            exact known ▸ ⟨Nat.lt_succ_self count, zero, rfl⟩
          · simp only [Function.update_of_ne own] at known
            obtain ⟨less, rest⟩ := ranked.start c position known
            exact ⟨Nat.lt_succ_of_lt less, rest⟩
        · by_cases own : header.coreIn subPtr position = header.coreIn subPtr count
          · simp [own]
          · simp only [Function.update_of_ne own]
            refine ranked.found position ((Nat.lt_succ_iff_lt_or_eq.mp inside).resolve_right ?_)
            rintro rfl
            exact own rfl
      · refine ⟨fun position inside => ?_, fun c position known => ?_, fun position inside => ?_⟩
        · rcases Nat.lt_succ_iff_lt_or_eq.mp inside with earlier | rfl
          · dsimp only
            rw [Function.update_of_ne (apart position earlier)]
            exact ranked.priority position earlier
          · dsimp only
            rw [Function.update_self, ranked.priority before (Nat.lt_succ_self before), next]
            simp only [u32]
            omega
        · obtain ⟨less, rest⟩ := ranked.start c position known
          exact ⟨Nat.lt_succ_of_lt less, rest⟩
        · rcases Nat.lt_succ_iff_lt_or_eq.mp inside with earlier | rfl
          · exact ranked.found position earlier
          · rw [same]
            exact ranked.found before (Nat.lt_succ_self before)

end Header

namespace Plan

variable (plan : Plan)

/-- The core of the subtask at a position of `sub_ptr`. -/
abbrev coreOf (position : Nat) : Nat := plan.header.coreIn plan.subPtr position

/-- The priority of the subtask at a position of `sub_ptr`. -/
def priorityOf (position : Nat) : Nat := (plan.header.subtask (plan.subtaskAt position)).priority

/-- The subtasks on one core. -/
def members (core : Nat) : List Nat :=
  (List.range plan.header.subtaskTot).filter fun i => (plan.header.subtask i).core = core

/-- Each priority is one of the real-time priorities, and they decrease on each core along `sub_ptr`. -/
structure PrioritiesLegal : Prop where
  legal : ∀ i < plan.header.subtaskTot,
    1 ≤ (plan.header.subtask i).priority ∧ (plan.header.subtask i).priority ≤ 99
  decreasing : ∀ first last, first < last → last < plan.header.subtaskTot →
    plan.coreOf first = plan.coreOf last → plan.priorityOf last < plan.priorityOf first

/-- The subtasks of each core stand together in `sub_ptr`. -/
abbrev CoresGrouped : Prop := Grouped plan.coreOf plan.header.subtaskTot

variable {plan} {core position : Nat}

/-- The priorities count down in each run of `sub_ptr`, and the start addresses are starts of runs. -/
structure Counted (plan : Plan) : Prop where
  priority : ∀ position < plan.header.subtaskTot,
    plan.priorityOf position = u32 (50 + (2 ^ 32 - 1) * runIndex plan.coreOf position)
  start : ∀ core, plan.startAddr core < plan.header.subtaskTot →
    runIndex plan.coreOf (plan.startAddr core) = 0 ∧ plan.coreOf (plan.startAddr core) = core
  found : ∀ position < plan.header.subtaskTot, plan.startAddr (plan.coreOf position) < plan.header.subtaskTot
  limit : ∀ core, plan.startAddr core ≤ plan.header.subtaskTot

theorem Indexed.map_subtaskAt (indexed : plan.Indexed) :
    (List.range plan.header.subtaskTot).map plan.subtaskAt = plan.subPtr := by
  refine List.ext_getElem (by rw [List.length_map, List.length_range, indexed.length]) fun position _ inside => ?_
  rw [List.getElem_map, List.getElem_range, subtaskAt, List.getD_eq_getElem _ _ inside]

theorem Indexed.subtaskAt_lt (indexed : plan.Indexed) (inside : position < plan.header.subtaskTot) :
    plan.subtaskAt position < plan.header.subtaskTot := by
  rw [← List.mem_range, ← indexed.subPtr.mem_iff, ← indexed.map_subtaskAt]
  exact List.mem_map_of_mem (List.mem_range.mpr inside)

theorem Indexed.exists_position (indexed : plan.Indexed) {i : Nat} (inside : i < plan.header.subtaskTot) :
    ∃ position < plan.header.subtaskTot, plan.subtaskAt position = i := by
  rw [← List.mem_range, ← indexed.subPtr.mem_iff, ← indexed.map_subtaskAt, List.mem_map] at inside
  obtain ⟨position, known, same⟩ := inside
  exact ⟨position, List.mem_range.mp known, same⟩

/-- The subtasks on a core are those at the positions of the core. -/
theorem Indexed.members_perm (indexed : plan.Indexed) (core : Nat) : (plan.members core).Perm
    ((positions plan.coreOf plan.header.subtaskTot core).map plan.subtaskAt) := by
  have filtered := indexed.subPtr.symm.filter fun i => (plan.header.subtask i).core = core
  rw [← indexed.map_subtaskAt, List.filter_map] at filtered
  exact filtered

theorem Indexed.members_length (indexed : plan.Indexed) (core : Nat) :
    (plan.members core).length = (positions plan.coreOf plan.header.subtaskTot core).length := by
  rw [(indexed.members_perm core).length_eq, List.length_map]

end Plan

namespace Header

theorem withPriorities_core (header : Header) (ranking : Ranking) (i : Nat) :
    ((header.withPriorities ranking).subtask i).core = (header.subtask i).core := by
  by_cases inside : i < header.subtaskTot
  · rw [withPriorities_subtask ranking inside]
  · have outside : header.subtasks.length ≤ i := Nat.le_of_not_lt inside
    simp [withPriorities, subtask, outside]

/-- Each plan counts its priorities down. -/
theorem plan_counted (sort : KernelSort) (header : Header) : (header.plan sort).Counted := by
  have indexed := header.plan_indexed sort
  have total := plan_subtaskTot sort header
  have length := indexed.length
  rw [total] at length
  let placed := header.timed.withCores (header.placement sort)
  let ranking := (List.range header.subtaskTot).foldl (placed.rank (header.plan sort).subPtr)
    { priority := fun i => (header.subtask i).priority }
  have ranked : placed.Ranked (header.plan sort).subPtr header.subtaskTot ranking :=
    ranked_range (indexed.subPtr.nodup_iff.mpr List.nodup_range) _ _ length.ge
  have cores : (header.plan sort).coreOf = placed.coreIn (header.plan sort).subPtr :=
    funext fun position => withPriorities_core placed ranking _
  have start (core : Nat) : (header.plan sort).startAddr core =
      (ranking.startAddr core).getD header.subtaskTot := rfl
  refine ⟨fun position inside => ?_, fun core inside => ?_, fun position inside => ?_, fun core => ?_⟩
  · have within := indexed.subtaskAt_lt inside
    rw [total] at inside within
    rw [cores, ← ranked.priority position inside]
    change ((placed.withPriorities ranking).subtask _).priority = _
    rw [withPriorities_subtask ranking (within.trans_eq (placed_subtaskTot sort).symm)]
    rfl
  · rw [start, total] at inside
    rw [start, cores]
    cases known : ranking.startAddr core with
    | none => simp [known] at inside
    | some position => exact (ranked.start core position known).2
  · rw [total] at inside ⊢
    rw [start, cores]
    obtain ⟨position, known⟩ := Option.ne_none_iff_exists'.mp (ranked.found position inside)
    rw [known]
    exact (ranked.start _ position known).1
  · rw [total, start]
    cases known : ranking.startAddr core with
    | none => exact le_rfl
    | some position => exact (ranked.start core position known).1.le

end Header

namespace Plan

variable {plan : Plan} {core position : Nat}

/-- A countdown from 50 is exact for the first 50 positions of a run. -/
theorem countdown {index : Nat} (few : index ≤ 50) : u32 (50 + (2 ^ 32 - 1) * index) = 50 - index := by
  unfold u32
  omega

/-- In grouped cores, a priority counts the subtasks of the core that stand before it. -/
theorem Counted.priority_eq (counted : plan.Counted) (grouped : plan.CoresGrouped)
    (inside : position < plan.header.subtaskTot) (few : countBefore plan.coreOf position ≤ 50) :
    plan.priorityOf position = 50 - countBefore plan.coreOf position := by
  rw [counted.priority position inside, grouped.runIndex_eq inside, countdown few]

/-- Priorities that decrease along `sub_ptr` start only one run on each core. -/
theorem PrioritiesLegal.grouped (legal : plan.PrioritiesLegal) (counted : plan.Counted) : plan.CoresGrouped := by
  refine grouped_of_fresh fun position inside zero earlier less same => ?_
  obtain ⟨start, bound, first, constant⟩ := exists_start plan.coreOf earlier
  have before := bound.trans_lt less
  have order := legal.decreasing start position before inside ((constant start le_rfl bound).trans same)
  rw [counted.priority start (before.trans inside), counted.priority position inside, first, zero] at order
  exact Nat.lt_irrefl _ order

/-- On a core with more than 50 subtasks, one has priority zero. -/
theorem exists_priority_zero (counted : plan.Counted) (indexed : plan.Indexed) (grouped : plan.CoresGrouped)
    (many : 50 < (plan.members core).length) :
    ∃ position < plan.header.subtaskTot, plan.priorityOf position = 0 := by
  rw [indexed.members_length, ← List.mem_range, ← map_countBefore, List.mem_map] at many
  obtain ⟨position, known, last⟩ := many
  have inside := (mem_positions.mp known).1
  refine ⟨position, inside, ?_⟩
  rw [counted.priority_eq grouped inside last.le, last]

section Few

variable (counted : plan.Counted) (indexed : plan.Indexed) (grouped : plan.CoresGrouped)
  (few : ∀ core, (plan.members core).length ≤ 50)

include counted indexed grouped few

theorem Counted.early (inside : position < plan.header.subtaskTot) : countBefore plan.coreOf position < 50 ∧
    plan.priorityOf position = 50 - countBefore plan.coreOf position := by
  have small : countBefore plan.coreOf position < 50 :=
    (countBefore_lt inside rfl).trans_le (indexed.members_length _ ▸ few _)
  exact ⟨small, counted.priority_eq grouped inside small.le⟩

/-- With few subtasks on each core, the priorities decrease along `sub_ptr`. -/
theorem Counted.decreasing {first last : Nat} (less : first < last) (inside : last < plan.header.subtaskTot)
    (same : plan.coreOf first = plan.coreOf last) : plan.priorityOf last < plan.priorityOf first := by
  obtain ⟨small, value⟩ := counted.early indexed grouped few inside
  have order := countBefore_lt_countBefore less same
  rw [value, (counted.early indexed grouped few (less.trans inside)).2]
  omega

end Few

end Plan

namespace Header

variable (sort : KernelSort) {header : Header}

theorem plan_core_lt {i : Nat} (inside : i < header.subtaskTot) :
    ((header.plan sort).header.subtask i).core < coreNum :=
  (plan_subtask sort inside).2.2.2.trans_lt (placement_core_lt sort inside)

/-- No subtask is outside the cores of the module. -/
theorem members_few (few : ∀ core < coreNum, ((header.plan sort).members core).length ≤ 50) (core : Nat) :
    ((header.plan sort).members core).length ≤ 50 := by
  by_cases known : core < coreNum
  · exact few core known
  · have none : (header.plan sort).members core = [] := by
      refine List.filter_eq_nil_iff.mpr fun i inside own => known ?_
      rw [List.mem_range, plan_subtaskTot] at inside
      exact of_decide_eq_true own ▸ plan_core_lt sort inside
    rw [none]
    exact Nat.zero_le 50

end Header

/-- The priorities are legal exactly when the cores are grouped and take no more than 50 subtasks each. -/
theorem priorities_legal_iff (sort : KernelSort) (table : Table) : (table.plan sort).PrioritiesLegal ↔
    (table.plan sort).CoresGrouped ∧ ∀ core < coreNum, ((table.plan sort).members core).length ≤ 50 := by
  have indexed := table.plan_indexed sort
  have counted := table.plan_counted sort
  constructor
  · intro legal
    have grouped := legal.grouped counted
    refine ⟨grouped, fun core _ => Nat.le_of_not_lt fun many => ?_⟩
    obtain ⟨position, inside, zero⟩ := Plan.exists_priority_zero counted indexed grouped many
    have positive := (legal.legal _ (indexed.subtaskAt_lt inside)).1
    rw [Plan.priorityOf] at zero
    omega
  · rintro ⟨grouped, known⟩
    have few := Header.members_few sort known
    refine ⟨fun i inside => ?_, fun first last less inside => counted.decreasing indexed grouped few less inside⟩
    obtain ⟨position, within, rfl⟩ := indexed.exists_position inside
    obtain ⟨small, value⟩ := counted.early indexed grouped few within
    rw [Plan.priorityOf] at value
    omega

/-- 51 tasks of one subtask each. -/
def crowdedHeader : Header :=
  singletons 51 (fun k => ⟨51, 1, k, 1⟩) fun i => { taskId := i, subtaskId := 0, exeTime := 1 }

theorem crowded_wellFormed : crowdedHeader.WellFormed := by
  refine singletons_wellFormed (fun k inside => ?_) fun i inside => ?_
  · simp only [Task.Words, true_and]
    omega
  · simp only [Subtask.Words, true_and]
    omega

/-- The first core has room for all of them. -/
def crowdedTable : Table := ⟨crowdedHeader, crowded_wellFormed⟩

/-- In an accepted plan, the last of 51 subtasks on one core has priority zero. -/
theorem priority_illegal : (crowdedTable.plan insertionSort).invalid = false ∧
    ((crowdedTable.plan insertionSort).header.subtask 50).priority = 0 ∧
    ¬ (crowdedTable.plan insertionSort).PrioritiesLegal := by
  have accepted : (crowdedTable.plan insertionSort).invalid = false := by decide +kernel
  have last : ((crowdedTable.plan insertionSort).header.subtask 50).priority = 0 := by decide +kernel
  have total : 50 < (crowdedTable.plan insertionSort).header.subtaskTot := by decide +kernel
  refine ⟨accepted, last, fun legal => ?_⟩
  have positive := (legal.legal 50 total).1
  rw [last] at positive
  exact absurd positive (by decide)

end KernelStudio.EndToEnd
