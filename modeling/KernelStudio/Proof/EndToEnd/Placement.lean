/-
This file proves when the placement loop keeps the exact utilisation of each core at one or below.
The loop accounts in whole units of the largest period, and truncation is its only loss.
-/

import KernelStudio.Proof.EndToEnd.Plan
import Mathlib.Algebra.BigOperators.Ring.Finset
import Mathlib.Algebra.BigOperators.Ring.List
import Mathlib.Data.Nat.Cast.Field
import Mathlib.Data.Rat.Cast.Order
import Mathlib.Tactic.FieldSimp
import Mathlib.Tactic.Linarith
import Mathlib.Tactic.Ring

namespace KernelStudio.EndToEnd

namespace Header

variable (header : Header) (hyperPeriod : Nat)

/-- No sum or product that this step of the placement loop evaluates exceeds a word. -/
structure NoWrapAt (placement : Placement) (i : Nat) : Prop where
  product : (header.subtask i).exeTime * hyperPeriod < 2 ^ 32
  sum : ∀ j < coreNum, (∀ earlier < j, header.fits hyperPeriod placement i earlier = false) →
    placement.aggTime j + header.scaledTime hyperPeriod i < 2 ^ 32

/-- No step of the placement loop wraps. -/
def NoWrap : Placement → List Nat → Prop
  | _, [] => True
  | placement, i :: rest =>
      header.NoWrapAt hyperPeriod placement i ∧ NoWrap (header.place hyperPeriod placement i) rest

instance (placement : Placement) (i : Nat) : Decidable (header.NoWrapAt hyperPeriod placement i) :=
  decidable_of_iff ((header.subtask i).exeTime * hyperPeriod < 2 ^ 32 ∧
      ∀ j < coreNum, (∀ earlier < j, header.fits hyperPeriod placement i earlier = false) →
        placement.aggTime j + header.scaledTime hyperPeriod i < 2 ^ 32)
    ⟨fun both => ⟨both.1, both.2⟩, fun exact => ⟨exact.product, exact.sum⟩⟩

instance decidableNoWrap : (placement : Placement) → (visited : List Nat) →
    Decidable (header.NoWrap hyperPeriod placement visited)
  | _, [] => isTrue trivial
  | placement, i :: rest =>
      have := decidableNoWrap (header.place hyperPeriod placement i) rest
      inferInstanceAs (Decidable (_ ∧ _))

/-- The exact utilisation of one core. -/
def utilisation (core : Nat) : Rat :=
  (((List.range header.subtaskTot).filter fun i => (header.subtask i).core = core).map fun i =>
    ((header.subtask i).exeTime : Rat) / (header.parent i).period).sum

end Header

/-- The subtasks of a list that a placement has put on one core. -/
def Placement.members (placement : Placement) (placed : List Nat) (core : Nat) : List Nat :=
  placed.filter fun i => placement.core i = core

variable {header : Header} {hyperPeriod : Nat} {placement : Placement}

/-- While nothing is rejected, each core's account is the sum of its members' times and fits. -/
structure Accounted (header : Header) (hyperPeriod : Nat) (placement : Placement) (placed : List Nat) :
    Prop where
  account : ∀ core < coreNum, placement.aggTime core =
    ((placement.members placed core).map (header.scaledTime hyperPeriod)).sum
  bound : ∀ core < coreNum, placement.aggTime core ≤ hyperPeriod

/-- A new subtask joins the members of its own core only. -/
theorem Placement.members_concat {placed : List Nat} {i : Nat} (fresh : i ∉ placed) (aggTime : Nat → Nat)
    (invalid : Bool) (j core : Nat) :
    Placement.members { aggTime, core := Function.update placement.core i j, invalid } (placed ++ [i]) core =
      placement.members placed core ++ if j = core then [i] else [] := by
  have old : placed.filter (fun k => Function.update placement.core i j k = core) =
      placed.filter (fun k => placement.core k = core) := by
    refine List.filter_congr fun k known => ?_
    have other : k ≠ i := fun same => fresh (same ▸ known)
    rw [Function.update_of_ne other]
  simp only [members, List.filter_append, old, List.filter_singleton, Function.update_self, Bool.cond_decide]

/-- A subtask that fits is added to the account of its core. -/
theorem accounted_place {placed : List Nat} (accounted : Accounted header hyperPeriod placement placed)
    {i : Nat} (fresh : i ∉ placed) (exact : header.NoWrapAt hyperPeriod placement i)
    (accepted : (header.place hyperPeriod placement i).invalid = false) :
    Accounted header hyperPeriod (header.place hyperPeriod placement i) (placed ++ [i]) := by
  rcases header.place_cases i with ⟨j, inside, passes, before, result⟩ | ⟨_, result⟩
  · have sum := exact.sum j inside before
    have fit : placement.aggTime j + header.scaledTime hyperPeriod i ≤ hyperPeriod := by
      simpa [Header.fits, u32_of_lt sum] using passes
    rw [result, u32_of_lt sum]
    refine ⟨fun core known => ?_, fun core known => ?_⟩
    · rw [Placement.members_concat fresh]
      by_cases own : j = core
      · subst own
        simp [accounted.account j known]
      · simp [own, Function.update_of_ne (Ne.symm own), accounted.account core known]
    · by_cases own : j = core
      · subst own
        simpa using fit
      · simpa [Function.update_of_ne (Ne.symm own)] using accounted.bound core known
  · rw [result] at accepted
    contradiction

/-- A rejected subtask is never forgotten. -/
theorem invalid_foldl (rest : List Nat) (rejected : placement.invalid = true) :
    (rest.foldl (header.place hyperPeriod) placement).invalid = true := by
  induction rest generalizing placement with
  | nil => exact rejected
  | cons i rest ih =>
      refine ih ?_
      rcases header.place_cases i with
        ⟨j, _, _, _, result⟩ | ⟨_, result⟩
      all_goals rw [result]
      exact rejected

/-- The accounts hold after an accepted run of the placement loop. -/
theorem accounted_foldl (rest : List Nat) {placed : List Nat}
    (accounted : Accounted header hyperPeriod placement placed) (distinct : (placed ++ rest).Nodup)
    (exact : header.NoWrap hyperPeriod placement rest)
    (accepted : (rest.foldl (header.place hyperPeriod) placement).invalid = false) :
    Accounted header hyperPeriod (rest.foldl (header.place hyperPeriod) placement) (placed ++ rest) := by
  induction rest generalizing placement placed with
  | nil => simpa using accounted
  | cons i rest ih =>
      obtain ⟨here, later⟩ := exact
      have fresh : i ∉ placed := fun known =>
        (List.nodup_append.mp distinct).2.2 i known i (List.mem_cons_self) rfl
      have taken : (header.place hyperPeriod placement i).invalid = false := by
        by_contra rejected
        rw [List.foldl_cons, invalid_foldl rest (by simpa using rejected)] at accepted
        contradiction
      have result := ih (accounted_place accounted fresh here taken) (by simpa using distinct) later accepted
      simpa using result

/-- A time that is not truncated is the exact share of the largest period. -/
theorem scaledTime_exact {i : Nat} (positive : 0 < (header.parent i).period)
    (product : (header.subtask i).exeTime * hyperPeriod < 2 ^ 32)
    (whole : (header.parent i).period ∣ (header.subtask i).exeTime * hyperPeriod) :
    (header.scaledTime hyperPeriod i : Rat) =
      (header.subtask i).exeTime / (header.parent i).period * hyperPeriod := by
  have nonzero : ((header.parent i).period : Rat) ≠ 0 := by exact_mod_cast Nat.ne_of_gt positive
  rw [Header.scaledTime, u32_of_lt product, Nat.cast_div whole nonzero]
  push_cast
  ring

/-- The products of a loop without wrap are words. -/
theorem Header.NoWrap.product {visited : List Nat} (exact : header.NoWrap hyperPeriod placement visited) :
    ∀ i ∈ visited, (header.subtask i).exeTime * hyperPeriod < 2 ^ 32 := by
  induction visited generalizing placement with
  | nil => simp
  | cons i rest ih =>
      intro j known
      rcases List.mem_cons.mp known with rfl | later
      · exact exact.1.product
      · exact ih exact.2 j later

/-- The placement loop visits each subtask once. -/
theorem Header.placementOrder_perm (sort : KernelSort) (header : Header) :
    (header.placementOrder sort).Perm (List.range header.subtaskTot) :=
  sort.perm _ _

/-- The tests and products of the placement loop of `E2E_init` stay within a word. -/
def Header.PlacementExact (sort : KernelSort) (header : Header) : Prop :=
  header.timed.NoWrap header.accumulate.hyperPeriod { core := fun i => (header.subtask i).core }
    (header.placementOrder sort)

instance (sort : KernelSort) (header : Header) : Decidable (header.PlacementExact sort) :=
  inferInstanceAs (Decidable (header.timed.NoWrap _ _ _))

/-- An accepted placement accounts for the subtasks of each core within the largest period. -/
theorem placement_account (sort : KernelSort) (exact : header.PlacementExact sort)
    (accepted : (header.placement sort).invalid = false) {core : Nat} (known : core < coreNum) :
    (((header.placement sort).members (header.placementOrder sort) core).map
      (header.timed.scaledTime header.accumulate.hyperPeriod)).sum ≤ header.accumulate.hyperPeriod := by
  have start : Accounted header.timed header.accumulate.hyperPeriod
      { core := fun i => (header.subtask i).core } [] := ⟨fun _ _ => rfl, fun _ _ => Nat.zero_le _⟩
  have distinct : ([] ++ header.placementOrder sort).Nodup :=
    (header.placementOrder_perm sort).nodup_iff.mpr List.nodup_range
  have result := accounted_foldl _ start distinct exact accepted
  rw [List.nil_append] at result
  exact result.account core known ▸ result.bound core known

/-- Each member of a core contributes the same share to the plan's utilisation. -/
theorem utilisation_members (sort : KernelSort) (wf : header.WellFormed) (core : Nat) :
    (header.plan sort).header.utilisation core =
      (((header.placement sort).members (header.placementOrder sort) core).map fun i =>
        ((header.subtask i).exeTime : Rat) / (header.parent i).period).sum := by
  have order := header.placementOrder_perm sort
  rw [Header.utilisation, Header.plan_subtaskTot, Placement.members]
  refine List.Perm.sum_eq ?_
  have same : ((List.range header.subtaskTot).filter fun i =>
        ((header.plan sort).header.subtask i).core = core) =
      (List.range header.subtaskTot).filter fun i => (header.placement sort).core i = core := by
    refine List.filter_congr fun i known => ?_
    rw [(header.plan_subtask sort (List.mem_range.mp known)).2.2.2]
  rw [same]
  have share (i : Nat) (known : i ∈ (List.range header.subtaskTot).filter fun i =>
      (header.placement sort).core i = core) :
      (((header.plan sort).header.subtask i).exeTime : Rat) / ((header.plan sort).header.parent i).period =
        (header.subtask i).exeTime / (header.parent i).period := by
    have inside : i < header.subtaskTot := List.mem_range.mp (List.mem_of_mem_filter known)
    rw [(header.plan_subtask sort inside).2.2.1, header.plan_parent sort inside (wf.position inside).1]
  rw [List.map_congr_left share]
  exact ((order.filter _).map _).symm

/-- The first loop leaves the times that the placement reads. -/
theorem timed_scaledTime (wf : header.WellFormed) {i : Nat} (inside : i < header.subtaskTot) :
    header.timed.scaledTime hyperPeriod i = header.scaledTime hyperPeriod i := by
  rw [Header.scaledTime, Header.scaledTime, Header.parent, Header.timed_subtask inside,
    Header.timed_task (wf.position inside).1]
  rfl

/-- Without truncation, an accepted placement keeps the utilisation of each core at one or below. -/
theorem utilisation_le_one (sort : KernelSort) (wf : header.WellFormed) (exact : header.PlacementExact sort)
    (accepted : (header.plan sort).invalid = false)
    (whole : ∀ i < header.subtaskTot,
      (header.parent i).period ∣ (header.subtask i).exeTime * header.accumulate.hyperPeriod)
    {core : Nat} (known : core < coreNum) : (header.plan sort).header.utilisation core ≤ 1 := by
  have account := placement_account sort exact accepted known
  rw [utilisation_members sort wf core]
  set members := (header.placement sort).members (header.placementOrder sort) core with defined
  have listed : ∀ i ∈ members, i ∈ header.placementOrder sort := fun i member => List.mem_of_mem_filter member
  have inside : ∀ i ∈ members, i < header.subtaskTot := fun i member =>
    List.mem_range.mp ((header.placementOrder_perm sort).mem_iff.mp (listed i member))
  have positive : ∀ i ∈ members, 0 < (header.parent i).period := fun i member =>
    wf.periods _ (wf.parent_mem (inside i member))
  have share (i : Nat) (member : i ∈ members) :
      (header.timed.scaledTime header.accumulate.hyperPeriod i : Rat) =
        (header.subtask i).exeTime / (header.parent i).period * header.accumulate.hyperPeriod := by
    have product := Header.NoWrap.product exact i (listed i member)
    rw [Header.timed_subtask (inside i member)] at product
    rw [timed_scaledTime wf (inside i member)]
    exact scaledTime_exact (positive i member) product (whole i (inside i member))
  have total : (members.map fun i => ((header.subtask i).exeTime : Rat) / (header.parent i).period).sum *
      header.accumulate.hyperPeriod ≤ 1 * header.accumulate.hyperPeriod := by
    rw [← List.sum_map_mul_right, ← List.map_congr_left share, one_mul]
    have cast : ((members.map (header.timed.scaledTime header.accumulate.hyperPeriod)).sum : Rat) ≤
        header.accumulate.hyperPeriod := by exact_mod_cast account
    rw [Nat.cast_list_sum, List.map_map] at cast
    exact cast
  rcases members.eq_nil_or_concat with none | ⟨_, i, some⟩
  · rw [none]
    simp
  · have member : i ∈ members := by rw [some]; simp
    have period := header.period_le_hyperPeriod (wf.position (inside i member)).1
    have longest : (0 : Rat) < header.accumulate.hyperPeriod := by
      exact_mod_cast Nat.lt_of_lt_of_le (positive i member) period
    exact le_of_mul_le_mul_right total longest

/-- The first core takes each subtask while the whole rest fits on it. -/
theorem first_core_takes_all (placement : Placement) (visited : List Nat) (longest : hyperPeriod < 2 ^ 32)
    (products : ∀ i ∈ visited, (header.subtask i).exeTime * hyperPeriod < 2 ^ 32)
    (fit : placement.aggTime 0 + (visited.map (header.scaledTime hyperPeriod)).sum ≤ hyperPeriod) :
    header.NoWrap hyperPeriod placement visited ∧
      (visited.foldl (header.place hyperPeriod) placement).invalid = placement.invalid ∧
      ∀ i, placement.core i = 0 ∨ i ∈ visited →
        (visited.foldl (header.place hyperPeriod) placement).core i = 0 := by
  induction visited generalizing placement with
  | nil => exact ⟨trivial, rfl, by simp⟩
  | cons i rest ih =>
      simp only [List.map_cons, List.sum_cons] at fit
      have small : placement.aggTime 0 + header.scaledTime hyperPeriod i < 2 ^ 32 := by omega
      have passes : header.fits hyperPeriod placement i 0 = true := by
        simp only [Header.fits, u32_of_lt small, decide_eq_true_eq]
        omega
      have result : header.place hyperPeriod placement i = { placement with
          aggTime := Function.update placement.aggTime 0
            (u32 (placement.aggTime 0 + header.scaledTime hyperPeriod i))
          core := Function.update placement.core i 0 } := by
        rcases header.place_cases i with ⟨j, _, _, before, result⟩ | ⟨none, _⟩
        · obtain rfl : j = 0 := by
            by_contra later
            rw [before 0 (Nat.pos_of_ne_zero later)] at passes
            contradiction
          exact result
        · rw [none 0 (by decide)] at passes
          contradiction
      rw [u32_of_lt small] at result
      have room : (header.place hyperPeriod placement i).aggTime 0 +
          (rest.map (header.scaledTime hyperPeriod)).sum ≤ hyperPeriod := by
        rw [result]
        simpa [Nat.add_assoc] using fit
      have remaining := ih (header.place hyperPeriod placement i)
        (fun j later => products j (List.mem_cons_of_mem i later)) room
      rw [List.foldl_cons]
      refine ⟨⟨⟨products i List.mem_cons_self, fun j _ before => ?_⟩, remaining.1⟩, ?_, fun j placed => ?_⟩
      · obtain rfl : j = 0 := by
          by_contra later
          rw [before 0 (Nat.pos_of_ne_zero later)] at passes
          contradiction
        exact small
      · rw [remaining.2.1, result]
      · refine remaining.2.2 j ?_
        by_cases same : j = i
        · left
          rw [result, same]
          exact Function.update_self _ _ _
        · rcases placed with zero | known
          · left
            rw [result]
            simpa [same] using zero
          · exact .inr ((List.mem_cons.mp known).resolve_left same)

/-- A header whose tasks have one subtask each. -/
def singletons (count : Nat) (task : Nat → Task) (subtask : Nat → Subtask) : Header where
  tasks := (List.range count).map task
  subtasks := (List.range count).map subtask

section

variable {count : Nat} {task : Nat → Task} {subtask : Nat → Subtask}

theorem singletons_task {k : Nat} (inside : k < count) : (singletons count task subtask).task k = task k := by
  simp [Header.task, singletons, inside]

theorem singletons_subtask {i : Nat} (inside : i < count) :
    (singletons count task subtask).subtask i = subtask i := by
  simp [Header.subtask, singletons, inside]

theorem singletons_taskTot : (singletons count task subtask).taskTot = count := by
  simp [singletons, Header.taskTot]

theorem singletons_subtaskTot : (singletons count task subtask).subtaskTot = count := by
  simp [singletons, Header.subtaskTot]

/-- Tasks with one subtask each tile the array when they count up. -/
theorem singletons_wellFormed
    (tasks : ∀ k < count, (task k).subtaskCount = 1 ∧ (task k).subtaskStartIdx = k ∧ 1 ≤ (task k).period ∧
      (task k).Words)
    (subtasks : ∀ i < count, (subtask i).taskId = i ∧ (subtask i).subtaskId = 0 ∧ 1 ≤ (subtask i).exeTime ∧
      (subtask i).Words) : (singletons count task subtask).WellFormed := by
  have sums (k : Nat) (inside : k ≤ count) :
      (((List.range k).map task).map Task.subtaskCount).sum = k := by
    have ones : ((List.range k).map task).map Task.subtaskCount = List.replicate k 1 := by
      refine List.eq_replicate_iff.mpr ⟨by simp, fun value known => ?_⟩
      obtain ⟨_, ⟨j, below, rfl⟩, rfl⟩ : ∃ entry, (∃ j, j < k ∧ task j = entry) ∧ entry.subtaskCount = value := by
        simpa using known
      exact (tasks j (Nat.lt_of_lt_of_le below inside)).1
    rw [ones, List.sum_replicate]
    simp
  constructor
  · intro k inside
    rw [singletons_taskTot] at inside
    rw [singletons_task inside, (tasks k inside).2.1]
    have prefix_eq : (singletons count task subtask).tasks.take k = (List.range k).map task := by
      rw [singletons, ← List.map_take, List.take_range, Nat.min_eq_left (Nat.le_of_lt inside)]
    rw [prefix_eq, sums k (Nat.le_of_lt inside)]
  · rw [singletons_subtaskTot]
    exact (sums count (Nat.le_refl count)).symm
  · intro k inside j below
    rw [singletons_taskTot] at inside
    rw [singletons_task inside, (tasks k inside).1] at below
    obtain rfl : j = 0 := by omega
    rw [singletons_task inside, (tasks k inside).2.1, Nat.add_zero, singletons_subtask inside]
    exact ⟨(subtasks k inside).1, (subtasks k inside).2.1⟩
  all_goals intro entry known
  all_goals obtain ⟨j, below, rfl⟩ := List.mem_map.mp known
  all_goals rw [List.mem_range] at below
  · exact Nat.le_of_eq (tasks j below).1.symm
  · exact (tasks j below).2.2.1
  · exact (subtasks j below).2.2.1
  · exact (tasks j below).2.2.2
  · exact (subtasks j below).2.2.2

theorem singletons_parent (ids : ∀ i < count, (subtask i).taskId = i) {i : Nat} (inside : i < count) :
    (singletons count task subtask).parent i = task i := by
  rw [Header.parent, singletons_subtask inside, ids i inside, singletons_task inside]

end

/-- The placement loop truncates the time of a subtask with this period and execution time. -/
structure TruncatedShare (period exeTime longest : Nat) : Prop where
  positive : 0 < exeTime
  share : exeTime ≤ period
  shorter : period ≤ longest
  word : exeTime * longest < 2 ^ 32
  truncated : ¬ period ∣ exeTime * longest

/-- The units of the largest period that the truncated time leaves room for. -/
def unitsLeft (period exeTime longest : Nat) : Nat := longest - exeTime * longest / period

/-- One truncated subtask and as many units as the first core has room for. -/
def fillHeader (period exeTime longest : Nat) : Header :=
  singletons (unitsLeft period exeTime longest + 1)
    (fun k => if k = 0 then ⟨period, 1, 0, exeTime⟩ else ⟨longest, 1, k, 1⟩)
    (fun i => if i = 0 then { taskId := 0, subtaskId := 0, exeTime } else { taskId := i, subtaskId := 0, exeTime := 1 })

theorem fillHeader_parent {period exeTime longest i : Nat}
    (inside : i < unitsLeft period exeTime longest + 1) :
    (fillHeader period exeTime longest).parent i =
      if i = 0 then ⟨period, 1, 0, exeTime⟩ else ⟨longest, 1, i, 1⟩ := by
  refine singletons_parent (fun i _ => ?_) inside
  by_cases first : i = 0 <;> simp [first]

namespace TruncatedShare

variable {period exeTime longest : Nat} (share : TruncatedShare period exeTime longest)

include share

theorem longest_lt : longest < 2 ^ 32 :=
  Nat.lt_of_le_of_lt (Nat.le_mul_of_pos_left longest share.positive) share.word

theorem units : 1 ≤ unitsLeft period exeTime longest ∧ unitsLeft period exeTime longest + 1 ≤ longest ∧
    exeTime * longest / period + unitsLeft period exeTime longest = longest := by
  have positive : 0 < period := Nat.lt_of_lt_of_le share.positive share.share
  have least : 1 ≤ exeTime * longest / period :=
    (Nat.one_le_div_iff positive).mpr
      (Nat.le_trans share.shorter (Nat.le_mul_of_pos_left longest share.positive))
  have most : exeTime * longest / period < longest := by
    rw [Nat.div_lt_iff_lt_mul positive, Nat.mul_comm longest]
    refine Nat.lt_of_le_of_ne (Nat.mul_le_mul_right longest share.share) fun same => ?_
    exact share.truncated (same ▸ Nat.dvd_mul_right period longest)
  unfold unitsLeft
  omega

theorem fill_wellFormed : (fillHeader period exeTime longest).WellFormed := by
  have small := share.longest_lt
  have units := share.units
  have positive := share.positive
  have bounded := share.share
  have shorter := share.shorter
  refine singletons_wellFormed (fun k inside => ?_) (fun i inside => ?_)
  · by_cases first : k = 0
    · simp only [if_pos first, Task.Words, true_and]
      omega
    · simp only [if_neg first, Task.Words, true_and]
      omega
  · by_cases first : i = 0
    · simp only [if_pos first, Subtask.Words, true_and]
      omega
    · simp only [if_neg first, Subtask.Words, true_and]
      omega

theorem fill_hyperPeriod : (fillHeader period exeTime longest).accumulate.hyperPeriod = longest := by
  have total : (fillHeader period exeTime longest).taskTot = unitsLeft period exeTime longest + 1 :=
    singletons_taskTot
  apply Nat.le_antisymm
  · rw [Header.hyperPeriod_eq, foldl_max_le_iff]
    refine ⟨Nat.zero_le _, fun k known => ?_⟩
    have inside : k < unitsLeft period exeTime longest + 1 := total ▸ List.mem_range.mp known
    rw [fillHeader, singletons_task inside]
    split
    · exact share.shorter
    · exact Nat.le_refl longest
  · have inside : 1 < unitsLeft period exeTime longest + 1 := Nat.succ_lt_succ share.units.1
    have bound := (fillHeader period exeTime longest).period_le_hyperPeriod (total.symm ▸ inside)
    rw [fillHeader, singletons_task inside] at bound
    exact bound

/-- The scaled times of the filled table add up to the largest period. -/
theorem fill_scaledTime : ((List.range (unitsLeft period exeTime longest + 1)).map
    ((fillHeader period exeTime longest).scaledTime longest)).sum = longest := by
  have unit (i : Nat) (inside : i + 1 < unitsLeft period exeTime longest + 1) :
      (fillHeader period exeTime longest).scaledTime longest (i + 1) = 1 := by
    rw [Header.scaledTime, fillHeader_parent inside, fillHeader, singletons_subtask inside]
    simp only [Nat.succ_ne_zero, if_false, one_mul, u32_of_lt share.longest_lt]
    exact Nat.div_self (Nat.lt_of_lt_of_le Nat.zero_lt_one (Nat.le_trans (Nat.le_add_left 1 _) share.units.2.1))
  have units : ((List.range (unitsLeft period exeTime longest)).map
      ((fillHeader period exeTime longest).scaledTime longest ∘ Nat.succ)).sum = unitsLeft period exeTime longest := by
    have ones : (List.range (unitsLeft period exeTime longest)).map
        ((fillHeader period exeTime longest).scaledTime longest ∘ Nat.succ) =
        List.replicate (unitsLeft period exeTime longest) 1 := by
      refine List.eq_replicate_iff.mpr ⟨by simp, fun value known => ?_⟩
      obtain ⟨i, below, rfl⟩ := List.mem_map.mp known
      exact unit i (Nat.succ_lt_succ (List.mem_range.mp below))
    rw [ones]
    simp
  have truncated : (fillHeader period exeTime longest).scaledTime longest 0 = exeTime * longest / period := by
    rw [Header.scaledTime, fillHeader_parent (Nat.succ_pos _), fillHeader, singletons_subtask (Nat.succ_pos _)]
    simp only [if_true, u32_of_lt share.word]
  rw [List.range_succ_eq_map, List.map_cons, List.map_map, List.sum_cons, units, truncated]
  exact share.units.2.2

/-- The exact utilisation of the filled table exceeds one by what the division truncates. -/
theorem fill_utilisation : 1 < ((List.range (unitsLeft period exeTime longest + 1)).map fun i =>
    (((fillHeader period exeTime longest).subtask i).exeTime : Rat) /
      ((fillHeader period exeTime longest).parent i).period).sum := by
  have unit (i : Nat) (below : i ∈ List.range (unitsLeft period exeTime longest)) :
      ((fun i => (((fillHeader period exeTime longest).subtask i).exeTime : Rat) /
        ((fillHeader period exeTime longest).parent i).period) ∘ Nat.succ) i = 1 / longest := by
    have inside : i + 1 < unitsLeft period exeTime longest + 1 := Nat.succ_lt_succ (List.mem_range.mp below)
    simp only [Function.comp_apply, Nat.succ_eq_add_one]
    rw [fillHeader_parent inside, fillHeader, singletons_subtask inside]
    simp
  have truncated : (((fillHeader period exeTime longest).subtask 0).exeTime : Rat) /
      ((fillHeader period exeTime longest).parent 0).period = exeTime / period := by
    rw [fillHeader_parent (Nat.succ_pos _), fillHeader, singletons_subtask (Nat.succ_pos _)]
    simp
  rw [List.range_succ_eq_map, List.map_cons, List.map_map, List.sum_cons, truncated, List.map_congr_left unit,
    List.map_const', List.length_range, List.sum_replicate, nsmul_eq_mul]
  have positive : 0 < period := Nat.lt_of_lt_of_le share.positive share.share
  have longer : 0 < longest := Nat.lt_of_lt_of_le positive share.shorter
  have more : period * (exeTime * longest / period) < exeTime * longest :=
    Nat.lt_of_le_of_ne (Nat.mul_div_le _ _) fun same => share.truncated ⟨_, same.symm⟩
  have filled : period * longest < exeTime * longest + unitsLeft period exeTime longest * period := by
    calc period * longest
        = period * (exeTime * longest / period) + unitsLeft period exeTime longest * period := by
          rw [Nat.mul_comm (unitsLeft period exeTime longest), ← Nat.mul_add, share.units.2.2]
      _ < exeTime * longest + unitsLeft period exeTime longest * period := Nat.add_lt_add_right more _
  have periodPositive : (0 : Rat) < period := by exact_mod_cast positive
  have longestPositive : (0 : Rat) < longest := by exact_mod_cast longer
  have cast : (period * longest : Rat) < exeTime * longest + unitsLeft period exeTime longest * period := by
    exact_mod_cast filled
  field_simp
  linarith

/-- Every subtask of the filled table goes to the first core, whose utilisation then exceeds one. -/
theorem fill_overloaded (sort : KernelSort) : (fillHeader period exeTime longest).PlacementExact sort ∧
    ((fillHeader period exeTime longest).plan sort).invalid = false ∧
    1 < ((fillHeader period exeTime longest).plan sort).header.utilisation 0 := by
  have wf := share.fill_wellFormed
  have total : (fillHeader period exeTime longest).subtaskTot = unitsLeft period exeTime longest + 1 :=
    singletons_subtaskTot
  have order := (fillHeader period exeTime longest).placementOrder_perm sort
  have inside (i : Nat) (listed : i ∈ (fillHeader period exeTime longest).placementOrder sort) :
      i < (fillHeader period exeTime longest).subtaskTot := List.mem_range.mp (order.mem_iff.mp listed)
  have times : (((fillHeader period exeTime longest).placementOrder sort).map
      ((fillHeader period exeTime longest).timed.scaledTime longest)).sum = longest := by
    rw [List.map_congr_left fun i listed => timed_scaledTime wf (inside i listed)]
    rw [(order.map _).sum_eq, total, share.fill_scaledTime]
  have products (i : Nat) (listed : i ∈ (fillHeader period exeTime longest).placementOrder sort) :
      ((fillHeader period exeTime longest).timed.subtask i).exeTime * longest < 2 ^ 32 := by
    rw [Header.timed_subtask (inside i listed), fillHeader, singletons_subtask (total ▸ inside i listed)]
    split
    · exact share.word
    · simpa using share.longest_lt
  obtain ⟨exact, accepted, first⟩ := first_core_takes_all
    { core := fun i => ((fillHeader period exeTime longest).subtask i).core }
    ((fillHeader period exeTime longest).placementOrder sort) share.longest_lt products
    (by rw [times]; exact Nat.le_of_eq (Nat.zero_add longest))
  have placed : (fillHeader period exeTime longest).placement sort =
      ((fillHeader period exeTime longest).placementOrder sort).foldl
        ((fillHeader period exeTime longest).timed.place longest)
        { core := fun i => ((fillHeader period exeTime longest).subtask i).core } := by
    rw [Header.placement, share.fill_hyperPeriod]
  refine ⟨?_, ?_, ?_⟩
  · rw [Header.PlacementExact, share.fill_hyperPeriod]
    exact exact
  · change ((fillHeader period exeTime longest).placement sort).invalid = false
    rw [placed, accepted]
  rw [← placed] at first
  have members : ((fillHeader period exeTime longest).placement sort).members
      ((fillHeader period exeTime longest).placementOrder sort) 0 =
      (fillHeader period exeTime longest).placementOrder sort :=
    List.filter_eq_self.mpr fun i listed => decide_eq_true (first i (.inr listed))
  rw [utilisation_members sort wf, members, (order.map _).sum_eq, total]
  exact share.fill_utilisation

end TruncatedShare

/-- The division of the placement loop truncates the time of no subtask. -/
def Header.Untruncated (header : Header) : Prop :=
  ∀ i < header.subtaskTot,
    (header.parent i).period ∣ (header.subtask i).exeTime * header.accumulate.hyperPeriod

instance (header : Header) : Decidable header.Untruncated :=
  inferInstanceAs (Decidable (∀ i < header.subtaskTot, _))

/-- An accepted placement without truncation keeps the exact utilisation of each core at one or below,
and each kind of truncated subtask occurs in an accepted table whose first core exceeds one. -/
theorem utilisation_sound (sort : KernelSort) :
    (∀ table : Table, table.Untruncated → table.PlacementExact sort → (table.plan sort).invalid = false →
      ∀ core < coreNum, (table.plan sort).header.utilisation core ≤ 1) ∧
    (∀ period exeTime longest, TruncatedShare period exeTime longest →
      ∃ table : Table, table.accumulate.hyperPeriod = longest ∧
        (table.parent 0).period = period ∧ (table.subtask 0).exeTime = exeTime ∧
        (∀ i < table.subtaskTot, i ≠ 0 → (table.parent i).period ∣ (table.subtask i).exeTime * longest) ∧
        table.PlacementExact sort ∧ (table.plan sort).invalid = false ∧
        1 < (table.plan sort).header.utilisation 0) := by
  refine ⟨fun table whole exact accepted core known => ?_, fun period exeTime longest share => ?_⟩
  · exact utilisation_le_one sort table.wellFormed exact accepted whole known
  · obtain ⟨exact, accepted, overloaded⟩ := share.fill_overloaded sort
    have first : 0 < unitsLeft period exeTime longest + 1 := Nat.succ_pos _
    refine ⟨⟨fillHeader period exeTime longest, share.fill_wellFormed⟩, share.fill_hyperPeriod, ?_, ?_, ?_,
      exact, accepted, overloaded⟩
    · change ((fillHeader period exeTime longest).parent 0).period = period
      rw [fillHeader_parent first]
      rfl
    · change ((fillHeader period exeTime longest).subtask 0).exeTime = exeTime
      rw [fillHeader, singletons_subtask first]
      rfl
    · intro i inside later
      change i < (fillHeader period exeTime longest).subtaskTot at inside
      rw [fillHeader, singletons_subtaskTot] at inside
      change ((fillHeader period exeTime longest).parent i).period ∣
        ((fillHeader period exeTime longest).subtask i).exeTime * longest
      rw [fillHeader_parent inside, if_neg later]
      exact Nat.dvd_mul_left longest _

/-- The pair of subtasks fills one core exactly. -/
theorem utilisation_sound_pair : pairTable.Untruncated ∧
    (pairTable.plan insertionSort).header.utilisation 0 ≤ 1 := by
  have whole : pairTable.Untruncated := by decide
  have exact : pairTable.PlacementExact insertionSort := by decide
  have accepted : (pairTable.plan insertionSort).invalid = false := by decide
  exact ⟨whole, (utilisation_sound insertionSort).1 pairTable whole exact accepted 0 (by decide)⟩

/-- One subtask of period two and two of period three are accepted on one core of utilisation 7/6. -/
theorem utilisation_exceeded : ∃ table : Table, table.tasks.map Task.period = [2, 3, 3] ∧
    table.PlacementExact insertionSort ∧ (table.plan insertionSort).invalid = false ∧
    1 < (table.plan insertionSort).header.utilisation 0 := by
  have share : TruncatedShare 2 1 3 := by constructor <;> decide
  have periods : (fillHeader 2 1 3).tasks.map Task.period = [2, 3, 3] := by decide +kernel
  exact ⟨⟨fillHeader 2 1 3, share.fill_wellFormed⟩, periods, share.fill_overloaded insertionSort⟩

end KernelStudio.EndToEnd
