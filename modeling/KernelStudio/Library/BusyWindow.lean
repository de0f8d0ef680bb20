/-
This file bounds how long tasks with separated releases keep one preemptive processor busy.
A busy window starts when all earlier jobs are done, and the demand of its length closes it.
-/

import Mathlib.Algebra.Order.BigOperators.Group.Finset
import Mathlib.Algebra.Order.Floor.Div

namespace KernelStudio.Scheduling

/-- Successive instants are at least one separation apart. -/
def Separated (separation : Nat) (instants : List Nat) : Prop :=
  instants.Pairwise fun earlier later => earlier + separation ≤ later

/-- The number of instants before a given one. -/
def before (instants : List Nat) (start : Nat) : Nat := instants.countP (· < start)

variable {separation start now length : Nat} {instants : List Nat}

theorem before_concat_of_le (reached : start ≤ now) : before (instants ++ [now]) start = before instants start := by
  simp [before, Nat.not_lt.mpr reached]

theorem before_all (past : ∀ instant ∈ instants, instant < start) : before instants start = instants.length :=
  List.countP_eq_length.mpr fun instant known => decide_eq_true (past instant known)

/-- An entry of an extended list is an old entry or the new one. -/
theorem getElem?_concat_cases {α : Type} {entries : List α} {entry value : α} {n : Nat}
    (found : (entries ++ [entry])[n]? = some value) :
    entries[n]? = some value ∨ n = entries.length ∧ value = entry := by
  rw [List.getElem?_append] at found
  split at found
  · exact .inl found
  · obtain ⟨place, same⟩ := List.getElem?_eq_some_iff.mp found
    rw [List.length_singleton] at place
    rw [List.getElem_singleton] at same
    exact .inr ⟨by omega, same.symm⟩

/-- A later instant may follow one separation after the last. -/
theorem Separated.concat (apart : Separated separation instants)
    (late : ∀ last, instants.getLast? = some last → last + separation ≤ now) :
    Separated separation (instants ++ [now]) := by
  refine List.pairwise_append.mpr ⟨apart, List.pairwise_singleton _ _, fun instant known other single => ?_⟩
  rw [List.mem_singleton.mp single]
  obtain ⟨front, last, split⟩ := (List.eq_nil_or_concat' instants).resolve_left (List.ne_nil_of_mem known)
  have bound := late last (by simp [split])
  subst split
  rcases List.mem_append.mp known with early | here
  · have gap := (List.pairwise_append.mp apart).2.2 instant early last (List.mem_singleton_self last)
    omega
  · rw [List.mem_singleton.mp here]
    exact bound

/-- One more separation leaves room for one more instant. -/
theorem ceilDiv_sub_succ (positive : 0 < separation) (room : 0 < length) :
    (length - separation) ⌈/⌉ separation + 1 ≤ length ⌈/⌉ separation := by
  rw [Nat.ceilDiv_eq_add_pred_div, Nat.ceilDiv_eq_add_pred_div]
  by_cases fits : separation ≤ length
  · have shift : length + separation - 1 = length - separation + separation - 1 + separation := by omega
    rw [shift, Nat.add_div_right _ positive]
  · have none : (length - separation + separation - 1) / separation = 0 := Nat.div_eq_of_lt (by omega)
    rw [none]
    exact (Nat.one_le_div_iff positive).mpr (by omega)

/-- A window holds one instant at most for each separation that begins in it. -/
theorem Separated.length_le (positive : 0 < separation) (apart : Separated separation instants)
    (inside : ∀ instant ∈ instants, start ≤ instant ∧ instant < start + length) :
    instants.length ≤ length ⌈/⌉ separation := by
  induction instants generalizing start length with
  | nil => exact Nat.zero_le _
  | cons first rest ih =>
      obtain ⟨gaps, later⟩ := List.pairwise_cons.mp apart
      have head := inside first List.mem_cons_self
      have tail : rest.length ≤ (length - separation) ⌈/⌉ separation := by
        refine @ih (start + separation) _ later fun instant known => ?_
        have gap := gaps instant known
        have bound := inside instant (List.mem_cons_of_mem _ known)
        omega
      exact Nat.le_trans (Nat.succ_le_succ tail) (ceilDiv_sub_succ positive (by omega))

/-- The instants since the start of a window are bounded by its length. -/
theorem Separated.since_le (positive : 0 < separation) (apart : Separated separation instants)
    (past : ∀ instant ∈ instants, instant < start + length) :
    instants.length ≤ before instants start + length ⌈/⌉ separation := by
  have since : (instants.filter fun instant => !decide (instant < start)).length ≤ length ⌈/⌉ separation := by
    refine @Separated.length_le _ start _ _ positive (List.Pairwise.filter _ apart) fun instant known => ?_
    obtain ⟨listed, late⟩ := List.mem_filter.mp known
    have started : start ≤ instant := by simpa using late
    exact ⟨started, past instant listed⟩
  rw [List.length_eq_length_filter_add fun instant => decide (instant < start), before, List.countP_eq_length_filter]
  exact Nat.add_le_add_left since _

/-- A level holds the tasks that may keep one processor busy before a given task is served. -/
structure Level (Task : Type) where
  members : Finset Task
  cost : Task → Nat
  separation : Task → Nat

namespace Level

variable {Task : Type} (level : Level Task)

/-- The most work that can arrive in a window of the given length. -/
def demand (length : Nat) : Nat :=
  ∑ task ∈ level.members, level.cost task * (length ⌈/⌉ level.separation task)

/-- Since the start of a busy window the processor has worked for the level without a pause. -/
structure Busy (releases : Task → List Nat) (work : Task → Nat) (now start : Nat) : Prop where
  begun : start ≤ now
  settled : ∀ task ∈ level.members, level.cost task * before (releases task) start ≤ work task
  balance : ∑ task ∈ level.members, work task =
    ∑ task ∈ level.members, level.cost task * before (releases task) start + (now - start)

/-- The current busy window is shorter than the given length. -/
def Within (length : Nat) (releases : Task → List Nat) (work : Task → Nat) (now : Nat) : Prop :=
  ∃ start, level.Busy releases work now start ∧ now < start + length

/-- No job of the level is left. -/
def Settled (releases : Task → List Nat) (work : Task → Nat) : Prop :=
  ∀ task ∈ level.members, work task = level.cost task * (releases task).length

variable {level} {releases next : Task → List Nat} {work further : Task → Nat}

/-- A window may start anew when no job is left. -/
theorem Settled.within (settled : level.Settled releases work) (positive : 0 < length)
    (past : ∀ task ∈ level.members, ∀ instant ∈ releases task, instant < now) :
    level.Within length releases work now := by
  have all (task : Task) (known : task ∈ level.members) :
      level.cost task * before (releases task) now = work task := by
    rw [settled task known, before_all (past task known)]
  refine ⟨now, ⟨Nat.le_refl now, fun task known => Nat.le_of_eq (all task known), ?_⟩, by omega⟩
  rw [Finset.sum_congr rfl all, Nat.sub_self, Nat.add_zero]

/-- A busy window that has reached a length that covers its demand has settled. -/
theorem Busy.settled_of_demand (busy : level.Busy releases work (start + length) start)
    (covered : level.demand length ≤ length) (positive : ∀ task ∈ level.members, 0 < level.separation task)
    (apart : ∀ task ∈ level.members, Separated (level.separation task) (releases task))
    (past : ∀ task ∈ level.members, ∀ instant ∈ releases task, instant < start + length)
    (bounded : ∀ task ∈ level.members, work task ≤ level.cost task * (releases task).length) :
    level.Settled releases work := by
  have arrived : ∑ task ∈ level.members, level.cost task * (releases task).length ≤
      ∑ task ∈ level.members, level.cost task * before (releases task) start + level.demand length := by
    rw [demand, ← Finset.sum_add_distrib]
    refine Finset.sum_le_sum fun task known => ?_
    rw [← Nat.mul_add]
    exact Nat.mul_le_mul_left _ ((apart task known).since_le (positive task known) (past task known))
  have total : ∑ task ∈ level.members, work task =
      ∑ task ∈ level.members, level.cost task * (releases task).length := by
    have balance := busy.balance
    have upper := Finset.sum_le_sum bounded
    omega
  exact (Finset.sum_eq_sum_iff_of_le bounded).mp total

/-- New arrivals do not change a busy window that has started. -/
theorem Within.arrive (within : level.Within length releases work now)
    (kept : ∀ task ∈ level.members, ∀ start ≤ now, before (next task) start = before (releases task) start) :
    level.Within length next work now := by
  obtain ⟨start, busy, short⟩ := within
  have same (task : Task) (known : task ∈ level.members) : level.cost task * before (next task) start =
      level.cost task * before (releases task) start := by rw [kept task known start busy.begun]
  refine ⟨start, ⟨busy.begun, fun task known => ?_, ?_⟩, short⟩
  · exact same task known ▸ busy.settled task known
  · rw [Finset.sum_congr rfl same]
    exact busy.balance

/-- While the processor works for the level, its busy window stays shorter than a covered length. -/
theorem Within.advance (within : level.Within length releases work now)
    (covered : level.demand length ≤ length) (positive : ∀ task ∈ level.members, 0 < level.separation task)
    (grown : ∀ task ∈ level.members, work task ≤ further task)
    (served : ∑ task ∈ level.members, further task = ∑ task ∈ level.members, work task + 1)
    (apart : ∀ task ∈ level.members, Separated (level.separation task) (releases task))
    (past : ∀ task ∈ level.members, ∀ instant ∈ releases task, instant < now + 1)
    (bounded : ∀ task ∈ level.members, further task ≤ level.cost task * (releases task).length) :
    level.Within length releases further (now + 1) := by
  obtain ⟨start, busy, short⟩ := within
  have begun := busy.begun
  have longer : level.Busy releases further (now + 1) start := by
    refine ⟨Nat.le_succ_of_le begun, fun task known => ?_, ?_⟩
    · exact Nat.le_trans (busy.settled task known) (grown task known)
    · rw [served, busy.balance]
      omega
  by_cases full : now + 1 = start + length
  · have settled := (full ▸ longer).settled_of_demand covered positive apart (full ▸ past) bounded
    exact settled.within (by omega) past
  · exact ⟨start, longer, by omega⟩

/-- An unfinished job has been released less than the length of the window ago. -/
theorem Within.response (within : level.Within length releases work now) {task : Task}
    (known : task ∈ level.members) (apart : Separated (level.separation task) (releases task))
    {n release : Nat} (released : (releases task)[n]? = some release)
    (unfinished : work task < level.cost task * (n + 1)) : now < release + length := by
  obtain ⟨start, busy, short⟩ := within
  by_contra late
  have early : release < start := by omega
  obtain ⟨inside, found⟩ := List.getElem?_eq_some_iff.mp released
  -- The first `n + 1` jobs precede the window, so all of them are done.
  have front : ∀ instant ∈ (releases task).take (n + 1), instant < start := by
    intro instant listed
    obtain ⟨m, below, rfl⟩ := List.mem_take_iff_getElem.mp listed
    rcases Nat.lt_or_eq_of_le (show m ≤ n by omega) with less | same
    · have gap := List.pairwise_iff_getElem.mp apart m n (by omega) inside less
      omega
    · subst same
      omega
  have count : n + 1 ≤ before (releases task) start := by
    calc n + 1 = ((releases task).take (n + 1)).length := by rw [List.length_take]; omega
      _ = before ((releases task).take (n + 1)) start := (before_all front).symm
      _ ≤ before (releases task) start := (List.take_sublist _ _).countP_le
  have done := busy.settled task known
  have least := Nat.mul_le_mul_left (level.cost task) count
  omega

end Level

end KernelStudio.Scheduling
