/-
This file gives the runs of equal labels in a sequence, and when each label has one run only.
-/

import Mathlib.Data.List.Basic
import Mathlib.Order.Lattice
import Mathlib.Tactic.Common

namespace KernelStudio.Runs

variable {Label : Type} [DecidableEq Label] (label : Nat → Label)

/-- The number of positions between a position and the start of its run. -/
def runIndex : Nat → Nat
  | 0 => 0
  | position + 1 => if label (position + 1) = label position then runIndex position + 1 else 0

/-- The positions of one label among the first ones. -/
def positions (count : Nat) (value : Label) : List Nat :=
  (List.range count).filter fun position => label position = value

/-- The number of earlier positions with the same label. -/
def countBefore (position : Nat) : Nat := (positions label position (label position)).length

/-- The positions of each label among the first ones are contiguous. -/
def Grouped (count : Nat) : Prop :=
  ∀ first middle last, first ≤ middle → middle ≤ last → last < count → label first = label last →
    label middle = label last

variable {label} {count position : Nat} {value : Label}

theorem mem_positions : position ∈ positions label count value ↔ position < count ∧ label position = value := by
  simp [positions]

theorem positions_succ (count : Nat) (value : Label) : positions label (count + 1) value =
    positions label count value ++ if label count = value then [count] else [] := by
  simp [positions, List.range_succ, List.filter_append, List.filter_singleton, Bool.cond_decide]

/-- Counting up from zero enumerates the positions of a label. -/
theorem map_countBefore (count : Nat) (value : Label) : (positions label count value).map (countBefore label) =
    List.range (positions label count value).length := by
  induction count with
  | zero => rfl
  | succ count ih =>
      rw [positions_succ, List.map_append, List.length_append, ih]
      by_cases here : label count = value
      · simp [here, countBefore, List.range_succ]
      · simp [here]

theorem countBefore_lt (inside : position < count) (here : label position = value) :
    countBefore label position < (positions label count value).length := by
  rw [← List.mem_range, ← map_countBefore]
  exact List.mem_map_of_mem (mem_positions.mpr ⟨inside, here⟩)

/-- A later position of the same label has more positions before it. -/
theorem countBefore_lt_countBefore {first last : Nat} (less : first < last) (same : label first = label last) :
    countBefore label first < countBefore label last := countBefore_lt less same

/-- Each position has a start of its run, with the same label in between. -/
theorem exists_start (label : Nat → Label) (position : Nat) : ∃ start ≤ position, runIndex label start = 0 ∧
    ∀ middle, start ≤ middle → middle ≤ position → label middle = label position := by
  induction position with
  | zero => exact ⟨0, le_rfl, rfl, fun middle _ low => by rw [Nat.le_zero.mp low]⟩
  | succ position ih =>
      by_cases same : label (position + 1) = label position
      · obtain ⟨start, before, zero, constant⟩ := ih
        refine ⟨start, Nat.le_succ_of_le before, zero, fun middle above below => ?_⟩
        rcases Nat.le_succ_iff.mp below with earlier | rfl
        · rw [same]
          exact constant middle above earlier
        · rfl
      · refine ⟨position + 1, le_rfl, by simp [runIndex, same], fun middle above below => ?_⟩
        rw [Nat.le_antisymm below above]

/-- The start of a run has another label before it. -/
theorem label_ne_of_start (start : runIndex label (position + 1) = 0) : label (position + 1) ≠ label position := by
  intro same
  simp [runIndex, same] at start

/-- A grouped label starts no second run. -/
theorem Grouped.fresh (grouped : Grouped label count) (inside : position < count)
    (start : runIndex label position = 0)
    {earlier : Nat} (less : earlier < position) : label earlier ≠ label position := by
  intro same
  obtain ⟨before, rfl⟩ := Nat.exists_eq_succ_of_ne_zero (Nat.ne_of_gt (Nat.zero_lt_of_lt less))
  exact label_ne_of_start start
    (grouped earlier before _ (Nat.le_of_lt_succ less) (Nat.le_succ before) inside same).symm

/-- Labels that start no second run are grouped. -/
theorem grouped_of_fresh
    (fresh : ∀ position < count, runIndex label position = 0 → ∀ earlier < position, label earlier ≠ label position) :
    Grouped label count := by
  intro first middle last before after inside same
  obtain ⟨start, bound, zero, constant⟩ := exists_start label last
  by_cases late : start ≤ middle
  · exact constant middle late after
  · have equal := constant start le_rfl bound
    exact absurd (same.trans equal.symm)
      (fresh start (bound.trans_lt inside) zero first (before.trans_lt (Nat.lt_of_not_le late)))

/-- In grouped labels, the position in a run counts the earlier positions of the label. -/
theorem Grouped.runIndex_eq (grouped : Grouped label count) (inside : position < count) :
    runIndex label position = countBefore label position := by
  induction position with
  | zero => rfl
  | succ position ih =>
      by_cases same : label (position + 1) = label position
      · rw [runIndex, if_pos same, ih (Nat.lt_of_succ_lt inside), countBefore, countBefore, positions_succ, same]
        simp
      · have zero : runIndex label (position + 1) = 0 := by simp [runIndex, same]
        have none : positions label (position + 1) (label (position + 1)) = [] :=
          List.eq_nil_iff_forall_not_mem.mpr fun earlier known =>
            grouped.fresh inside zero (mem_positions.mp known).1 (mem_positions.mp known).2
        rw [zero, countBefore, none, List.length_nil]

/-- The position in a run is the distance from the only start of the label. -/
theorem Grouped.runIndex_eq_sub (grouped : Grouped label count) {start : Nat} (zero : runIndex label start = 0)
    (after : start ≤ position) (inside : position < count) (same : label position = label start) :
    runIndex label position = position - start := by
  induction position, after using Nat.le_induction with
  | base => rw [zero, Nat.sub_self]
  | succ position after ih =>
      have before := grouped start position (position + 1) after (Nat.le_succ position) inside same.symm
      rw [runIndex, if_pos before.symm, ih (Nat.lt_of_succ_lt inside) (before.trans same), Nat.succ_sub after]

/-- The positions of a grouped label form one segment. -/
theorem Grouped.segment (grouped : Grouped label count) {start : Nat} (inside : start < count)
    (zero : runIndex label start = 0) : positions label count (label start) =
      (List.range (positions label count (label start)).length).map (start + ·) := by
  rw [← map_countBefore, List.map_map]
  refine (List.map_id _).symm.trans (List.map_congr_left fun position known => ?_)
  obtain ⟨within, same⟩ := mem_positions.mp known
  have after : start ≤ position := by
    by_contra earlier
    exact grouped.fresh inside zero (Nat.lt_of_not_le earlier) same
  rw [Function.comp_apply, ← grouped.runIndex_eq within, grouped.runIndex_eq_sub zero after within same, id]
  omega

/-- Ordered labels are grouped. -/
theorem grouped_of_monotone {Label : Type} [LinearOrder Label] {label : Nat → Label}
    (ordered : ∀ first last, first ≤ last → last < count → label first ≤ label last) : Grouped label count := by
  intro first middle last before after inside same
  exact le_antisymm (ordered middle last after inside) (same ▸ ordered first middle before (after.trans_lt inside))

/-- A list is a permutation of its parts by label. -/
theorem perm_flatMap_filter {α : Type} (label : α → Nat) (bound : Nat) {entries : List α}
    (inside : ∀ entry ∈ entries, label entry < bound) :
    entries.Perm ((List.range bound).flatMap fun value => entries.filter fun entry => label entry = value) := by
  induction bound generalizing entries with
  | zero =>
      have none : entries = [] := List.eq_nil_iff_forall_not_mem.mpr fun entry listed =>
        Nat.not_lt_zero _ (inside entry listed)
      rw [none]
      exact List.Perm.nil
  | succ bound ih =>
      have rest := @ih (entries.filter fun entry => !decide (label entry = bound)) fun entry listed => by
        obtain ⟨known, apart⟩ := List.mem_filter.mp listed
        have less := inside entry known
        simp only [Bool.not_eq_true', decide_eq_false_iff_not] at apart
        omega
      have same (value : Nat) (less : value ∈ List.range bound) :
          ((entries.filter fun entry => !decide (label entry = bound)).filter fun entry => label entry = value) =
            entries.filter fun entry => label entry = value := by
        rw [List.filter_filter]
        refine List.filter_congr fun entry _ => ?_
        rw [List.mem_range] at less
        by_cases here : label entry = value <;> simp [here, Nat.ne_of_lt less]
      rw [List.flatMap_congr same] at rest
      rw [List.range_succ, List.flatMap_append, List.flatMap_singleton]
      refine ((List.filter_append_perm (fun entry => decide (label entry = bound)) entries).symm.trans ?_)
      exact (List.Perm.append_left _ rest).trans List.perm_append_comm

end KernelStudio.Runs
