/-
This file proves when the two comparators of `E2E_init` are order relations.
Their cross products are exact in the rationals, and the signed 64-bit products compare alike when they are aligned.
-/

import KernelStudio.Library.Comparator
import KernelStudio.Proof.EndToEnd.Schedulability
import Mathlib.Data.Prod.Lex

namespace KernelStudio.EndToEnd

open Comparator

/-- A task table whose tasks have a positive total time, as after the first loop of `E2E_init`. -/
structure TimedTable extends Table where
  exeTimes : ∀ task ∈ tasks, 1 ≤ task.exeTime

namespace Header

variable (header : Header)

/-- The exact utilisation of a subtask. -/
def util (i : Nat) : Rat := (header.subtask i).exeTime / (header.parent i).period

/-- The exact relative deadline of a subtask. -/
def exactRelDdl (i : Nat) : Rat :=
  (header.parent i).period * (header.subtask i).cumulativeExeTime / (header.parent i).exeTime

/-- Cores come first, and relative deadlines decide on one core. -/
def relDdlKey (i : Nat) : Nat ×ₗ Rat := toLex ((header.subtask i).core, header.exactRelDdl i)

/-- The exact cross product of `comp_util`. -/
def utilProduct (l r : Nat) : Nat := (header.subtask l).exeTime * (header.parent r).period

/-- The exact cross product of `comp_rel_ddl`. -/
def relDdlProduct (l r : Nat) : Nat :=
  (header.parent l).period * (header.subtask l).cumulativeExeTime * (header.parent r).exeTime

/-- The signs of both comparators are those of the exact comparisons, and a sort may rely on them. -/
structure OrderRelations : Prop where
  utilSign : ∀ l < header.subtaskTot, ∀ r < header.subtaskTot,
    SignOf (header.compUtil l r) (header.util r) (header.util l)
  relDdlSign : ∀ l < header.subtaskTot, ∀ r < header.subtaskTot,
    SignOf (header.compRelDdl l r) (header.relDdlKey l) (header.relDdlKey r)
  util : Lawful header.compUtil {i | i < header.subtaskTot}
  relDdl : Lawful header.compRelDdl {i | i < header.subtaskTot}

/-- Both products of a utilisation comparison reach the sign bit or none does, and the products of a deadline
comparison are aligned. -/
structure ProductsAligned : Prop where
  util : ∀ l < header.subtaskTot, ∀ r < header.subtaskTot,
    (header.utilProduct l r < 2 ^ 63 ↔ header.utilProduct r l < 2 ^ 63)
  relDdl : ∀ l < header.subtaskTot, ∀ r < header.subtaskTot, (header.subtask l).core = (header.subtask r).core →
    Aligned (2 ^ 64) (header.relDdlProduct l r) (header.relDdlProduct r l)

variable {header} {l r : Nat}

theorem compUtil_eq (l r : Nat) : header.compUtil l r =
    threeWay (s64 (header.utilProduct r l)) (s64 (header.utilProduct l r)) := by
  simp only [compUtil, threeWay, utilProduct, Nat.cast_mul]

/-- The two multiplications of `comp_rel_ddl` keep the low word of the exact product. -/
theorem s64_relDdlProduct (l r : Nat) :
    s64 (s64 ((header.parent l).period * (header.subtask l).cumulativeExeTime) * (header.parent r).exeTime) =
      s64 (header.relDdlProduct l r) := by
  simp only [s64, relDdlProduct, Nat.cast_mul, Int.bmod_mul_bmod]

theorem compRelDdl_eq (l r : Nat) : header.compRelDdl l r =
    if (header.subtask l).core < (header.subtask r).core then -1
    else if (header.subtask r).core < (header.subtask l).core then 1
    else threeWay (s64 (header.relDdlProduct l r)) (s64 (header.relDdlProduct r l)) := by
  simp only [compRelDdl, s64_relDdlProduct, threeWay]

/-- Cross multiplication compares the utilisations. -/
theorem util_lt_iff (left : 0 < (header.parent l).period) (right : 0 < (header.parent r).period) :
    header.util l < header.util r ↔ header.utilProduct l r < header.utilProduct r l := by
  rw [util, util, div_lt_div_iff₀ (by exact_mod_cast left) (by exact_mod_cast right), utilProduct, utilProduct]
  norm_cast

/-- Cross multiplication compares the relative deadlines. -/
theorem exactRelDdl_lt_iff (left : 0 < (header.parent l).exeTime) (right : 0 < (header.parent r).exeTime) :
    header.exactRelDdl l < header.exactRelDdl r ↔ header.relDdlProduct l r < header.relDdlProduct r l := by
  rw [exactRelDdl, exactRelDdl, div_lt_div_iff₀ (by exact_mod_cast left) (by exact_mod_cast right), relDdlProduct,
    relDdlProduct]
  norm_cast

theorem relDdlKey_lt_iff : header.relDdlKey l < header.relDdlKey r ↔
    (header.subtask l).core < (header.subtask r).core ∨
      (header.subtask l).core = (header.subtask r).core ∧ header.exactRelDdl l < header.exactRelDdl r :=
  Prod.Lex.toLex_lt_toLex

/-- The sign of `comp_util` is exact exactly when its products are aligned. -/
theorem compUtil_sign_iff (left : 0 < (header.parent l).period) (right : 0 < (header.parent r).period) :
    SignOf (header.compUtil l r) (header.util r) (header.util l) ↔
      Aligned (2 ^ 64) (header.utilProduct r l) (header.utilProduct l r) := by
  rw [← aligned_iff (by decide), compUtil_eq]
  constructor
  · intro sign
    exact ⟨sign.less.trans ((util_lt_iff right left).trans (by norm_cast)),
      sign.greater.trans ((util_lt_iff left right).trans (by norm_cast))⟩
  · intro sign
    exact ⟨sign.less.trans (Iff.trans (by norm_cast) (util_lt_iff right left).symm),
      sign.greater.trans (Iff.trans (by norm_cast) (util_lt_iff left right).symm)⟩

/-- On one core, the sign of `comp_rel_ddl` is exact exactly when its products are aligned. -/
theorem compRelDdl_sign_iff (left : 0 < (header.parent l).exeTime) (right : 0 < (header.parent r).exeTime)
    (same : (header.subtask l).core = (header.subtask r).core) :
    SignOf (header.compRelDdl l r) (header.relDdlKey l) (header.relDdlKey r) ↔
      Aligned (2 ^ 64) (header.relDdlProduct l r) (header.relDdlProduct r l) := by
  have less : header.relDdlKey l < header.relDdlKey r ↔
      (header.relDdlProduct l r : Int) < header.relDdlProduct r l := by
    rw [relDdlKey_lt_iff, exactRelDdl_lt_iff left right]
    simp [same]
  have greater : header.relDdlKey r < header.relDdlKey l ↔
      (header.relDdlProduct r l : Int) < header.relDdlProduct l r := by
    rw [relDdlKey_lt_iff, exactRelDdl_lt_iff right left]
    simp [same]
  rw [← aligned_iff (by decide), compRelDdl_eq, same, if_neg (lt_irrefl _), if_neg (lt_irrefl _)]
  constructor
  · intro sign
    exact ⟨sign.less.trans less, sign.greater.trans greater⟩
  · intro sign
    exact ⟨sign.less.trans less.symm, sign.greater.trans greater.symm⟩

/-- On different cores, the sign of `comp_rel_ddl` is exact. -/
theorem compRelDdl_sign_of_ne (apart : (header.subtask l).core ≠ (header.subtask r).core) :
    SignOf (header.compRelDdl l r) (header.relDdlKey l) (header.relDdlKey r) := by
  rw [compRelDdl_eq]
  rcases Nat.lt_or_gt_of_ne apart with less | greater
  · rw [if_pos less]
    refine ⟨iff_of_true (by decide) ?_, iff_of_false (by decide) ?_⟩
    · exact relDdlKey_lt_iff.mpr (.inl less)
    · rw [relDdlKey_lt_iff]
      omega
  · rw [if_neg (Nat.lt_asymm greater), if_pos greater]
    refine ⟨iff_of_false (by decide) ?_, iff_of_true (by decide) ?_⟩
    · rw [relDdlKey_lt_iff]
      omega
    · exact relDdlKey_lt_iff.mpr (.inl greater)

/-- Exact signs on all pairs make both comparators lawful. -/
theorem orderRelations_of_signs
    (utilSign : ∀ l < header.subtaskTot, ∀ r < header.subtaskTot,
      SignOf (header.compUtil l r) (header.util r) (header.util l))
    (relDdlSign : ∀ l < header.subtaskTot, ∀ r < header.subtaskTot,
      SignOf (header.compRelDdl l r) (header.relDdlKey l) (header.relDdlKey r)) : header.OrderRelations where
  utilSign := utilSign
  relDdlSign := relDdlSign
  util := lawful_of_signs (fun i => OrderDual.toDual (header.util i)) fun l left r right =>
    ⟨(utilSign l left r right).less, (utilSign l left r right).greater⟩
  relDdl := lawful_of_signs header.relDdlKey relDdlSign

/-- The products of a utilisation comparison are double words. -/
theorem WellFormed.utilProduct_lt (wf : header.WellFormed) (l r : Nat) : header.utilProduct l r < 2 * 2 ^ 63 := by
  have time := (wf.subtask_words l).2.2.1
  have period := (wf.task_words (header.subtask r).taskId).1
  calc header.utilProduct l r ≤ (2 ^ 32 - 1) * (2 ^ 32 - 1) :=
        Nat.mul_le_mul (Nat.le_pred_of_lt time) (Nat.le_pred_of_lt period)
    _ < 2 * 2 ^ 63 := by decide

/-- Two utilisation products are aligned when both or none reach the sign bit. -/
theorem WellFormed.util_aligned_iff (wf : header.WellFormed) (l r : Nat) :
    Aligned (2 ^ 64) (header.utilProduct r l) (header.utilProduct l r) ↔
      (header.utilProduct l r < 2 ^ 63 ↔ header.utilProduct r l < 2 ^ 63) :=
  (aligned_iff_of_lt (wf.utilProduct_lt r l) (wf.utilProduct_lt l r)).trans Iff.comm

end Header

/-- The comparators are the order relations that `sort` requires exactly when their products are aligned. -/
theorem comparators_exact_iff (table : TimedTable) :
    table.toHeader.OrderRelations ↔ table.toHeader.ProductsAligned := by
  have wf := table.wellFormed
  have period (i : Nat) (inside : i < table.subtaskTot) : 0 < (table.parent i).period := wf.period_pos inside
  have time (i : Nat) (inside : i < table.subtaskTot) : 0 < (table.parent i).exeTime :=
    table.exeTimes _ (wf.parent_mem inside)
  constructor
  · intro relations
    refine ⟨fun l left r right => ?_, fun l left r right same => ?_⟩
    · rw [← wf.util_aligned_iff, ← Header.compUtil_sign_iff (period l left) (period r right)]
      exact relations.utilSign l left r right
    · rw [← Header.compRelDdl_sign_iff (time l left) (time r right) same]
      exact relations.relDdlSign l left r right
  · intro aligned
    refine Header.orderRelations_of_signs (fun l left r right => ?_) fun l left r right => ?_
    · rw [Header.compUtil_sign_iff (period l left) (period r right), wf.util_aligned_iff]
      exact aligned.util l left r right
    · by_cases same : (table.subtask l).core = (table.subtask r).core
      · rw [Header.compRelDdl_sign_iff (time l left) (time r right) same]
        exact aligned.relDdl l left r right same
      · exact Header.compRelDdl_sign_of_ne same

/-- Three tasks with one subtask each on one core, whose products reach the sign bit. -/
def signBitTable : TimedTable where
  tasks := [⟨1, 1, 0, 1⟩, ⟨3000000000, 1, 1, 1⟩, ⟨4000000000, 1, 2, 4000000000⟩]
  subtasks := [⟨0, 0, 1, 0, 1, 0, 50⟩, ⟨1, 0, 1, 0, 1, 0, 50⟩, ⟨2, 0, 4000000000, 0, 4000000000, 0, 50⟩]
  wellFormed := by constructor <;> decide
  exeTimes := by decide

/-- The subtask of utilisation one sorts after the one of utilisation 1/3000000000, and neither comparator is
transitive. -/
theorem comparators_wrong : signBitTable.util 1 < signBitTable.util 2 ∧ signBitTable.compUtil 1 2 < 0 ∧
    ¬ Lawful signBitTable.compUtil {i | i < signBitTable.subtaskTot} ∧
    ¬ Lawful signBitTable.compRelDdl {i | i < signBitTable.subtaskTot} ∧
    ¬ signBitTable.toHeader.OrderRelations := by
  have util : ¬ Lawful signBitTable.compUtil {i | i < signBitTable.subtaskTot} := fun lawful =>
    absurd (lawful.less 0 (by decide) 1 (by decide) 2 (by decide) (by decide) (by decide)) (by decide)
  have relDdl : ¬ Lawful signBitTable.compRelDdl {i | i < signBitTable.subtaskTot} := fun lawful =>
    absurd (lawful.less 0 (by decide) 1 (by decide) 2 (by decide) (by decide) (by decide)) (by decide)
  exact ⟨by decide +kernel, by decide, util, relDdl, fun relations => util relations.util⟩

end KernelStudio.EndToEnd
