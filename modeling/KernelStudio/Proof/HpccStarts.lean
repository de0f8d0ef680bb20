/-
This file proves that `HPCC_starts` gives the shift register at any step.
The register and the doubling of a step are linear, so that a jump is composed of doublings and single moves.
-/

import KernelStudio.Construction.RandomAccess
import KernelStudio.Library.XorLinear
import Mathlib.Algebra.GroupWithZero.Nat

namespace KernelStudio.RandomAccess

theorem shift_eq (ran : BitVec 64) : shift ran = (ran <<< 1) ^^^ (if ran.msb then poly else 0) := by
  simp only [shift, BitVec.msb_eq_toInt, decide_eq_true_eq]

/-- The register moves linearly. -/
theorem shift_linear : XorLinear shift := by
  intro left right
  rw [shift_eq, shift_eq, shift_eq, BitVec.shiftLeft_xor_distrib, BitVec.msb_xor, ite_xor]
  ac_rfl

/-- The entries that a sum selects are the sums of the entries that its terms select. -/
theorem foldl_select (js : List Nat) (left right first second : BitVec 64) :
    js.foldl (fun temp j => if (left ^^^ right).getLsbD j then temp ^^^ m2 j else temp) (first ^^^ second) =
      js.foldl (fun temp j => if left.getLsbD j then temp ^^^ m2 j else temp) first ^^^
        js.foldl (fun temp j => if right.getLsbD j then temp ^^^ m2 j else temp) second := by
  induction js generalizing first second with
  | nil => rfl
  | cons j rest ih =>
      have step : (if (left ^^^ right).getLsbD j then first ^^^ second ^^^ m2 j else first ^^^ second) =
          (if left.getLsbD j then first ^^^ m2 j else first) ^^^
            (if right.getLsbD j then second ^^^ m2 j else second) := by
        rw [BitVec.getLsbD_xor, ite_xor_eq, ite_xor_eq, ite_xor_eq, ite_xor]
        ac_rfl
      rw [List.foldl_cons, List.foldl_cons, List.foldl_cons, step, ih]

/-- The inner loop is linear. -/
theorem selected_linear : XorLinear selected := by
  intro left right
  have split := foldl_select (List.range 64) left right 0 0
  rwa [BitVec.xor_self] at split

/-- The inner loop doubles a move of the register. -/
theorem selected_shift : Function.Semiconj selected shift shift^[2] := by
  have same : selected ∘ shift = shift^[2] ∘ selected := by
    refine (selected_linear.comp shift_linear).ext ((shift_linear.iterate 2).comp selected_linear) ?_
    decide +kernel
  exact fun ran => congrFun same ran

/-- The inner loop doubles the step that the register has reached. -/
theorem selected_step (count : Nat) : selected (shift^[count] 1) = shift^[2 * count] 1 := by
  have start : selected 1 = 1 := by decide +kernel
  rw [(selected_shift.iterate_right count).eq, start, Function.iterate_mul]

/-- The loop over the lower bits reaches the step. -/
theorem climb_eq (n i : Nat) : climb n i (shift^[n >>> i] 1) = shift^[n] 1 := by
  induction i with
  | zero => rfl
  | succ i ih =>
      have doubled : n >>> i = 2 * (n >>> (i + 1)) + (n.testBit i).toNat := by
        rw [Nat.toNat_testBit, ← Nat.shiftRight_eq_div_pow, Nat.shiftRight_succ]
        omega
      rw [climb, selected_step, ← ih, doubled]
      cases n.testBit i with
      | false => rfl
      | true => rw [if_pos rfl, ← Function.iterate_succ_apply' shift]; rfl

/-- The loop over the bits stops at the highest one. -/
theorem shiftRight_highestBit {n i : Nat} (positive : 0 < n) (below : n < 2 ^ (i + 1)) :
    n >>> highestBit n i = 1 := by
  induction i with
  | zero =>
      rw [highestBit, Nat.shiftRight_zero]
      omega
  | succ i ih =>
      rw [highestBit]
      by_cases half : n < 2 ^ (i + 1)
      · rw [Nat.testBit_lt_two_pow half]
        exact ih half
      · have double : 2 ^ (i + 1 + 1) = 2 * 2 ^ (i + 1) := Nat.pow_succ'
        have one : n / 2 ^ (i + 1) = 1 := Nat.div_eq_of_lt_le (by omega) (by omega)
        have bit : n.testBit (i + 1) = true := by simp [Nat.testBit_eq_decide_div_mod_eq, one]
        rw [if_pos bit, Nat.shiftRight_eq_div_pow, one]

/-- The first loop makes a step that is not negative. -/
theorem raise_spec (n : Int) : 0 ≤ raise n ∧ raise n % period = n % period := by
  induction n using raise.induct with
  | case1 n negative ih =>
      rw [raise, if_pos negative]
      exact ⟨ih.1, ih.2.trans (Int.add_emod_right n period)⟩
  | case2 n nonneg =>
      rw [raise, if_neg nonneg]
      exact ⟨Int.not_lt.mp nonneg, rfl⟩

/-- The second loop makes a step of one period. -/
theorem lower_spec {n : Int} (nonneg : 0 ≤ n) :
    0 ≤ lower n ∧ lower n ≤ period ∧ lower n % period = n % period := by
  induction n using lower.induct with
  | case1 n beyond ih =>
      obtain ⟨low, high, same⟩ := ih (by omega)
      rw [lower, if_pos beyond]
      exact ⟨low, high, same.trans (Int.sub_emod_right n period)⟩
  | case2 n within =>
      rw [lower, if_neg within]
      exact ⟨nonneg, Int.not_lt.mp within, rfl⟩

/-- The loops over the bits of a positive step reach it. -/
theorem climb_highestBit {n : Nat} (positive : 0 < n) (below : n < 2 ^ 63) :
    climb n (highestBit n 62) 2 = shift^[n] 1 := by
  have first : shift^[n >>> highestBit n 62] 1 = 2 := by
    rw [shiftRight_highestBit positive below]
    decide
  rw [← first, climb_eq]

/-- The register repeats after the period. -/
theorem shift_period : shift^[period.toNat] 1 = 1 := by
  rw [← climb_highestBit (by decide) (by decide)]
  decide +kernel

/-- The function `HPCC_starts` gives the register at each step, counted modulo the period. -/
theorem hpccStarts_eq (n : Int) : hpccStarts n = shift^[(n % period).toNat] 1 := by
  obtain ⟨nonneg, raised⟩ := raise_spec n
  obtain ⟨low, high, lowered⟩ := lower_spec nonneg
  have reached : hpccStarts n = shift^[(lower (raise n)).toNat] 1 := by
    unfold hpccStarts
    by_cases start : lower (raise n) = 0
    · simp [start]
    · have small : period.toNat < 2 ^ 63 := by decide
      simp only [start, if_false]
      exact climb_highestBit (by omega) (by omega)
  rw [reached, ← raised, ← lowered]
  rcases Int.le_iff_lt_or_eq.mp high with inside | whole
  · rw [Int.emod_eq_of_lt low inside]
  · rw [whole, shift_period, Int.emod_self]
    rfl

end KernelStudio.RandomAccess
