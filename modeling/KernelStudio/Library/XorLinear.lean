/-
This file gives maps of bit vectors that respect XOR. Such a map is determined by its values at the powers of two.
-/

import Mathlib.Logic.Function.Iterate
import Mathlib.Tactic.Common

namespace KernelStudio

variable {w : Nat} {f g : BitVec w → BitVec w}

/-- A linear map of bit vectors. -/
def XorLinear (f : BitVec w → BitVec w) : Prop := ∀ left right, f (left ^^^ right) = f left ^^^ f right

/-- A mask that is set by the sum of two bits. -/
theorem ite_xor (left right : Bool) (mask : BitVec w) : (if (left ^^ right) = true then mask else 0) =
    (if left = true then mask else 0) ^^^ (if right = true then mask else 0) := by
  cases left <;> cases right <;> simp

/-- A term that is added under a condition is a mask. -/
theorem ite_xor_eq (bit : Bool) (sum term : BitVec w) :
    (if bit = true then sum ^^^ term else sum) = sum ^^^ (if bit = true then term else 0) := by
  cases bit <;> simp

namespace XorLinear

theorem zero (linear : XorLinear f) : f 0 = 0 := by
  have twice := linear 0 0
  have none : (0 : BitVec w) ^^^ 0 = 0 := BitVec.xor_self
  rw [none] at twice
  exact twice.trans BitVec.xor_self

theorem comp (outer : XorLinear f) (inner : XorLinear g) : XorLinear (f ∘ g) := fun left right => by
  rw [Function.comp_apply, inner left right, outer]
  rfl

theorem iterate (linear : XorLinear f) (count : Nat) : XorLinear f^[count] := by
  induction count with
  | zero => exact fun _ _ => rfl
  | succ count ih => exact ih.comp linear

/-- Maps that agree at the lowest powers of two agree at the vectors without higher bits. -/
theorem eq_below (left : XorLinear f) (right : XorLinear g) (count : Nat)
    (basis : ∀ j < count, f (BitVec.twoPow w j) = g (BitVec.twoPow w j)) (value : BitVec w)
    (low : ∀ j, count ≤ j → value.getLsbD j = false) : f value = g value := by
  induction count generalizing value with
  | zero =>
      have none : value = 0 := BitVec.eq_of_getLsbD_eq fun j _ => by simp [low j (Nat.zero_le j)]
      rw [none, left.zero, right.zero]
  | succ count ih =>
      have lower := ih fun j below => basis j (Nat.lt_succ_of_lt below)
      by_cases top : value.getLsbD count = true
      · have inside : count < w := BitVec.lt_of_getLsbD top
        have rest : f (value ^^^ BitVec.twoPow w count) = g (value ^^^ BitVec.twoPow w count) := by
          refine lower _ fun j above => ?_
          rw [BitVec.getLsbD_xor, BitVec.getLsbD_twoPow]
          by_cases same : count = j
          · simp [← same, top, inside]
          · simp [low j (by omega), same]
        have split : value = value ^^^ BitVec.twoPow w count ^^^ BitVec.twoPow w count := by
          rw [BitVec.xor_assoc, BitVec.xor_self, BitVec.xor_zero]
        rw [split, left, right, rest, basis count (Nat.lt_succ_self count)]
      · refine lower value fun j above => ?_
        rcases Nat.eq_or_lt_of_le above with same | beyond
        · exact same ▸ eq_false_of_ne_true top
        · exact low j beyond

/-- Linear maps that agree at the powers of two are the same. -/
theorem ext (left : XorLinear f) (right : XorLinear g)
    (basis : ∀ j < w, f (BitVec.twoPow w j) = g (BitVec.twoPow w j)) : f = g := by
  funext value
  exact left.eq_below right w basis value fun j above => BitVec.getLsbD_of_ge value j above

end XorLinear

end KernelStudio
