/-
This file gives three-way comparators: what their signs say about an order, and what a sort may rely on.
It also says which integers compare as their low words do.
-/

import Mathlib.Data.Int.Order.Basic
import Mathlib.Order.Lattice
import Mathlib.Tactic.Common

namespace KernelStudio.Comparator

variable {α β : Type} [LinearOrder β]

/-- The sign of a result says how two values compare. -/
structure SignOf (result : Int) (left right : β) : Prop where
  less : result < 0 ↔ left < right
  greater : 0 < result ↔ right < left

/-- What a sort requires of its comparator on the entries of an array. -/
structure Lawful (compare : α → α → Int) (entries : Set α) : Prop where
  antisymm : ∀ a ∈ entries, ∀ b ∈ entries, compare a b < 0 ↔ 0 < compare b a
  less : ∀ a ∈ entries, ∀ b ∈ entries, ∀ c ∈ entries, compare a b < 0 → compare b c < 0 → compare a c < 0
  equal : ∀ a ∈ entries, ∀ b ∈ entries, ∀ c ∈ entries, compare a b = 0 → compare b c = 0 → compare a c = 0

section Signs

variable {result : Int} {left right : β}

theorem SignOf.nonpos (sign : SignOf result left right) : result ≤ 0 ↔ left ≤ right := by
  rw [← not_lt, sign.greater, not_lt]

theorem SignOf.equal (sign : SignOf result left right) : result = 0 ↔ left = right := by
  have nonneg : 0 ≤ result ↔ right ≤ left := by rw [← not_lt, sign.less, not_lt]
  rw [le_antisymm_iff, sign.nonpos, nonneg, ← le_antisymm_iff]

/-- A comparator that reports the order of keys is lawful. -/
theorem lawful_of_signs {compare : α → α → Int} {entries : Set α} (key : α → β)
    (signs : ∀ a ∈ entries, ∀ b ∈ entries, SignOf (compare a b) (key a) (key b)) : Lawful compare entries where
  antisymm a first b second := by rw [(signs a first b second).less, (signs b second a first).greater]
  less a first b second c third := by
    rw [(signs a first b second).less, (signs b second c third).less, (signs a first c third).less]
    exact lt_trans
  equal a first b second c third := by
    rw [(signs a first b second).equal, (signs b second c third).equal, (signs a first c third).equal]
    exact Eq.trans

/-- The usual three results of a comparison. -/
def threeWay (left right : β) : Int := if left < right then -1 else if right < left then 1 else 0

theorem threeWay_sign (left right : β) : SignOf (threeWay left right) left right := by
  rcases lt_trichotomy left right with less | rfl | greater
  · constructor <;> simp [threeWay, less, less.not_gt]
  · constructor <;> simp [threeWay]
  · constructor <;> simp [threeWay, greater, greater.not_gt]

end Signs

section LowWords

/-- Two integers have the nearest multiple of the word size in common, or their multiples and their low words are
ordered alike. -/
def Aligned (size : Nat) (x y : Int) : Prop :=
  x.bdiv size = y.bdiv size ∨ (x.bdiv size < y.bdiv size ∧ x.bmod size < y.bmod size) ∨
    (y.bdiv size < x.bdiv size ∧ y.bmod size < x.bmod size)

instance (size : Nat) (x y : Int) : Decidable (Aligned size x y) := inferInstanceAs (Decidable (_ ∨ _ ∨ _))

variable {size : Nat} {x y : Int}

theorem Aligned.symm (aligned : Aligned size x y) : Aligned size y x :=
  aligned.imp Eq.symm Or.symm

/-- An integer with a smaller nearest multiple is smaller. -/
theorem lt_of_bdiv_lt (positive : 0 < size) (less : x.bdiv size < y.bdiv size) : x < y := by
  have low := Int.bmod_lt (x := x) positive
  have high := Int.le_bmod (x := y) positive
  have gap : (size : Int) * (x.bdiv size + 1) ≤ size * y.bdiv size :=
    Int.mul_le_mul_of_nonneg_left less (Int.natCast_nonneg size)
  rw [Int.mul_add, Int.mul_one] at gap
  have left := Int.bdiv_add_bmod x size
  have right := Int.bdiv_add_bmod y size
  omega

/-- The low words of two integers compare like the integers exactly when these are aligned. -/
theorem aligned_iff (positive : 0 < size) :
    SignOf (threeWay (x.bmod size) (y.bmod size)) x y ↔ Aligned size x y := by
  have sign := threeWay_sign (x.bmod size) (y.bmod size)
  have left := Int.bdiv_add_bmod x size
  have right := Int.bdiv_add_bmod y size
  constructor
  · intro agrees
    rcases lt_trichotomy (x.bdiv size) (y.bdiv size) with less | same | greater
    · exact .inr (.inl ⟨less, sign.less.mp (agrees.less.mpr (lt_of_bdiv_lt positive less))⟩)
    · exact .inl same
    · exact .inr (.inr ⟨greater, sign.greater.mp (agrees.greater.mpr (lt_of_bdiv_lt positive greater))⟩)
  · rintro (same | ⟨multiple, word⟩ | ⟨multiple, word⟩)
    · rw [same] at left
      refine ⟨sign.less.trans ?_, sign.greater.trans ?_⟩
      all_goals omega
    · have less := lt_of_bdiv_lt positive multiple
      exact ⟨iff_of_true (sign.less.mpr word) less, iff_of_false (mt sign.greater.mp word.not_gt) less.not_gt⟩
    · have less := lt_of_bdiv_lt positive multiple
      exact ⟨iff_of_false (mt sign.less.mp word.not_gt) less.not_gt, iff_of_true (sign.greater.mpr word) less⟩

variable {half : Nat} {m n : Nat}

/-- A natural number below half the word size is its own low word. -/
theorem bmod_of_lt (small : n < half) : (n : Int).bmod (2 * half) = n :=
  Int.bmod_eq_of_le_mul_two (by omega) (by push_cast; omega)

/-- Natural numbers below half the word size are aligned. -/
theorem aligned_of_lt (left : m < half) (right : n < half) : Aligned (2 * half) m n := by
  rw [← aligned_iff (by omega), bmod_of_lt left, bmod_of_lt right]
  exact threeWay_sign _ _

/-- The low word of a natural number in the upper half is negative. -/
theorem bmod_of_le (large : half ≤ n) (word : n < 2 * half) : (n : Int).bmod (2 * half) = n - 2 * half := by
  rw [← Int.sub_bmod_right, Int.bmod_eq_of_le_mul_two (by push_cast; omega) (by push_cast; omega)]
  push_cast
  rfl

theorem not_aligned (left : m < half) (large : half ≤ n) (word : n < 2 * half) : ¬ Aligned (2 * half) m n := by
  rw [← aligned_iff (by omega), bmod_of_lt left, bmod_of_le large word]
  intro agrees
  have less : threeWay (m : Int) (n - 2 * half) < 0 := agrees.less.mpr (by omega)
  rw [(threeWay_sign _ _).less] at less
  omega

/-- Natural numbers below the word size are aligned when both or none of them reach half of it. -/
theorem aligned_iff_of_lt (left : m < 2 * half) (right : n < 2 * half) :
    Aligned (2 * half) m n ↔ (m < half ↔ n < half) := by
  by_cases first : m < half
  · by_cases second : n < half
    · exact iff_of_true (aligned_of_lt first second) (iff_of_true first second)
    · exact iff_of_false (not_aligned first (Nat.le_of_not_lt second) right) fun same => second (same.mp first)
  · have large := Nat.le_of_not_lt first
    by_cases second : n < half
    · exact iff_of_false (fun aligned => not_aligned second large left aligned.symm)
        fun same => first (same.mpr second)
    · refine iff_of_true ?_ (iff_of_false first second)
      rw [← aligned_iff (by omega), bmod_of_le large left, bmod_of_le (Nat.le_of_not_lt second) right]
      have sign := threeWay_sign ((m : Int) - 2 * half) (n - 2 * half)
      exact ⟨sign.less.trans (by omega), sign.greater.trans (by omega)⟩

end LowWords

end KernelStudio.Comparator
