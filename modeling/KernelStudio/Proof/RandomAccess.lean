/-
This file proves that the updates of the random access benchmark cancel in two iterations with one seed.
The register does not read the table, so each iteration makes the same updates.
-/

import KernelStudio.Construction.RandomAccess
import KernelStudio.Library.Updates
import Mathlib.Algebra.Ring.Parity

namespace KernelStudio.RandomAccess

open Updates

variable {bits k : Nat} {tblEntries : BitVec bits}

/-- The mask of a size that is not zero does not wrap. -/
theorem toNat_sub_one (positive : 0 < tblEntries.toNat) : (tblEntries - 1).toNat = tblEntries.toNat - 1 := by
  have fits := tblEntries.isLt
  have one : (1 : BitVec bits).toNat = 1 := by
    change (BitVec.ofNat bits 1).toNat = 1
    rw [BitVec.toNat_ofNat]
    exact Nat.mod_eq_of_lt (Nat.lt_of_le_of_lt positive fits)
  have below : 2 ^ bits - 1 + tblEntries.toNat = tblEntries.toNat - 1 + 2 ^ bits := by omega
  rw [BitVec.toNat_sub, one, below, Nat.add_mod_right,
    Nat.mod_eq_of_lt (Nat.lt_of_le_of_lt (Nat.sub_le _ _) fits)]

/-- The test of `main` accepts zero and the powers of two. -/
theorem passesCheck_iff : passesCheck tblEntries ↔ tblEntries.toNat = 0 ∨ ∃ k, tblEntries.toNat = 2 ^ k := by
  by_cases zero : tblEntries.toNat = 0
  · have none : tblEntries = 0 := BitVec.eq_of_toNat_eq (by simpa using zero)
    simp [passesCheck, none]
  · have positive := Nat.pos_of_ne_zero zero
    rw [passesCheck, ← BitVec.toNat_inj, BitVec.toNat_and, toNat_sub_one positive]
    exact (Nat.and_sub_one_eq_zero_iff_isPowerOfTwo zero).trans ⟨.inr, fun power => power.resolve_left zero⟩

/-- The index is the register modulo the number of entries. -/
theorem offset_eq (power : tblEntries.toNat = 2 ^ k) (small : k ≤ 31) (ran : BitVec 64) :
    offset tblEntries ran = (ran.toNat % tblEntries.toNat : Nat) := by
  have positive : 0 < 2 ^ k := Nat.two_pow_pos k
  have bound : 2 ^ k ≤ 2 ^ 31 := Nat.pow_le_pow_right (by decide) small
  have below : ran.toNat % 2 ^ k < 2 ^ k := Nat.mod_lt _ positive
  have low : ((ran &&& (tblEntries - 1).setWidth 64).setWidth 32).toNat = ran.toNat % 2 ^ k := by
    have mask : ((tblEntries - 1).setWidth 64).toNat = 2 ^ k - 1 := by
      rw [BitVec.toNat_setWidth, toNat_sub_one (power ▸ positive), power, Nat.mod_eq_of_lt (by omega)]
    rw [BitVec.toNat_setWidth, BitVec.toNat_and, mask, Nat.and_two_pow_sub_one_eq_mod,
      Nat.mod_eq_of_lt (by omega)]
  rw [offset, BitVec.toInt_eq_toNat_of_lt (by omega), low, power]

/-- The place and the value of an update. -/
def item (positive : 0 < tblEntries.toNat) (ran : BitVec 64) : Fin tblEntries.toNat × BitVec 64 :=
  (⟨ran.toNat % tblEntries.toNat, Nat.mod_lt _ positive⟩, ran)

/-- The updates of so many rounds. They are determined by the seed alone. -/
def items (positive : 0 < tblEntries.toNat) : Nat → BitVec 64 → List (Fin tblEntries.toNat × BitVec 64)
  | 0, _ => []
  | rounds + 1, ran => item positive ran :: items positive rounds (shift ran)

theorem length_items (positive : 0 < tblEntries.toNat) (rounds : Nat) (ran : BitVec 64) :
    (items positive rounds ran).length = rounds := by
  induction rounds generalizing ran with
  | zero => rfl
  | succ rounds ih => rw [items, List.length_cons, ih]

/-- The table after some updates. -/
def apply (table : Table tblEntries) (items : List (Fin tblEntries.toNat × BitVec 64)) : Table tblEntries :=
  items.foldl (combineAt (· ^^^ ·)) table

instance xorRightCommutative : RightCommutative fun left right : BitVec 64 => left ^^^ right where
  right_comm value first second := by rw [BitVec.xor_assoc, BitVec.xor_comm first, BitVec.xor_assoc]

/-- Updates cancel when they are made twice. -/
theorem apply_involutive (items : List (Fin tblEntries.toNat × BitVec 64)) :
    Function.Involutive fun table : Table tblEntries => apply table items := by
  refine foldl_involutive (combineAt (· ^^^ ·)) (combineAt_involutive _ fun value word => ?_) items
  change word ^^^ value ^^^ value = word
  rw [BitVec.xor_assoc, BitVec.xor_self, BitVec.xor_zero]

/-- An update of a table whose size is a power of two is inside the table. -/
theorem update_eq (power : tblEntries.toNat = 2 ^ k) (small : k ≤ 31) (positive : 0 < tblEntries.toNat)
    (state : Updating tblEntries) : state.update = some {
      table := apply state.table [item positive state.ran]
      ran := shift state.ran
      offsets := state.offsets ++ [((item positive state.ran).1 : Int)] } := by
  have inside : (0 : Int) ≤ (state.ran.toNat % tblEntries.toNat : Nat) ∧
      state.ran.toNat % tblEntries.toNat < tblEntries.toNat := ⟨Int.natCast_nonneg _, Nat.mod_lt _ positive⟩
  simp only [Updating.update, Table.xorAssign, offset_eq power small, Int.toNat_natCast, dif_pos inside,
    Option.map_some]
  rfl

/-- The rounds of the loop make the updates of the seed. -/
theorem updates_eq (power : tblEntries.toNat = 2 ^ k) (small : k ≤ 31) (positive : 0 < tblEntries.toNat)
    (rounds : Nat) (state : Updating tblEntries) : Updating.updates rounds state = some {
      table := apply state.table (items positive rounds state.ran)
      ran := shift^[rounds] state.ran
      offsets := state.offsets ++ (items positive rounds state.ran).map fun item => (item.1 : Int) } := by
  induction rounds generalizing state with
  | zero => simp [Updating.updates, items, apply]
  | succ rounds ih =>
      rw [Updating.updates, update_eq power small positive, Option.bind_some, ih]
      simp [items, apply, Function.iterate_succ_apply]

/-- One iteration makes the updates of its seed. -/
theorem iteration_eq (power : tblEntries.toNat = 2 ^ k) (small : k ≤ 31) (positive : 0 < tblEntries.toNat)
    (table : Table tblEntries) (ran : BitVec 64) :
    iteration table ran = some (apply table (items positive (tblEntries * 4).toNat ran),
      (shift^[(tblEntries * 4).toNat] ran).setWidth 8) := by
  rw [iteration, updating, updates_eq power small positive, Option.map_some]

/-- Iterations with one seed repeat its updates. -/
theorem runIterations_eq (power : tblEntries.toNat = 2 ^ k) (small : k ≤ 31) (positive : 0 < tblEntries.toNat)
    (iterations : Nat) (table : Table tblEntries) (ran : BitVec 64) :
    runIterations iterations table ran =
      some ((fun table => apply table (items positive (tblEntries * 4).toNat ran))^[iterations] table) := by
  induction iterations generalizing table with
  | zero => rfl
  | succ iterations ih =>
      rw [runIterations, iteration_eq power small positive, Option.bind_some, ih, Function.iterate_succ_apply]

/-- For each power of two up to `2 ^ 31`, each index lies inside the table, two iterations with one seed
restore the table, and so does each even number of iterations. -/
theorem iteration_involutive (power : tblEntries.toNat = 2 ^ k) (small : k ≤ 31) (table : Table tblEntries)
    (ran : BitVec 64) :
    (∃ state, updating table ran = some state ∧ state.offsets.length = (tblEntries * 4).toNat ∧
      ∀ offset ∈ state.offsets, 0 ≤ offset ∧ offset < tblEntries.toNat) ∧
    (∃ once dummy, iteration table ran = some (once, dummy) ∧ iteration once ran = some (table, dummy)) ∧
    (∀ iterations, Even iterations → runIterations iterations table ran = some table) ∧
    runKernel table 4 = some table := by
  have positive : 0 < tblEntries.toNat := power ▸ Nat.two_pow_pos k
  have even (ran : BitVec 64) (iterations : Nat) (twice : Even iterations) :
      runIterations iterations table ran = some table := by
    rw [runIterations_eq power small positive, Function.Involutive.iterate_even (apply_involutive _) twice]
    rfl
  refine ⟨⟨_, updates_eq power small positive _ _, ?_, fun offset used => ?_⟩, ?_, even ran, even _ 4 (by decide)⟩
  · simp [length_items]
  · obtain ⟨place, _, rfl⟩ := List.mem_map.mp used
    exact ⟨Int.natCast_nonneg _, Int.ofNat_lt.mpr place.1.isLt⟩
  · refine ⟨_, _, iteration_eq power small positive table ran, ?_⟩
    have undone := apply_involutive (items positive (tblEntries * 4).toNat ran) table
    rw [iteration_eq power small positive]
    exact congrArg (fun restored => some (restored, _)) undone

/-- A table of four entries. -/
def fourEntries : Table (4 : BitVec 32) := #v[10, 20, 30, 40]

/-- One iteration changes the table of four entries, and a second one restores it. -/
theorem iteration_involutive_four :
    (iteration fourEntries 1).map Prod.fst ≠ some fourEntries ∧
      ∃ once dummy, iteration fourEntries 1 = some (once, dummy) ∧
        iteration once 1 = some (fourEntries, dummy) := by
  have changed : (iteration fourEntries 1).map Prod.fst ≠ some fourEntries := by decide +kernel
  have power : (4 : BitVec 32).toNat = 2 ^ 2 := rfl
  exact ⟨changed, (iteration_involutive power (by decide) fourEntries 1).2.1⟩

theorem hpccStarts_zero : hpccStarts 0 = 1 := by
  simp [hpccStarts, raise, lower, period]

/-- The mask of a large table keeps the low word of the register. -/
theorem offset_wide (platform : bits ≤ 64) (power : tblEntries.toNat = 2 ^ k) (wide : 32 ≤ k) {ran : BitVec 64}
    (short : ran.toNat < 2 ^ 32) : offset tblEntries ran = (ran.setWidth 32).toInt := by
  have large : 2 ^ 32 ≤ 2 ^ k := Nat.pow_le_pow_right (by decide) wide
  have word : 2 ^ k < 2 ^ 64 :=
    Nat.lt_of_lt_of_le (power ▸ tblEntries.isLt) (Nat.pow_le_pow_right (by decide) platform)
  have masked : ran &&& (tblEntries - 1).setWidth 64 = ran := by
    have mask : ((tblEntries - 1).setWidth 64).toNat = 2 ^ k - 1 := by
      rw [BitVec.toNat_setWidth, toNat_sub_one (power ▸ Nat.two_pow_pos k), power, Nat.mod_eq_of_lt (by omega)]
    apply BitVec.eq_of_toNat_eq
    rw [BitVec.toNat_and, mask, Nat.and_two_pow_sub_one_eq_mod, Nat.mod_eq_of_lt (by omega)]
  rw [offset, masked]

/-- The register passes through the powers of two up to the sign bit of an `int`. -/
theorem shift_power : ∀ i < 31, shift (BitVec.ofNat 64 (2 ^ i)) = BitVec.ofNat 64 (2 ^ (i + 1)) ∧
    (BitVec.ofNat 64 (2 ^ i)).toNat < 2 ^ 32 ∧ ((BitVec.ofNat 64 (2 ^ i)).setWidth 32).toInt = (2 ^ i : Nat) := by
  decide +kernel

/-- The rounds of a loop are made one part after the other. -/
theorem updates_add (first later : Nat) (state : Updating tblEntries) :
    Updating.updates (first + later) state = (Updating.updates first state).bind (Updating.updates later) := by
  induction first generalizing state with
  | zero => rw [Nat.zero_add, Updating.updates, Option.bind_some]
  | succ first ih =>
      rw [Nat.succ_add, Updating.updates, Updating.updates, Option.bind_assoc]
      exact congrArg _ (funext ih)

/-- In a large table, the register and the index pass through the powers of two. -/
theorem updates_power (platform : bits ≤ 64) (power : tblEntries.toNat = 2 ^ k) (wide : 32 ≤ k) {rounds i : Nat}
    (early : i + rounds ≤ 31) (state : Updating tblEntries) (started : state.ran = BitVec.ofNat 64 (2 ^ i)) :
    ∃ final, Updating.updates rounds state = some final ∧ final.ran = BitVec.ofNat 64 (2 ^ (i + rounds)) := by
  have large : 2 ^ 32 ≤ 2 ^ k := Nat.pow_le_pow_right (by decide) wide
  induction rounds generalizing i state with
  | zero => exact ⟨state, rfl, started⟩
  | succ rounds ih =>
      obtain ⟨moved, short, value⟩ := shift_power i (by omega)
      have place : offset tblEntries state.ran = (2 ^ i : Nat) := by
        rw [started, offset_wide platform power wide short, value]
      have inside : (0 : Int) ≤ (2 ^ i : Nat) ∧ 2 ^ i < tblEntries.toNat := by
        have low : 2 ^ i < 2 ^ 32 := Nat.pow_lt_pow_right (by decide) (by omega)
        exact ⟨Int.natCast_nonneg _, by omega⟩
      obtain ⟨next, taken, ran⟩ : ∃ next, state.update = some next ∧ next.ran = shift state.ran := by
        simp only [Updating.update, place, Table.xorAssign, Int.toNat_natCast, dif_pos inside, Option.map_some]
        exact ⟨_, rfl, rfl⟩
      obtain ⟨final, executed, last⟩ := ih (i := i + 1) (by omega) next (by rw [ran, started, moved])
      rw [Nat.add_assoc, Nat.add_comm 1 rounds] at last
      refine ⟨final, ?_, last⟩
      rw [Updating.updates, taken, Option.bind_some, executed]

/-- In a large table, the index is negative once the register has come to the sign bit of an `int`. -/
theorem offset_negative (platform : bits ≤ 64) (power : tblEntries.toNat = 2 ^ k) (wide : 32 ≤ k)
    (table : Table tblEntries) : ∃ state : Updating tblEntries,
      Updating.updates 31 { table, ran := 1 } = some state ∧ offset tblEntries state.ran = -2147483648 := by
  obtain ⟨state, executed, register⟩ : ∃ state : Updating tblEntries,
      Updating.updates 31 { table, ran := 1 } = some state ∧ state.ran = BitVec.ofNat 64 (2 ^ (0 + 31)) :=
    updates_power platform power wide (by decide) _ rfl
  refine ⟨state, executed, ?_⟩
  rw [register, offset_wide platform power wide (by decide)]
  decide

/-- The update after that is outside of the table. -/
theorem updates_wide (platform : bits ≤ 64) (power : tblEntries.toNat = 2 ^ k) (wide : 32 ≤ k) {rounds : Nat}
    (enough : 31 < rounds) (table : Table tblEntries) : Updating.updates rounds { table, ran := 1 } = none := by
  obtain ⟨more, rfl⟩ := Nat.exists_eq_add_of_lt enough
  obtain ⟨state, executed, negative⟩ := offset_negative platform power wide table
  have outside : state.update = none := by
    simp [Updating.update, negative, Table.xorAssign]
  rw [Nat.add_assoc, updates_add, executed, Option.bind_some, Updating.updates, outside, Option.bind_none]

/-- Nothing is updated when the number of updates wraps to zero. -/
theorem runIterations_idle (idle : (tblEntries * 4).toNat = 0) (iterations : Nat) (table : Table tblEntries)
    (ran : BitVec 64) : runIterations iterations table ran = some table := by
  induction iterations with
  | zero => rfl
  | succ iterations ih =>
      have once : iteration table ran = some (table, ran.setWidth 8) := by
        rw [iteration, updating, idle]
        rfl
      rw [runIterations, once, Option.bind_some, ih]

/-- The updates stay inside a table of zero entries or of a power of two exactly when there are at most `2 ^ 31` entries
or the number of updates wraps. -/
theorem runKernel_isSome_iff (platform : bits ≤ 64) (accepted : passesCheck tblEntries) (table : Table tblEntries)
    (iterations : Nat) : (runKernel table (iterations + 1)).isSome = true ↔
      tblEntries.toNat ≤ 2 ^ 31 ∨ 2 ^ bits ≤ tblEntries.toNat * 4 := by
  have updates : (tblEntries * 4).toNat = tblEntries.toNat * 4 % 2 ^ bits := by
    rw [BitVec.toNat_mul]
    exact (Nat.mul_mod_mod _ _ _)
  rw [runKernel, hpccStarts_zero]
  rcases passesCheck_iff.mp accepted with none | ⟨k, power⟩
  · rw [runIterations_idle (by rw [updates, none, Nat.zero_mul, Nat.zero_mod])]
    simp [none]
  · by_cases small : k ≤ 31
    · have bound : 2 ^ k ≤ 2 ^ 31 := Nat.pow_le_pow_right (by decide) small
      rw [runIterations_eq power small (power ▸ Nat.two_pow_pos k)]
      exact iff_of_true rfl (.inl (power ▸ bound))
    · have large : 2 ^ 32 ≤ 2 ^ k := Nat.pow_le_pow_right (by decide) (by omega)
      by_cases wraps : 2 ^ bits ≤ tblEntries.toNat * 4
      · have whole : 2 ^ bits ∣ tblEntries.toNat * 4 := by
          rw [power, show 4 = 2 ^ 2 from rfl, ← Nat.pow_add] at wraps ⊢
          exact Nat.pow_dvd_pow 2 ((Nat.pow_le_pow_iff_right (by decide)).mp wraps)
        rw [runIterations_idle (by rw [updates, Nat.mod_eq_zero_of_dvd whole])]
        exact iff_of_true rfl (.inr wraps)
      · have rounds : 31 < (tblEntries * 4).toNat := by
          rw [updates, Nat.mod_eq_of_lt (by omega)]
          omega
        have fails : iteration table 1 = none := by
          rw [iteration, updating, updates_wide platform power (by omega) rounds, Option.map_none]
        rw [runIterations, fails, Option.bind_none]
        refine iff_of_false (by simp) ?_
        rintro (few | wrapped)
        · omega
        · exact wraps wrapped

/-- Fewer updates are made than the table has bytes. -/
theorem tEntries_lt (tSize : BitVec bits) : (tEntries tSize).toNat * 4 < 2 ^ bits := by
  have size := tSize.isLt
  have eight : (8 : BitVec bits).toNat = 8 % 2 ^ bits := BitVec.toNat_ofNat 8 bits
  rw [tEntries, BitVec.toNat_udiv, eight]
  by_cases narrow : bits ≤ 3
  · rw [Nat.mod_eq_zero_of_dvd (Nat.pow_dvd_pow 2 narrow), Nat.div_zero, Nat.zero_mul]
    exact Nat.two_pow_pos bits
  · have wide : 2 ^ 4 ≤ 2 ^ bits := Nat.pow_le_pow_right (by decide) (by omega)
    rw [Nat.mod_eq_of_lt (by omega)]
    omega

/-- For each size in bytes that `main` accepts, the benchmark stays inside its table exactly when the table has at most
`2 ^ 31` entries. In a larger table the variable `offset` is negative at the 32nd update. -/
theorem runKernel_safe_iff (platform : bits ≤ 64) (tSize : BitVec bits) (accepted : passesCheck (tEntries tSize))
    (table : Table (tEntries tSize)) (iterations : Nat) :
    ((runKernel table (iterations + 1)).isSome = true ↔ (tEntries tSize).toNat ≤ 2 ^ 31) ∧
      (2 ^ 31 < (tEntries tSize).toNat → ∃ state, Updating.updates 31 { table, ran := hpccStarts 0 } = some state ∧
        offset (tEntries tSize) state.ran = -2147483648) := by
  constructor
  · exact (runKernel_isSome_iff platform accepted table iterations).trans
      (or_iff_left (Nat.not_le_of_lt (tEntries_lt tSize)))
  · intro large
    obtain none | ⟨k, power⟩ := passesCheck_iff.mp accepted
    · omega
    · have wide : 31 < k := (Nat.pow_lt_pow_iff_right (by decide)).mp (power ▸ large)
      rw [hpccStarts_zero]
      exact offset_negative platform power wide table

/-- A table of 32 GiB is left at a negative index. -/
theorem runKernel_safe_iff_large : ∃ table : Table (tEntries (0x800000000 : BitVec 64)), runKernel table 4 = none ∧
    ∃ state, Updating.updates 31 { table, ran := hpccStarts 0 } = some state ∧
      offset (tEntries (0x800000000 : BitVec 64)) state.ran = -2147483648 := by
  have accepted : passesCheck (tEntries (0x800000000 : BitVec 64)) := by
    unfold passesCheck
    decide
  have large : 2 ^ 31 < (tEntries (0x800000000 : BitVec 64)).toNat := by decide
  obtain ⟨safe, negative⟩ := runKernel_safe_iff (by decide) _ accepted (Vector.replicate _ 0) 3
  refine ⟨Vector.replicate _ 0, Option.not_isSome_iff_eq_none.mp ?_, negative large⟩
  exact mt safe.mp (Nat.not_le_of_lt large)

end KernelStudio.RandomAccess
