/-
This file models the random access benchmark: the shift register, the updates of the table and the jump that
starts the register at a given step. An `unsigned long` has as many bits as the platform gives it.
-/

import Mathlib.Logic.Function.Iterate

namespace KernelStudio.RandomAccess

/-- The constant `POLY`. -/
def poly : BitVec 64 := 7

/-- The constant `PERIOD`. -/
def period : Int := 1317624576693539401

/-- The next value of the shift register. -/
def shift (ran : BitVec 64) : BitVec 64 := (ran <<< 1) ^^^ (if ran.toInt < 0 then poly else 0)

section Kernel

variable {bits : Nat} (tblEntries : BitVec bits)

/-- The lower bits of the register, stored in the `int` variable `offset`. -/
def offset (ran : BitVec 64) : Int := ((ran &&& (tblEntries - 1).setWidth 64).setWidth 32).toInt

/-- The table that `malloc` has returned for so many entries. -/
abbrev Table : Type := Vector (BitVec 64) tblEntries.toNat

variable {tblEntries}

/-- The statement `table[offset] ^= ran`, which is `none` outside the table. -/
def Table.xorAssign (table : Table tblEntries) (offset : Int) (ran : BitVec 64) : Option (Table tblEntries) :=
  if inside : 0 ≤ offset ∧ offset.toNat < tblEntries.toNat then
    some (table.set offset.toNat (table[offset.toNat] ^^^ ran))
  else none

variable (tblEntries) in
/-- The table and the register between two updates. The history holds the indices of the updates so far. -/
structure Updating where
  table : Table tblEntries
  ran : BitVec 64
  offsets : List Int := []

/-- The body of the loop of `iteration`. -/
def Updating.update (state : Updating tblEntries) : Option (Updating tblEntries) :=
  let offset := offset tblEntries state.ran
  (state.table.xorAssign offset state.ran).map fun table =>
    { table, ran := shift state.ran, offsets := state.offsets ++ [offset] }

/-- So many rounds of the loop of `iteration`. -/
def Updating.updates : Nat → Updating tblEntries → Option (Updating tblEntries)
  | 0, state => some state
  | rounds + 1, state => state.update.bind (updates rounds)

/-- The loop of `iteration` makes four updates for each entry, in the arithmetic of `unsigned long`. -/
def updating (table : Table tblEntries) (ran : BitVec 64) : Option (Updating tblEntries) :=
  Updating.updates (tblEntries * 4).toNat { table, ran }

/-- The function `iteration`: the table that it leaves and the byte that it returns. -/
def iteration (table : Table tblEntries) (ran : BitVec 64) : Option (Table tblEntries × BitVec 8) :=
  (updating table ran).map fun state => (state.table, state.ran.setWidth 8)

/-- The function `__run_kernel` starts each iteration with the same seed. -/
def runIterations : Nat → Table tblEntries → BitVec 64 → Option (Table tblEntries)
  | 0, table, _ => some table
  | iterations + 1, table, ran => (iteration table ran).bind fun result => runIterations iterations result.1 ran

end Kernel

/-- The loop that adds the period to a negative step. -/
def raise (n : Int) : Int := if n < 0 then raise (n + period) else n
termination_by (-n).toNat
decreasing_by unfold period; omega

/-- The loop that subtracts the period from a step beyond it. -/
def lower (n : Int) : Int := if period < n then lower (n - period) else n
termination_by n.toNat
decreasing_by unfold period at *; omega

/-- The entries of `m2`: the register at the even steps. -/
def m2 (i : Nat) : BitVec 64 := (shift ∘ shift)^[i] 1

/-- The highest of the bits up to `i` that is set in the step, or zero. -/
def highestBit (n : Nat) : Nat → Nat
  | 0 => 0
  | i + 1 => if n.testBit (i + 1) then i + 1 else highestBit n i

/-- The inner loop collects the entries of `m2` that the bits of the register select. -/
def selected (ran : BitVec 64) : BitVec 64 :=
  (List.range 64).foldl (fun temp j => if ran.getLsbD j then temp ^^^ m2 j else temp) 0

/-- The loop over the lower bits of the step doubles the step reached and adds the bit. -/
def climb (n : Nat) : Nat → BitVec 64 → BitVec 64
  | 0, ran => ran
  | i + 1, ran => climb n i (if n.testBit i then shift (selected ran) else selected ran)

/-- The function `HPCC_starts`. -/
def hpccStarts (n : Int) : BitVec 64 :=
  let step := lower (raise n)
  if step = 0 then 1 else climb step.toNat (highestBit step.toNat 62) 2

/-- The function `run_kernel`, on the entries that `malloc` has left in the table. -/
def runKernel {bits : Nat} {tblEntries : BitVec bits} (table : Table tblEntries) (iterations : Nat) :
    Option (Table tblEntries) :=
  runIterations iterations table (hpccStarts 0)

/-- The test of `main` on the size of the table. -/
def passesCheck {bits : Nat} (tEntries : BitVec bits) : Prop := tEntries &&& (tEntries - 1) = 0

/-- The number of entries that `main` computes from the size of the table in bytes. -/
def tEntries {bits : Nat} (tSize : BitVec bits) : BitVec bits := tSize / 8

end KernelStudio.RandomAccess
