/-
This file gives a ring buffer whose two indices run freely and wrap at the size of a machine word.
It tells which history of items such a buffer represents while one reader and one writer work on it.
-/

import Mathlib.Algebra.GroupWithZero.Nat
import Mathlib.Data.List.Basic
import Mathlib.Tactic.Common

namespace KernelStudio.RingBuffer

/-- The next item goes to the cell of `input`, and the next item comes from the cell of `output`. -/
structure Buffer (α : Type) where
  data : Nat → α
  input : Nat := 0
  output : Nat := 0

variable {α : Type} (size range : Nat) (ring : Buffer α)

/-- The difference of the two indices. -/
def Buffer.used : Nat := (ring.input + range - ring.output) % range

def Buffer.unused : Nat := (size + range - ring.used range) % range

/-- A read copies items from the cells behind `output`. -/
def Buffer.peek (count : Nat) : List α := (List.range count).map fun k => ring.data ((ring.output + k) % size)

/-- A read ends when it has advanced `output`. -/
def Buffer.skip (count : Nat) : Buffer α := { ring with output := (ring.output + count) % range }

/-- The number of steps from the cell of `input` to a cell. -/
def Buffer.offset (cell : Nat) : Nat := (cell + size - ring.input % size) % size

/-- A write copies items to the cells behind `input`. -/
def Buffer.store (items : List α) : Buffer α :=
  { ring with data := fun cell => (items[ring.offset size cell]?).getD (ring.data cell) }

/-- A write ends when it has advanced `input`. -/
def Buffer.push (count : Nat) : Buffer α := { ring with input := (ring.input + count) % range }

/-- The items from the first one that has not been read to the last one that has been written. -/
def Buffer.contents : List α := ring.peek size (ring.used range)

/-- The buffer has received the items of a history, and a write has copied further items that it has not
ended with. The first items of the history have been read. -/
structure Represents (ring : Buffer α) (history pending : List α) (taken : Nat) : Prop where
  input : ring.input = history.length % range
  output : ring.output = taken % range
  taken_le : taken ≤ history.length
  bounded : history.length + pending.length ≤ taken + size
  cells : ∀ k, taken ≤ k → k < history.length + pending.length →
    (history ++ pending)[k]? = some (ring.data (k % size))

variable {size range ring} {history pending items : List α} {taken count : Nat}

/-- An empty buffer represents the empty history. -/
theorem represents_nil (data : Nat → α) : Represents size range { data } [] [] 0 where
  input := (Nat.zero_mod range).symm
  output := (Nat.zero_mod range).symm
  taken_le := Nat.le_refl 0
  bounded := by simp
  cells k _ inside := by simp at inside

section Indices

/-- The difference of two wrapped indices is their distance. -/
theorem wrapped_sub {low high : Nat} (ordered : low ≤ high) (near : high - low < range) :
    (high % range + range - low % range) % range = high - low := by
  have positive : 0 < range := Nat.zero_lt_of_lt near
  have lowFits : low % range < range := Nat.mod_lt low positive
  have split : high % range = (low % range + (high - low)) % range := by
    rw [Nat.mod_add_mod, Nat.add_sub_cancel' ordered]
  rw [split, Nat.add_mod_eq_ite, Nat.mod_mod, Nat.mod_eq_of_lt near]
  split
  · have : low % range + (high - low) - range + range - low % range = high - low := by omega
    rw [this, Nat.mod_eq_of_lt near]
  · have : low % range + (high - low) + range - low % range = high - low + range := by omega
    rw [this, Nat.add_mod_right, Nat.mod_eq_of_lt near]

/-- The offset of a cell is its distance from the cell of `input`. -/
theorem offset_ahead {first k : Nat} (start : ring.input % size = first % size) (ahead : first ≤ k)
    (near : k - first < size) : ring.offset size (k % size) = k - first := by
  rw [Buffer.offset, start]
  exact wrapped_sub ahead near

/-- The offset of a cell behind the cell of `input` is counted around the ring. -/
theorem offset_behind {first k : Nat} (start : ring.input % size = first % size) (behind : k < first)
    (near : first - k ≤ size) : ring.offset size (k % size) = k + size - first := by
  have around : (k + size) % size = k % size := Nat.add_mod_right k size
  rw [← around]
  have ahead := offset_ahead (k := k + size) start (by omega) (by omega)
  exact ahead

end Indices

namespace Represents

variable (represents : Represents size range ring history pending taken)

include represents

theorem used_eq (small : size < range) : ring.used range = history.length - taken := by
  have bounded := represents.bounded
  rw [Buffer.used, represents.input, represents.output]
  exact wrapped_sub represents.taken_le (by omega)

theorem unused_eq (small : size < range) : ring.unused size range = size - (history.length - taken) := by
  have bounded := represents.bounded
  rw [Buffer.unused, represents.used_eq small]
  have split : size + range - (history.length - taken) = size - (history.length - taken) + range := by omega
  rw [split, Nat.add_mod_right, Nat.mod_eq_of_lt (by omega)]

/-- The output index selects the cell of the first item that has not been read. -/
theorem output_cell (divides : size ∣ range) (k : Nat) : (ring.output + k) % size = (taken + k) % size := by
  rw [represents.output, Nat.add_mod, Nat.mod_mod_of_dvd taken divides, ← Nat.add_mod]

theorem input_cell (divides : size ∣ range) : ring.input % size = history.length % size := by
  rw [represents.input, Nat.mod_mod_of_dvd _ divides]

/-- A read finds the next items of the history. -/
theorem peek_eq (divides : size ∣ range) (available : count ≤ history.length - taken) :
    ring.peek size count = (history.drop taken).take count := by
  have taken_le := represents.taken_le
  refine List.ext_getElem? fun k => ?_
  simp only [Buffer.peek, List.getElem?_map, List.getElem?_take, List.getElem?_drop]
  by_cases inside : k < count
  · rw [List.getElem?_range inside, Option.map_some, if_pos inside, represents.output_cell divides]
    have cell := represents.cells (taken + k) (by omega) (by omega)
    rw [List.getElem?_append_left (by omega)] at cell
    exact cell.symm
  · rw [List.getElem?_eq_none (by simpa using inside), if_neg inside, Option.map_none]

theorem contents_eq (divides : size ∣ range) (small : size < range) :
    ring.contents size range = history.drop taken := by
  rw [Buffer.contents, represents.used_eq small, represents.peek_eq divides (Nat.le_refl _)]
  exact List.take_of_length_le (by simp)

/-- A read may end at any time. -/
theorem skip (available : count ≤ history.length - taken) :
    Represents size range (ring.skip range count) history pending (taken + count) where
  input := represents.input
  output := by
    simp only [Buffer.skip, represents.output, Nat.mod_add_mod]
  taken_le := by
    have := represents.taken_le
    omega
  bounded := by
    have := represents.bounded
    omega
  cells k above inside := represents.cells k (by omega) inside

/-- A write may end at any time. -/
theorem push : Represents size range (ring.push range pending.length) (history ++ pending) [] taken where
  input := by
    simp only [Buffer.push, represents.input, Nat.mod_add_mod, List.length_append]
  output := represents.output
  taken_le := by
    have := represents.taken_le
    simp only [List.length_append]
    omega
  bounded := by simpa using represents.bounded
  cells k above inside := by
    rw [List.append_nil]
    exact represents.cells k above (by simpa using inside)

end Represents

/-- A write leaves the items that have not been read. -/
theorem Represents.store (represents : Represents size range ring history [] taken) (divides : size ∣ range)
    (fits : items.length ≤ size - (history.length - taken)) :
    Represents size range (ring.store size items) history items taken where
  input := represents.input
  output := represents.output
  taken_le := represents.taken_le
  bounded := by
    have := represents.bounded
    have := represents.taken_le
    simp only [List.length_nil, Nat.add_zero] at *
    omega
  cells k above inside := by
    have bounded := represents.bounded
    have taken_le := represents.taken_le
    rw [List.length_nil, Nat.add_zero] at bounded
    have start := represents.input_cell divides
    by_cases old : k < history.length
    · have offset := offset_behind start old (by omega)
      have cell := represents.cells k above (by simpa using old)
      rw [List.append_nil] at cell
      rw [List.getElem?_append_left old, cell]
      simp only [Buffer.store, offset]
      rw [List.getElem?_eq_none (by omega), Option.getD_none]
    · have offset := offset_ahead start (Nat.le_of_not_lt old) (by omega)
      rw [List.getElem?_append_right (Nat.le_of_not_lt old)]
      simp only [Buffer.store, offset]
      rw [List.getElem?_eq_getElem (by omega), Option.getD_some]

end KernelStudio.RingBuffer
