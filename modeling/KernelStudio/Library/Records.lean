/-
This file gives numbers as bytes with the lowest byte first, and records that follow one another in a buffer.
A reader that knows the length of the record in front of it meets the records one after another.
-/

import Mathlib.Algebra.GroupWithZero.Nat
import Mathlib.Data.List.Basic
import Mathlib.Tactic.Common

namespace KernelStudio.Records

section Numbers

/-- The lowest bytes of a number. -/
def toBytes : Nat → Nat → List UInt8
  | 0, _ => []
  | count + 1, value => UInt8.ofNat value :: toBytes count (value / 256)

/-- The number that some bytes stand for. -/
def ofBytes : List UInt8 → Nat
  | [] => 0
  | byte :: rest => byte.toNat + 256 * ofBytes rest

@[simp] theorem length_toBytes (count value : Nat) : (toBytes count value).length = count := by
  induction count generalizing value with
  | zero => rfl
  | succ count ih => rw [toBytes, List.length_cons, ih]

/-- The bytes of a number stand for it modulo their range. -/
theorem ofBytes_toBytes (count value : Nat) : ofBytes (toBytes count value) = value % 256 ^ count := by
  induction count generalizing value with
  | zero => rw [toBytes, ofBytes, Nat.pow_zero, Nat.mod_one]
  | succ count ih =>
      have lowest : (UInt8.ofNat value).toNat = value % 256 := UInt8.toNat_ofNat'
      rw [toBytes, ofBytes, ih, lowest, Nat.pow_succ', Nat.mod_mul]

end Numbers

section Sequence

variable {Record Symbol : Type} {encode : Record → List Symbol} {buf : List Symbol} {len pos : Nat}
  {record : Record} {records : List Record}

/-- These records lie between a position of the buffer and the end of its content. -/
structure Remaining (encode : Record → List Symbol) (buf : List Symbol) (len pos : Nat)
    (records : List Record) : Prop where
  content : records.flatMap encode <+: buf.drop pos
  stop : pos + (records.flatMap encode).length = len

/-- After a read all records remain. -/
theorem Remaining.start (records : List Record) (old : List Symbol) :
    Remaining encode (records.flatMap encode ++ old) (records.flatMap encode).length 0 records :=
  ⟨List.prefix_append _ _, Nat.zero_add _⟩

/-- The first record lies at the position. -/
theorem Remaining.head (remaining : Remaining encode buf len pos (record :: records)) :
    ∃ rest, buf.drop pos = encode record ++ rest := by
  obtain ⟨rest, content⟩ := remaining.content
  exact ⟨records.flatMap encode ++ rest, by rw [← content, List.flatMap_cons, List.append_assoc]⟩

/-- The length of the first record leads to the others. -/
theorem Remaining.next (remaining : Remaining encode buf len pos (record :: records)) :
    Remaining encode buf len (pos + (encode record).length) records := by
  obtain ⟨rest, content⟩ := remaining.content
  have stop := remaining.stop
  rw [List.flatMap_cons] at content stop
  refine ⟨⟨rest, ?_⟩, ?_⟩
  · rw [← List.drop_drop, ← content, List.append_assoc, List.drop_left]
  · rw [← stop, List.length_append, Nat.add_assoc]

/-- The reader is inside the content as long as records remain. -/
theorem Remaining.lt_iff (remaining : Remaining encode buf len pos records)
    (nonempty : ∀ record, encode record ≠ []) : pos < len ↔ records ≠ [] := by
  have stop := remaining.stop
  cases records with
  | nil =>
      simp only [List.flatMap_nil, List.length_nil] at stop
      simp only [ne_eq, not_true_eq_false, iff_false]
      omega
  | cons record rest =>
      have long := List.length_pos_iff.mpr (nonempty record)
      rw [List.flatMap_cons, List.length_append] at stop
      simp only [ne_eq, reduceCtorEq, not_false_eq_true, iff_true]
      omega

end Sequence

end KernelStudio.Records
