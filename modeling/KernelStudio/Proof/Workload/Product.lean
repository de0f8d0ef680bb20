/-
This file proves for which arrays the matrix multiplication comes to its end, and what it computes then. The order of
its additions is that of the loops, so the statement about one entry holds for rounded arithmetic too.
-/

import KernelStudio.Proof.Workload.Pages
import Mathlib.Algebra.BigOperators.Fin
import Mathlib.Data.Matrix.Mul

namespace KernelStudio.Workload

open Accumulate

variable {α : Type} {matrixSize row col index : Nat} {granted : Nat → Bool}

/-- The accepted sizes have places that fit into a variable of type `unsigned`. -/
theorem unsigned_place (accepted : matrixSize ≤ sqrtOfUint32Max) (inside : row < matrixSize)
    (below : col < matrixSize) : unsigned (row * matrixSize + col) = row * matrixSize + col := by
  have place := place_lt inside below
  have square : matrixSize * matrixSize ≤ sqrtOfUint32Max * sqrtOfUint32Max := Nat.mul_le_mul accepted accepted
  refine Nat.mod_eq_of_lt ?_
  unfold sqrtOfUint32Max at square
  omega

/-- The rounds that write one entry are those of its row and column. -/
theorem multiplyRounds_filter (accepted : matrixSize ≤ sqrtOfUint32Max) (inside : row < matrixSize)
    (below : col < matrixSize) :
    (multiplyRounds matrixSize).filter (fun round => round.written = row * matrixSize + col) =
      (List.range matrixSize).map fun index =>
        ⟨row * matrixSize + col, row * matrixSize + index, index * matrixSize + col⟩ := by
  have written {other otherCol : Nat} (known : other < matrixSize) (short : otherCol < matrixSize) :
      unsigned (other * matrixSize + otherCol) = row * matrixSize + col ↔ other = row ∧ otherCol = col := by
    rw [unsigned_place accepted known short]
    exact place_inj short below
  rw [multiplyRounds, filter_flatMap_range inside, filter_flatMap_range below]
  · -- all rounds of this row and column stay
    rw [List.filter_eq_self.mpr]
    · refine List.map_congr_left fun index known => ?_
      have short := List.mem_range.mp known
      rw [unsigned_place accepted inside below, unsigned_place accepted inside short,
        unsigned_place accepted short below]
    · intro round known
      obtain ⟨index, _, rfl⟩ := List.mem_map.mp known
      exact decide_eq_true ((written inside below).mpr ⟨rfl, rfl⟩)
  · intro otherCol short different
    refine List.filter_eq_nil_iff.mpr fun round known => ?_
    obtain ⟨index, _, rfl⟩ := List.mem_map.mp known
    simpa [written inside short] using different
  · intro other known different
    refine List.filter_eq_nil_iff.mpr fun round unknown => ?_
    obtain ⟨otherCol, short, unknown⟩ := List.mem_flatMap.mp unknown
    obtain ⟨index, _, rfl⟩ := List.mem_map.mp unknown
    simp [written known (List.mem_range.mp short), different]

/-- The rounds stay inside the arrays exactly when each array has room for a matrix. -/
theorem multiplyRounds_inside (accepted : matrixSize ≤ sqrtOfUint32Max) (arrays : Arrays α) :
    (∀ round ∈ multiplyRounds matrixSize,
      round.written < arrays.C.length ∧ round.left < arrays.A.length ∧ round.right < arrays.B.length) ↔
      arrays.Room (matrixSize * matrixSize) := by
  have each {index : Round → Nat} (known : index = Round.written ∨ index = Round.left ∨ index = Round.right)
      (length : Nat) :
      (∀ round ∈ multiplyRounds matrixSize, index round < length) ↔ matrixSize * matrixSize ≤ length := by
    constructor
    · intro inside
      by_contra short
      obtain ⟨round, found, same⟩ := (multiplyRounds_places accepted known length).mpr (Nat.lt_of_not_le short)
      exact absurd (inside round found) (by omega)
    · intro room round found
      exact Nat.lt_of_lt_of_le ((multiplyRounds_places accepted known _).mp ⟨round, found, rfl⟩) room
  rw [Arrays.Room, ← each (.inr (.inl rfl)) arrays.A.length, ← each (.inr (.inr rfl)) arrays.B.length,
    ← each (.inl rfl) arrays.C.length]
  constructor
  · intro inside
    exact ⟨fun round found => (inside round found).2.1, fun round found => (inside round found).2.2,
      fun round found => (inside round found).1⟩
  · intro ⟨left, right, written⟩ round found
    exact ⟨written round found, left round found, right round found⟩

section Entries

variable [Add α] [Mul α]

/-- The entries of `C` after one round. -/
def addedProduct (A B : Entries α) (value : Nat → α) (round : Round) : Nat → α :=
  combineAt (· + ·) value (round.written, A.value round.left * B.value round.right)

/-- One round of the loops adds a product to an entry of `C`, if all three entries belong to their arrays. -/
theorem multiplyAdd_eq (arrays : Arrays α) (round : Round) :
    multiplyAdd arrays round =
      if round.written < arrays.C.length ∧ round.left < arrays.A.length ∧ round.right < arrays.B.length then
        some { arrays with C := ⟨arrays.C.length, addedProduct arrays.A arrays.B arrays.C.value round⟩ }
      else none := by
  unfold multiplyAdd Entries.read Entries.write addedProduct combineAt
  by_cases written : round.written < arrays.C.length
  · by_cases left : round.left < arrays.A.length
    · by_cases right : round.right < arrays.B.length
      · simp [written, left, right]
      · simp [written, left, right]
    · simp [written, left]
  · simp [written]

/-- The arrays that the loops leave when they stay inside. -/
def multiplied (matrixSize : Nat) (arrays : Arrays α) : Arrays α :=
  { arrays with C :=
    ⟨arrays.C.length, (multiplyRounds matrixSize).foldl (addedProduct arrays.A arrays.B) arrays.C.value⟩ }

/-- The loops come to their end exactly in arrays with room for a matrix. -/
theorem multiply_eq (accepted : matrixSize ≤ sqrtOfUint32Max) (arrays : Arrays α) :
    multiply matrixSize arrays =
      if arrays.Room (matrixSize * matrixSize) then some (multiplied matrixSize arrays) else none := by
  let left (value : Nat → α) : Arrays α := { arrays with C := ⟨arrays.C.length, value⟩ }
  let next (kept : Arrays α) (round : Round) : Arrays α := left (addedProduct arrays.A arrays.B kept.C.value round)
  let Kept (kept : Arrays α) : Prop :=
    kept.A = arrays.A ∧ kept.B = arrays.B ∧ kept.C.length = arrays.C.length
  have values : (multiplyRounds matrixSize).foldl next arrays = multiplied matrixSize arrays :=
    List.foldl_hom left fun _ _ => rfl
  have checked (kept : Arrays α) (round : Round) (same : Kept kept) : multiplyAdd kept round =
      if round.written < arrays.C.length ∧ round.left < arrays.A.length ∧ round.right < arrays.B.length then
        some (next kept round)
      else none := by
    obtain ⟨A, B, C⟩ := kept
    obtain ⟨rfl, rfl, length⟩ := same
    rw [multiplyAdd_eq, length]
  rw [multiply, foldlM_of_checked Kept _ next _ ⟨rfl, rfl, rfl⟩ (fun _ _ _ => ⟨rfl, rfl, rfl⟩) checked, values]
  exact if_congr (multiplyRounds_inside accepted arrays) rfl rfl

/-- The loops add the products of the rounds to the entries that they write. -/
theorem multiplied_value (arrays : Arrays α) (place : Nat) :
    (multiplied matrixSize arrays).C.value place =
      ((multiplyRounds matrixSize).filter (fun round => round.written = place)).foldl
        (fun sum round => sum + arrays.A.value round.left * arrays.B.value round.right) (arrays.C.value place) := by
  have items := foldl_combineAt (· + ·) ((multiplyRounds matrixSize).map fun round =>
    (round.written, arrays.A.value round.left * arrays.B.value round.right)) arrays.C.value place
  rw [List.foldl_map, List.filter_map, List.map_map, List.foldl_map] at items
  exact items

/-- The value of one entry after the loops. -/
theorem multiplied_place (accepted : matrixSize ≤ sqrtOfUint32Max) (inside : row < matrixSize)
    (below : col < matrixSize) (arrays : Arrays α) :
    (multiplied matrixSize arrays).C.value (row * matrixSize + col) =
      (List.range matrixSize).foldl
        (fun sum index =>
          sum + arrays.A.value (row * matrixSize + index) * arrays.B.value (index * matrixSize + col))
        (arrays.C.value (row * matrixSize + col)) := by
  rw [multiplied_value, multiplyRounds_filter accepted inside below, List.foldl_map]

/-- The loops come to their end exactly when each array has room for a matrix. Then an entry of `C` ends as its old
value with the products of its row and column, added from left to right, and nothing else is changed. -/
theorem multiply_entry (accepted : matrixSize ≤ sqrtOfUint32Max) (arrays : Arrays α) :
    ((multiply matrixSize arrays).isSome ↔ arrays.Room (matrixSize * matrixSize)) ∧
    ∀ result, multiply matrixSize arrays = some result →
      result.A = arrays.A ∧ result.B = arrays.B ∧ result.C.length = arrays.C.length ∧
      (∀ row < matrixSize, ∀ col < matrixSize, result.C.value (row * matrixSize + col) =
        (List.range matrixSize).foldl
          (fun sum index =>
            sum + arrays.A.value (row * matrixSize + index) * arrays.B.value (index * matrixSize + col))
          (arrays.C.value (row * matrixSize + col))) ∧
      ∀ place, matrixSize * matrixSize ≤ place → result.C.value place = arrays.C.value place := by
  rw [multiply_eq accepted]
  refine ⟨by simp, fun result left => ?_⟩
  obtain ⟨_, same⟩ := Option.ite_none_right_eq_some.mp left
  cases same
  refine ⟨rfl, rfl, rfl, fun row inside col below => multiplied_place accepted inside below arrays,
    fun place outside => ?_⟩
  have unwritten : (multiplyRounds matrixSize).filter (fun round => round.written = place) = [] := by
    refine List.filter_eq_nil_iff.mpr fun round known => ?_
    have short := (multiplyRounds_places accepted (.inl rfl) _).mp ⟨round, known, rfl⟩
    simp only [decide_eq_true_eq]
    omega
  rw [multiplied_value, unwritten, List.foldl_nil]

/-- What was in the last entry of a product of two matrices stays in it. An array of three entries is too short. -/
theorem multiply_entry_last :
    ((multiply 2 ⟨⟨4, (· + 1)⟩, ⟨4, (· + 5)⟩, ⟨4, fun _ => 7⟩⟩).map (·.C.value 3) = some 57) ∧
      multiply 2 ⟨⟨4, (· + 1)⟩, ⟨4, (· + 5)⟩, ⟨3, fun _ => 7⟩⟩ = none := by
  constructor
  · obtain ⟨ends, entries⟩ := multiply_entry (by decide : 2 ≤ sqrtOfUint32Max)
      ⟨⟨4, (· + 1)⟩, ⟨4, (· + 5)⟩, ⟨4, fun _ => 7⟩⟩
    obtain ⟨result, left⟩ := Option.isSome_iff_exists.mp (ends.mpr (by decide))
    rw [left]
    exact congrArg some (((entries result left).2.2.2.1 1 (by decide) 1 (by decide)).trans (by decide))
  · have refused := (multiply_entry (by decide : 2 ≤ sqrtOfUint32Max)
      ⟨⟨4, (· + 1)⟩, ⟨4, (· + 5)⟩, ⟨3, fun _ => 7⟩⟩).1
    rw [← Option.not_isSome_iff_eq_none, refused]
    decide

end Entries

section Requests

/-- The arrays of the three requests have room for a matrix. -/
theorem request_room {length : Bool → Nat → Nat} (serves : Serves length) (accepted : matrixSize ≤ sqrtOfUint32Max)
    (memory : Nat → Nat → α) :
    (Arrays.request length granted matrixSize memory).Room (matrixSize * matrixSize) ↔
      matrixSize = 0 ∨ (∀ area < 3, granted area = true) ∧ matrixSize ≤ 23170 := by
  have entries (bytes : Nat) (values : Nat → α) : matrixSize * matrixSize ≤ (Entries.ofBytes bytes values).length ↔
      sizeofDouble * (matrixSize * matrixSize) ≤ bytes := by
    rw [Entries.ofBytes, Nat.le_div_iff_mul_le (by decide), Nat.mul_comm]
  rw [← matrices_enough_iff serves accepted]
  simp only [Arrays.Room, Arrays.request, entries]
  constructor
  · intro ⟨left, right, product⟩ area known
    rcases (show area = 0 ∨ area = 1 ∨ area = 2 by omega) with rfl | rfl | rfl
    · exact left
    · exact right
    · exact product
  · intro enough
    exact ⟨enough 0 (by decide), enough 1 (by decide), enough 2 (by decide)⟩

/-- Matrices that fit have no wrapped size. -/
theorem squaredSize_eq (fits : matrixSize = 0 ∨ (∀ area < 3, granted area = true) ∧ matrixSize ≤ 23170) :
    squaredSize matrixSize = matrixSize * matrixSize := by
  have small : matrixSize ≤ 23170 := by omega
  have square := square_lt_iff.mpr small
  unfold sizeofDouble at square
  exact Nat.mod_eq_of_lt (by omega)

end Requests

section Matrices

variable [Ring α]

/-- The matrix in the first rows and columns of an array. -/
def toMatrix (matrixSize : Nat) (array : Entries α) : Matrix (Fin matrixSize) (Fin matrixSize) α :=
  fun row col => array.value (row * matrixSize + col)

/-- A loop that adds values to a variable adds their sum. -/
theorem foldl_add_sum (count : Nat) (value : Nat → α) (initial : α) :
    (List.range count).foldl (fun sum index => sum + value index) initial =
      initial + ∑ index ∈ Finset.range count, value index := by
  induction count with
  | zero => simp
  | succ count ih => rw [List.range_succ, List.foldl_append, ih, Finset.sum_range_succ, ← add_assoc]; rfl

/-- The loops add the product to the matrix that is in `C`. -/
theorem toMatrix_multiplied (accepted : matrixSize ≤ sqrtOfUint32Max) (arrays : Arrays α) :
    toMatrix matrixSize (multiplied matrixSize arrays).C =
      toMatrix matrixSize arrays.C + toMatrix matrixSize arrays.A * toMatrix matrixSize arrays.B := by
  ext row col
  rw [Matrix.add_apply, Matrix.mul_apply, toMatrix, multiplied_place accepted row.isLt col.isLt,
    foldl_add_sum, Finset.sum_range]
  rfl

theorem toMatrix_eq_zero (array : Entries α) :
    toMatrix matrixSize array = 0 ↔ ∀ place < matrixSize * matrixSize, array.value place = 0 := by
  constructor
  · intro zero place inside
    obtain ⟨row, known, col, below, rfl⟩ := exists_place inside
    exact congrFun (congrFun zero ⟨row, known⟩) ⟨col, below⟩
  · intro zero
    ext row col
    exact zero _ (place_lt row.isLt col.isLt)

/-- The arrays after one round of the generating loop. -/
def Arrays.fill (rand : Nat → α) (arrays : Arrays α) (index : Nat) : Arrays α where
  A := ⟨arrays.A.length, Function.update arrays.A.value index (rand (2 * index))⟩
  B := ⟨arrays.B.length, Function.update arrays.B.value index (rand (2 * index + 1))⟩
  C := ⟨arrays.C.length, Function.update arrays.C.value index 0⟩

/-- The arrays with new values in their first entries. -/
def generated (count : Nat) (rand : Nat → α) (arrays : Arrays α) : Arrays α where
  A := ⟨arrays.A.length, fun place => if place < count then rand (2 * place) else arrays.A.value place⟩
  B := ⟨arrays.B.length, fun place => if place < count then rand (2 * place + 1) else arrays.B.value place⟩
  C := ⟨arrays.C.length, fun place => if place < count then 0 else arrays.C.value place⟩

/-- The rounds fill the first entries of the arrays and no others. -/
theorem foldl_fill (count : Nat) (rand : Nat → α) (arrays : Arrays α) :
    (List.range count).foldl (Arrays.fill rand) arrays = generated count rand arrays := by
  have filled (value array : Nat → α) (count : Nat) :
      Function.update (fun place => if place < count then value place else array place) count (value count) =
        fun place => if place < count + 1 then value place else array place := by
    funext place
    rcases Nat.lt_trichotomy place count with earlier | rfl | later
    · rw [Function.update_of_ne (Nat.ne_of_lt earlier), if_pos earlier, if_pos (Nat.lt_succ_of_lt earlier)]
    · rw [Function.update_self, if_pos (Nat.lt_succ_self place)]
    · rw [Function.update_of_ne (Nat.ne_of_gt later), if_neg (Nat.not_lt_of_lt later), if_neg (by omega)]
  induction count with
  | zero => simp [generated]
  | succ count ih =>
      rw [List.range_succ, List.foldl_append, ih, List.foldl_cons, List.foldl_nil]
      simp only [Arrays.fill, generated, filled (fun place => rand (2 * place)),
        filled (fun place => rand (2 * place + 1)), filled fun _ => (0 : α)]

/-- One round of the generating loop fills an entry of each array, if it belongs to all three. -/
theorem generateEntry_eq (rand : Nat → α) (arrays : Arrays α) (index : Nat) :
    generateEntry rand arrays index =
      if arrays.Room (index + 1) then some (arrays.fill rand index) else none := by
  unfold generateEntry Entries.write Arrays.fill Arrays.Room
  simp only [Nat.succ_le_iff]
  by_cases left : index < arrays.A.length
  · by_cases right : index < arrays.B.length
    · by_cases product : index < arrays.C.length
      · simp [left, right, product]
      · simp [left, right, product]
    · simp [left, right]
  · simp [left]

/-- The generating loop comes to its end exactly in arrays with room for its entries. -/
theorem generate_eq (rand : Nat → α) (arrays : Arrays α) :
    generate matrixSize rand arrays =
      if arrays.Room (squaredSize matrixSize) then some (generated (squaredSize matrixSize) rand arrays) else none := by
  let Kept (kept : Arrays α) : Prop :=
    kept.A.length = arrays.A.length ∧ kept.B.length = arrays.B.length ∧ kept.C.length = arrays.C.length
  have checked (kept : Arrays α) (index : Nat) (same : Kept kept) : generateEntry rand kept index =
      if arrays.Room (index + 1) then some (kept.fill rand index) else none := by
    obtain ⟨left, right, product⟩ := same
    rw [generateEntry_eq]
    exact if_congr (by rw [Arrays.Room, left, right, product, Arrays.Room]) rfl rfl
  have room (count : Nat) : (∀ index ∈ List.range count, arrays.Room (index + 1)) ↔ arrays.Room count := by
    cases count with
    | zero => simp [Arrays.Room]
    | succ last =>
        constructor
        · exact fun inside => inside last (List.mem_range.mpr (Nat.lt_succ_self last))
        · intro ⟨left, right, product⟩ index below
          have short := List.mem_range.mp below
          exact ⟨by omega, by omega, by omega⟩
  rw [generate, foldlM_of_checked Kept _ (Arrays.fill rand) _ ⟨rfl, rfl, rfl⟩ (fun _ _ kept => kept) checked,
    foldl_fill]
  exact if_congr (room _) rfl rfl

/-- The first version comes to its end exactly when its matrices fit. -/
theorem generatedMm_eq_some (accepted : matrixSize ≤ sqrtOfUint32Max) {rand : Nat → α} {memory : Nat → Nat → α}
    {result : Arrays α} :
    generatedMm granted matrixSize rand memory = some result ↔
      (matrixSize = 0 ∨ (∀ area < 3, granted area = true) ∧ matrixSize ≤ 23170) ∧
        result = multiplied matrixSize (generated (matrixSize * matrixSize) rand
          (.request mallocLength granted matrixSize memory)) := by
  have fits := @request_room α matrixSize granted mallocLength mallocLength_serves accepted memory
  rw [← fits, generatedMm, generate_eq, Option.bind_eq_bind, Option.bind_eq_some_iff]
  constructor
  · rintro ⟨arrays, filled, left⟩
    obtain ⟨_, same⟩ := Option.ite_none_right_eq_some.mp filled
    rw [multiply_eq accepted] at left
    obtain ⟨room, equal⟩ := Option.ite_none_right_eq_some.mp left
    cases same
    rw [squaredSize_eq (fits.mp room)] at equal
    exact ⟨room, (Option.some.inj equal).symm⟩
  · rintro ⟨room, rfl⟩
    rw [squaredSize_eq (fits.mp room)]
    exact ⟨_, if_pos room, (multiply_eq accepted _).trans (if_pos room)⟩

/-- The version for the paging device comes to its end exactly when its matrices fit. -/
theorem pagedMm_eq_some (accepted : matrixSize ≤ sqrtOfUint32Max) {memory : Nat → Nat → α} {result : Arrays α} :
    pagedMm granted matrixSize memory = some result ↔
      (matrixSize = 0 ∨ (∀ area < 3, granted area = true) ∧ matrixSize ≤ 23170) ∧
        result = multiplied matrixSize (.request mmapLength granted matrixSize memory) := by
  rw [← request_room mmapLength_serves accepted memory, pagedMm, multiply_eq accepted, Option.ite_none_right_eq_some,
    Option.some.injEq, eq_comm (a := result)]

/-- Both versions come to their end exactly when their matrices fit. The one that generates its matrices leaves their
product in `C`, whatever the memory held before. The one for the paging device does so exactly when its pages hold
zeros. -/
theorem product_left_iff (accepted : matrixSize ≤ sqrtOfUint32Max) (granted : Nat → Bool) (rand : Nat → α)
    (memory : Nat → Nat → α) :
    ((generatedMm granted matrixSize rand memory).isSome ↔
      matrixSize = 0 ∨ (∀ area < 3, granted area = true) ∧ matrixSize ≤ 23170) ∧
    ((pagedMm granted matrixSize memory).isSome ↔
      matrixSize = 0 ∨ (∀ area < 3, granted area = true) ∧ matrixSize ≤ 23170) ∧
    (∀ result, generatedMm granted matrixSize rand memory = some result →
      (∀ place < matrixSize * matrixSize,
        result.A.value place = rand (2 * place) ∧ result.B.value place = rand (2 * place + 1)) ∧
      toMatrix matrixSize result.C = toMatrix matrixSize result.A * toMatrix matrixSize result.B) ∧
    ∀ result, pagedMm granted matrixSize memory = some result →
      (toMatrix matrixSize result.C = toMatrix matrixSize result.A * toMatrix matrixSize result.B ↔
        ∀ place < matrixSize * matrixSize, memory 2 place = 0) := by
  refine ⟨?_, ?_, fun result left => ?_, fun result left => ?_⟩
  · simp only [Option.isSome_iff_exists, generatedMm_eq_some accepted, exists_and_left, exists_eq, and_true]
  · simp only [Option.isSome_iff_exists, pagedMm_eq_some accepted, exists_and_left, exists_eq, and_true]
  · obtain ⟨_, rfl⟩ := (generatedMm_eq_some accepted).mp left
    refine ⟨fun place inside => ⟨if_pos inside, if_pos inside⟩, ?_⟩
    have cleared : toMatrix matrixSize (generated (matrixSize * matrixSize) rand
        (.request mallocLength granted matrixSize memory)).C = 0 :=
      (toMatrix_eq_zero _).mpr fun place inside => if_pos inside
    rw [toMatrix_multiplied accepted, cleared, zero_add]
    rfl
  · obtain ⟨_, rfl⟩ := (pagedMm_eq_some accepted).mp left
    rw [toMatrix_multiplied accepted]
    exact add_eq_right.trans (toMatrix_eq_zero _)

/-- A page that was used before spoils the product of two matrices with one entry. The size 65536 is accepted, although
its requests have no bytes. -/
theorem product_left_iff_used :
    (∀ result, pagedMm (fun _ => true) 1 (fun area _ => (area + 2 : Int)) = some result →
      toMatrix 1 result.C ≠ toMatrix 1 result.A * toMatrix 1 result.B) ∧
      generatedMm (fun _ => true) 65536 (fun _ => 1) (fun _ _ => (0 : Int)) = none := by
  constructor
  · intro result left same
    have zero := ((product_left_iff (by decide) _ (fun _ => 0) _).2.2.2 result left).mp same 0 (by decide)
    exact absurd zero (by decide)
  · have refused := (product_left_iff (by decide : 65536 ≤ sqrtOfUint32Max) (fun _ => true) (fun _ => 1)
      (fun _ _ => (0 : Int))).1
    rw [← Option.not_isSome_iff_eq_none, refused]
    decide

end Matrices

end KernelStudio.Workload
