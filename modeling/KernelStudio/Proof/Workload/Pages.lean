/-
This file proves which entries and pages the matrix programs use, and for which arguments they keep to their arrays.
-/

import KernelStudio.Construction.Workload
import KernelStudio.Library.Accumulate
import KernelStudio.Proof.Paging.Record
import Mathlib.Algebra.BigOperators.Ring.Finset
import Mathlib.Algebra.Order.BigOperators.Group.Finset

namespace KernelStudio.Workload

open Accumulate Paging

variable {program : List Operation} {matrixSize n : Nat} {granted : Nat → Bool}

/-- A program that uses the first entries of its first arrays. -/
def Uses (program : List Operation) (areas : Nat) (entries : Nat → Nat) : Prop :=
  ∀ access : Access, .access access ∈ program ↔ access.area < areas ∧ access.index < entries access.area

/-- The rows and columns of a loop give the entries below their product. -/
theorem exists_unsigned_place (rows cols place : Nat) (fits : rows * cols ≤ 2 ^ 32) :
    (∃ row < rows, ∃ col < cols, unsigned (row * cols + col) = place) ↔ place < rows * cols := by
  constructor
  · rintro ⟨row, inside, col, below, rfl⟩
    have short := place_lt inside below
    exact Nat.lt_of_le_of_lt (Nat.mod_le _ _) short
  · intro short
    obtain ⟨row, inside, col, below, rfl⟩ := exists_place short
    exact ⟨row, inside, col, below, Nat.mod_eq_of_lt (Nat.lt_of_lt_of_le short fits)⟩

theorem square_le (accepted : matrixSize ≤ sqrtOfUint32Max) : matrixSize * matrixSize ≤ 2 ^ 32 :=
  (Nat.mul_le_mul accepted accepted).trans (by decide)

/-- Each of the three indices runs through all places of a matrix. -/
theorem multiplyRounds_places (accepted : matrixSize ≤ sqrtOfUint32Max) {index : Round → Nat}
    (known : index = Round.written ∨ index = Round.left ∨ index = Round.right) (place : Nat) :
    (∃ round ∈ multiplyRounds matrixSize, index round = place) ↔ place < matrixSize * matrixSize := by
  have places := exists_unsigned_place matrixSize matrixSize place (square_le accepted)
  simp only [multiplyRounds, List.mem_flatMap, List.mem_map, List.mem_range]
  constructor
  · rintro ⟨_, ⟨row, inside, col, below, last, short, rfl⟩, found⟩
    rcases known with rfl | rfl | rfl
    · exact places.mp ⟨row, inside, col, below, found⟩
    · exact places.mp ⟨row, inside, last, short, found⟩
    · exact places.mp ⟨last, short, col, below, found⟩
  · intro short
    obtain ⟨row, inside, col, below, rfl⟩ := places.mpr short
    rcases known with rfl | rfl | rfl
    · exact ⟨_, ⟨row, inside, col, below, col, below, rfl⟩, rfl⟩
    · exact ⟨_, ⟨row, inside, col, below, col, below, rfl⟩, rfl⟩
    · exact ⟨_, ⟨row, inside, col, below, row, inside, rfl⟩, rfl⟩

/-- The multiplication uses all entries of its three matrices. -/
theorem uses_denseMm (accepted : matrixSize ≤ sqrtOfUint32Max) :
    Uses (denseMm matrixSize) 3 fun _ => matrixSize * matrixSize := by
  rintro ⟨area, index⟩
  have written := multiplyRounds_places accepted (.inl rfl) index
  have left := multiplyRounds_places accepted (.inr (.inl rfl)) index
  have right := multiplyRounds_places accepted (.inr (.inr rfl)) index
  rw [denseMm, if_neg (Nat.not_lt_of_le accepted)]
  simp only [Round.accesses, List.mem_append, List.mem_replicate, reduceCtorEq, and_false, false_or, List.mem_flatMap,
    List.mem_cons, Operation.access.injEq, Access.mk.injEq, List.not_mem_nil, or_false]
  constructor
  · rintro ⟨round, known, ⟨rfl, rfl⟩ | ⟨rfl, rfl⟩ | ⟨rfl, rfl⟩⟩
    · exact ⟨by decide, left.mp ⟨round, known, rfl⟩⟩
    · exact ⟨by decide, right.mp ⟨round, known, rfl⟩⟩
    · exact ⟨by decide, written.mp ⟨round, known, rfl⟩⟩
  · rintro ⟨three, short⟩
    rcases (show area = 0 ∨ area = 1 ∨ area = 2 by omega) with rfl | rfl | rfl
    · obtain ⟨round, known, same⟩ := left.mpr short
      exact ⟨round, known, .inl ⟨rfl, same.symm⟩⟩
    · obtain ⟨round, known, same⟩ := right.mpr short
      exact ⟨round, known, .inr (.inl ⟨rfl, same.symm⟩)⟩
    · obtain ⟨round, known, same⟩ := written.mpr short
      exact ⟨round, known, .inr (.inr ⟨rfl, same.symm⟩)⟩

/-- The assignment uses the first rows. -/
theorem uses_sparseMm (accepted : matrixSize ≤ sqrtOfUint32Max) (fits : n * matrixSize ≤ 2 ^ 32) :
    Uses (sparseMm matrixSize n) 1 fun _ => n * matrixSize := by
  rintro ⟨area, index⟩
  have places := exists_unsigned_place n matrixSize index fits
  rw [sparseMm, if_neg (Nat.not_lt_of_le accepted)]
  simp only [List.mem_cons, List.mem_flatMap, List.mem_map, List.mem_range, reduceCtorEq, false_or,
    Operation.access.injEq, Access.mk.injEq]
  constructor
  · rintro ⟨row, inside, col, below, rfl, same⟩
    exact ⟨by decide, places.mp ⟨row, inside, col, below, same⟩⟩
  · rintro ⟨one, short⟩
    obtain ⟨row, inside, col, below, same⟩ := places.mpr short
    exact ⟨row, inside, col, below, by omega, same⟩

/-- The copy uses all entries of `A` and the first rows of `B`. -/
theorem uses_floydWarshall (accepted : n ≤ dataSize) :
    Uses (floydWarshall n) 2 fun area => if area = 0 then dataSize * dataSize else n * dataSize := by
  rintro ⟨area, index⟩
  have whole := exists_unsigned_place dataSize dataSize index (by decide)
  have rows := exists_unsigned_place n dataSize index
    ((Nat.mul_le_mul_right dataSize accepted).trans (by decide))
  have fewer : n * dataSize ≤ dataSize * dataSize := Nat.mul_le_mul_right dataSize accepted
  rw [floydWarshall, if_neg (Nat.not_lt_of_le accepted)]
  simp only [List.mem_cons, List.mem_append, List.mem_flatMap, List.mem_map, List.mem_range, reduceCtorEq,
    false_or, Operation.access.injEq, Access.mk.injEq, List.not_mem_nil, or_false]
  constructor
  · rintro (⟨i, inside, j, below, rfl, same⟩ | ⟨k, inside, i, below, ⟨rfl, same⟩ | ⟨rfl, same⟩⟩)
    · exact ⟨by decide, by rw [if_pos rfl]; exact whole.mp ⟨i, inside, j, below, same⟩⟩
    · have short := rows.mp ⟨k, inside, i, below, same.symm⟩
      exact ⟨by decide, by rw [if_pos rfl]; omega⟩
    · exact ⟨by decide, by rw [if_neg (by decide)]; exact rows.mp ⟨k, inside, i, below, same.symm⟩⟩
  · rintro ⟨two, short⟩
    by_cases first : area = 0
    · rw [if_pos first] at short
      obtain ⟨i, inside, j, below, same⟩ := whole.mpr short
      exact .inl ⟨i, inside, j, below, first.symm, same⟩
    · rw [if_neg first] at short
      obtain ⟨k, inside, i, below, same⟩ := rows.mpr short
      exact .inr ⟨k, inside, i, below, .inr ⟨by omega, same.symm⟩⟩

/-- The pages of a length begin below it. -/
theorem lt_pageNum {page length : Nat} : page < pageNum length ↔ page * pageSize < length := by
  rw [← Nat.not_le, pageNum_le_iff, Nat.not_le]

/-- The first entries of an array lie in its first pages. -/
theorem image_page (area entries : Nat) :
    (Finset.range entries).image (fun index => Access.page ⟨area, index⟩) =
      (Finset.range (pageNum (sizeofDouble * entries))).image fun page => (area, page) := by
  ext ⟨other, page⟩
  simp only [Finset.mem_image, Finset.mem_range, Access.page, Prod.mk.injEq, lt_pageNum, pageSize, sizeofDouble]
  constructor
  · rintro ⟨index, inside, rfl, rfl⟩
    exact ⟨8 * index / 4096, by omega, rfl, rfl⟩
  · rintro ⟨page, inside, rfl, rfl⟩
    exact ⟨512 * page, by omega, rfl, by omega⟩

/-- The pages of a program are counted array by array. -/
theorem card_touched {areas : Nat} {entries : Nat → Nat} (uses : Uses program areas entries) :
    (touched program).card = ∑ area ∈ Finset.range areas, pageNum (sizeofDouble * entries area) := by
  have member (key : Nat × Nat) : key ∈ touched program ↔
      ∃ area < areas, key ∈ (Finset.range (entries area)).image fun index => Access.page ⟨area, index⟩ := by
    simp only [touched, List.mem_toFinset, List.mem_filterMap, Finset.mem_image, Finset.mem_range]
    constructor
    · rintro ⟨operation, known, found⟩
      cases operation with
      | mmapMalloc bytes => cases found
      | access access =>
          obtain ⟨area, index⟩ := (uses access).mp known
          exact ⟨access.area, area, access.index, index, Option.some.inj found⟩
    · rintro ⟨area, inside, index, below, same⟩
      exact ⟨.access ⟨area, index⟩, (uses ⟨area, index⟩).mpr ⟨inside, below⟩, congrArg some same⟩
  rw [Finset.card_eq_sum_card_fiberwise (f := Prod.fst) (t := Finset.range areas)]
  · refine Finset.sum_congr rfl fun area known => ?_
    have fiber : (touched program).filter (fun key => key.1 = area) =
        (Finset.range (pageNum (sizeofDouble * entries area))).image fun page => (area, page) := by
      rw [← image_page]
      ext key
      rw [Finset.mem_filter, member]
      constructor
      · rintro ⟨⟨other, _, found⟩, same⟩
        obtain ⟨index, _, rfl⟩ := Finset.mem_image.mp found
        cases same
        exact found
      · intro found
        refine ⟨⟨area, Finset.mem_range.mp known, found⟩, ?_⟩
        obtain ⟨index, _, rfl⟩ := Finset.mem_image.mp found
        rfl
    rw [fiber, Finset.card_image_of_injective _ fun first second same => (Prod.mk.inj same).2, Finset.card_range]
  · intro key known
    obtain ⟨area, inside, found⟩ := (member key).mp known
    obtain ⟨index, _, rfl⟩ := Finset.mem_image.mp found
    exact Finset.mem_coe.mpr (Finset.mem_range.mpr inside)

theorem safe_mmapMalloc {lengths : List Nat} {bytes : Nat} {rest : List Operation} :
    Safe granted lengths (.mmapMalloc bytes :: rest) ↔
      Safe granted (lengths ++ [mmapLength (granted lengths.length) bytes]) rest := Iff.rfl

theorem safe_access {lengths : List Nat} {access : Access} {rest : List Operation} :
    Safe granted lengths (.access access :: rest) ↔ access.Inside lengths ∧ Safe granted lengths rest := by
  simp [Safe, checkAccesses]

/-- Accesses between the calls of `mmap_malloc` are checked against the areas of the moment. -/
theorem safe_append {lengths : List Nat} {accesses rest : List Operation} (mapped : requests accesses = []) :
    Safe granted lengths (accesses ++ rest) ↔
      (∀ access, .access access ∈ accesses → access.Inside lengths) ∧ Safe granted lengths rest := by
  induction accesses with
  | nil => simp
  | cons operation accesses ih =>
      cases operation with
      | mmapMalloc bytes => simp [requests] at mapped
      | access access => simp [safe_access, ih mapped, and_assoc]

/-- After the calls of `mmap_malloc` a program is safe when its accesses are inside. -/
theorem safe_accesses {lengths : List Nat} (mapped : requests program = []) :
    Safe granted lengths program ↔ ∀ access, .access access ∈ program → access.Inside lengths := by
  rw [← List.append_nil program, safe_append mapped, List.append_nil]
  exact and_iff_left rfl

/-- The first entries of an array are inside when the last one of them is. -/
theorem inside_iff {lengths : List Nat} {area entries : Nat} :
    (∀ index < entries, Access.Inside lengths ⟨area, index⟩) ↔ sizeofDouble * entries ≤ lengths.getD area 0 := by
  unfold Access.Inside sizeofDouble
  constructor
  · intro inside
    cases entries with
    | zero => exact Nat.zero_le _
    | succ last => exact inside last (Nat.lt_succ_self last)
  · intro enough index below
    exact (Nat.mul_le_mul_left 8 below).trans enough

/-- A program is safe when the areas are as long as the entries that it uses. -/
theorem safe_iff {rest : List Operation} {lengths : List Nat} {areas : Nat} {entries : Nat → Nat}
    (uses : Uses program areas entries) (calls : ∀ access : Access, .access access ∈ program ↔ .access access ∈ rest)
    (mapped : requests rest = []) :
    Safe granted lengths rest ↔ ∀ area < areas, sizeofDouble * entries area ≤ lengths.getD area 0 := by
  rw [safe_accesses mapped]
  constructor
  · intro inside area known
    exact inside_iff.mp fun index below => inside ⟨area, index⟩ ((calls _).mp ((uses ⟨area, index⟩).mpr ⟨known, below⟩))
  · rintro enough ⟨area, index⟩ called
    obtain ⟨known, below⟩ := (uses ⟨area, index⟩).mp ((calls _).mpr called)
    exact inside_iff.mpr (enough area known) index below

/-- The bytes of a matrix fit into 32 bits up to this size. -/
theorem square_lt_iff : sizeofDouble * (matrixSize * matrixSize) < 2 ^ 32 ↔ matrixSize ≤ 23170 := by
  unfold sizeofDouble
  constructor
  · intro fits
    by_contra large
    have least : 23171 * 23171 ≤ matrixSize * matrixSize := Nat.mul_le_mul (by omega) (by omega)
    omega
  · intro small
    have most : matrixSize * matrixSize ≤ 23170 * 23170 := Nat.mul_le_mul small small
    omega

/-- What a request gives: nothing when it is refused, otherwise its bytes and less than a page more. -/
def Serves (length : Bool → Nat → Nat) : Prop :=
  ∀ grant bytes, (0 < length grant bytes → grant = true) ∧ length grant bytes < bytes + pageSize ∧
    (grant = true → bytes ≤ length grant bytes)

theorem mmapLength_serves : Serves mmapLength := by
  intro grant bytes
  have covers : bytes ≤ pageNum bytes * pageSize := pageNum_le_iff.mp (Nat.le_refl _)
  have tight : pageNum bytes * pageSize < bytes + pageSize := by
    by_contra more
    have last : pageNum bytes - 1 < pageNum bytes := by unfold pageSize at more; omega
    have begins := lt_pageNum.mp last
    unfold pageSize at more begins
    omega
  unfold mmapLength
  refine ⟨fun some => ?_, ?_, fun given => ?_⟩
  · split at some
    · rename_i given
      exact given.1
    · exact absurd some (Nat.lt_irrefl 0)
  · split
    · exact tight
    · exact Nat.add_pos_right bytes (by decide)
  · split
    · exact covers
    · rename_i refused
      simp only [given, true_and, not_not] at refused
      omega

theorem mallocLength_serves : Serves mallocLength := by
  intro grant bytes
  unfold mallocLength pageSize
  cases grant
  · simp
  · simp

/-- No request for a matrix gives more than the address space and a page. -/
theorem mmapLength_lt (grant : Bool) (matrixSize : Nat) :
    mmapLength grant (matrixBytes matrixSize) < 2 ^ 32 + pageSize :=
  (mmapLength_serves grant _).2.1.trans (Nat.add_lt_add_right (Nat.mod_lt _ (by decide)) _)

section Requests

variable {length : Bool → Nat → Nat} (serves : Serves length) (accepted : matrixSize ≤ sqrtOfUint32Max)

include serves accepted

/-- The request for a matrix leaves room for all of its entries when it is granted and has not wrapped. -/
theorem matrix_enough_iff {grant : Bool} :
    sizeofDouble * (matrixSize * matrixSize) ≤ length grant (matrixBytes matrixSize) ↔
      matrixSize = 0 ∨ grant = true ∧ matrixSize ≤ 23170 := by
  obtain ⟨given, tight, covers⟩ := serves grant (matrixBytes matrixSize)
  have square := square_le accepted
  have fits := @square_lt_iff matrixSize
  have zero : matrixSize = 0 ↔ matrixSize * matrixSize = 0 := by simp
  have bytes : matrixBytes matrixSize = sizeofDouble * (matrixSize * matrixSize) % 2 ^ 32 := by
    unfold matrixBytes squaredSize unsigned
    rw [Nat.mul_mod_mod]
  rw [bytes] at given tight covers ⊢
  generalize matrixSize * matrixSize = entries at *
  unfold sizeofDouble pageSize at *
  constructor
  · intro enough
    by_cases none : matrixSize = 0
    · exact .inl none
    · exact .inr ⟨given (by omega), by omega⟩
  · rintro (none | ⟨granted, small⟩)
    · omega
    · have enough := covers granted
      have kept : 8 * entries % 2 ^ 32 = 8 * entries := Nat.mod_eq_of_lt (fits.mpr small)
      omega

/-- The three requests of the multiplication. -/
theorem matrices_enough_iff :
    (∀ area < 3, sizeofDouble * (matrixSize * matrixSize) ≤ length (granted area) (matrixBytes matrixSize)) ↔
      matrixSize = 0 ∨ (∀ area < 3, granted area = true) ∧ matrixSize ≤ 23170 := by
  constructor
  · intro enough
    by_cases none : matrixSize = 0
    · exact .inl none
    · have each (area : Nat) (known : area < 3) : granted area = true ∧ matrixSize ≤ 23170 :=
        ((matrix_enough_iff serves accepted).mp (enough area known)).resolve_left none
      exact .inr ⟨fun area known => (each area known).1, (each 0 (by decide)).2⟩
  · intro fits area known
    exact (matrix_enough_iff serves accepted).mpr (fits.imp_right fun both => ⟨both.1 area known, both.2⟩)

end Requests

/-- The multiplication keeps to its arrays exactly when it has no rows, or the device grants the three requests and
the size of a matrix has not wrapped. The check of the argument lets larger sizes pass. -/
theorem denseMm_safe_iff (accepted : matrixSize ≤ sqrtOfUint32Max) :
    Safe granted [] (denseMm matrixSize) ↔
      matrixSize = 0 ∨ (∀ area < 3, granted area = true) ∧ matrixSize ≤ 23170 := by
  have calls (access : Access) : .access access ∈ denseMm matrixSize ↔
      .access access ∈ (multiplyRounds matrixSize).flatMap Round.accesses := by
    simp [denseMm, Nat.not_lt_of_le accepted]
  have mapped : requests ((multiplyRounds matrixSize).flatMap Round.accesses) = [] := by
    simp [requests, Round.accesses, List.filterMap_flatMap]
  let lengths := [mmapLength (granted 0) (matrixBytes matrixSize), mmapLength (granted 1) (matrixBytes matrixSize),
    mmapLength (granted 2) (matrixBytes matrixSize)]
  have whole : Safe granted [] (denseMm matrixSize) ↔
      ∀ area < 3, sizeofDouble * (matrixSize * matrixSize) ≤ lengths.getD area 0 := by
    rw [denseMm, if_neg (Nat.not_lt_of_le accepted)]
    exact safe_iff (uses_denseMm accepted) calls mapped
  rw [whole, ← matrices_enough_iff mmapLength_serves accepted]
  refine forall₂_congr fun area known => ?_
  rcases (show area = 0 ∨ area = 1 ∨ area = 2 by omega) with rfl | rfl | rfl <;> rfl

/-- A size that is accepted although its matrices need more than 32 bits. -/
theorem denseMm_safe_iff_wrapped : ¬Safe (fun _ => true) [] (denseMm 30000) := by
  rw [denseMm_safe_iff (by decide)]
  decide

/-- The rows that an accepted assignment writes fit into the pages of its request. -/
theorem sparseMm_accepted (accepted : matrixSize ≤ sqrtOfUint32Max) :
    Safe granted [] (sparseMm matrixSize n) ↔
      sizeofDouble * (n * matrixSize) ≤ mmapLength (granted 0) (matrixBytes matrixSize) := by
  let rest : List Operation := (List.range n).flatMap fun row =>
    (List.range matrixSize).map fun col => .access ⟨0, unsigned (row * matrixSize + col)⟩
  let lengths := [mmapLength (granted 0) (matrixBytes matrixSize)]
  have program : sparseMm matrixSize n = .mmapMalloc (matrixBytes matrixSize) :: rest :=
    if_neg (Nat.not_lt_of_le accepted)
  have calls (access : Access) : .access access ∈ sparseMm matrixSize n ↔ .access access ∈ rest := by
    simp [program]
  have mapped : requests rest = [] := by
    simp [rest, requests, List.filterMap_flatMap]
  rw [program, safe_mmapMalloc]
  by_cases fits : n * matrixSize ≤ 2 ^ 32
  · have whole : Safe granted lengths rest ↔
        ∀ area < 1, sizeofDouble * (n * matrixSize) ≤ lengths.getD area 0 :=
      safe_iff (uses_sparseMm accepted fits) calls mapped
    refine whole.trans ?_
    constructor
    · exact fun enough => enough 0 Nat.one_pos
    · intro enough area known
      rw [Nat.lt_one_iff.mp known]
      exact enough
  · -- the indices wrap, so that the last value of `unsigned` is one of them
    have short := mmapLength_lt (granted 0) matrixSize
    constructor
    · intro safe
      obtain ⟨row, inside, col, below, same⟩ := exists_place (show 2 ^ 32 - 1 < n * matrixSize by omega)
      have called : .access ⟨0, 2 ^ 32 - 1⟩ ∈ rest := by
        refine List.mem_flatMap.mpr ⟨row, List.mem_range.mpr inside,
          List.mem_map.mpr ⟨col, List.mem_range.mpr below, ?_⟩⟩
        rw [← same]
        rfl
      have last : sizeofDouble * 2 ^ 32 ≤ mmapLength (granted 0) (matrixBytes matrixSize) :=
        (@safe_accesses rest granted lengths mapped).mp safe _ called
      unfold pageSize at short
      unfold sizeofDouble at last
      omega
    · intro enough
      unfold pageSize at short
      unfold sizeofDouble at enough
      omega

/-- The assignment keeps to its matrix exactly when its size is not accepted, or the rows that it writes are inside the
pages of the request. It does not compare their number with the size of the matrix. -/
theorem sparseMm_safe_iff (matrixSize n : Nat) (granted : Nat → Bool) :
    Safe granted [] (sparseMm matrixSize n) ↔
      sqrtOfUint32Max < matrixSize ∨
        sizeofDouble * (n * matrixSize) ≤ mmapLength (granted 0) (matrixBytes matrixSize) := by
  rcases Nat.lt_or_ge sqrtOfUint32Max matrixSize with refused | accepted
  · have nothing : sparseMm matrixSize n = [] := if_pos refused
    rw [nothing]
    exact iff_of_true rfl (.inl refused)
  · rw [sparseMm_accepted accepted]
    exact (or_iff_right (Nat.not_lt_of_le accepted)).symm

/-- The request of one row is a page, which has room for 64 rows of eight entries and no more. -/
theorem sparseMm_safe_iff_rows :
    Safe (fun _ => true) [] (sparseMm 8 64) ∧ ¬Safe (fun _ => true) [] (sparseMm 8 65) := by
  rw [sparseMm_safe_iff, sparseMm_safe_iff]
  decide

/-- The copy keeps to its two arrays when the device grants them. -/
theorem floydWarshall_safe (accepted : n ≤ dataSize) : Safe (fun _ => true) [] (floydWarshall n) := by
  have length : mmapLength true (unsigned (sizeofDouble * dataSize * dataSize)) =
      sizeofDouble * (dataSize * dataSize) := by decide
  have inside {lengths : List Nat} {area rows row col : Nat} (fewer : rows ≤ dataSize) (known : row < rows)
      (below : col < dataSize) (whole : lengths.getD area 0 = sizeofDouble * (dataSize * dataSize)) :
      Access.Inside lengths ⟨area, unsigned (row * dataSize + col)⟩ := by
    have short := place_lt known below
    have all : rows * dataSize ≤ dataSize * dataSize := Nat.mul_le_mul_right dataSize fewer
    have kept : unsigned (row * dataSize + col) ≤ row * dataSize + col := Nat.mod_le _ _
    rw [Access.Inside, whole]
    exact Nat.mul_le_mul_left _ (Nat.lt_of_le_of_lt kept (Nat.lt_of_lt_of_le short all))
  rw [floydWarshall, if_neg (Nat.not_lt_of_le accepted)]
  rw [List.cons_append, safe_mmapMalloc, safe_append (by simp [requests, List.filterMap_flatMap]), safe_mmapMalloc,
    safe_accesses (by simp [requests, List.filterMap_flatMap])]
  simp only [List.nil_append, length]
  constructor
  · intro access called
    obtain ⟨i, known, called⟩ := List.mem_flatMap.mp called
    obtain ⟨j, below, same⟩ := List.mem_map.mp called
    cases same
    exact inside (Nat.le_refl _) (List.mem_range.mp known) (List.mem_range.mp below) rfl
  · intro access called
    obtain ⟨k, known, called⟩ := List.mem_flatMap.mp called
    obtain ⟨i, below, called⟩ := List.mem_flatMap.mp called
    simp only [List.mem_cons, Operation.access.injEq, List.not_mem_nil, or_false] at called
    rcases called with rfl | rfl <;> exact inside accepted (List.mem_range.mp known) (List.mem_range.mp below) rfl

theorem requests_floydWarshall (accepted : n ≤ dataSize) :
    requests (floydWarshall n) = List.replicate 2 (unsigned (sizeofDouble * dataSize * dataSize)) := by
  have nothing (rounds : List Nat) : rounds.flatMap (fun _ => ([] : List Nat)) = [] := by simp
  rw [floydWarshall, if_neg (Nat.not_lt_of_le accepted)]
  simp [requests, List.filterMap_flatMap, nothing]

/-- The pages that the matrix programs use when they keep to their arrays. -/
theorem workload_pages :
    (∀ matrixSize ≤ 23170,
      (touched (denseMm matrixSize)).card = 3 * pageNum (sizeofDouble * (matrixSize * matrixSize))) ∧
    (∀ matrixSize ≤ sqrtOfUint32Max, ∀ n granted, Safe granted [] (sparseMm matrixSize n) →
      (touched (sparseMm matrixSize n)).card = pageNum (sizeofDouble * (n * matrixSize))) ∧
    ∀ n ≤ dataSize, (touched (floydWarshall n)).card = dataSize + n := by
  refine ⟨fun matrixSize small => ?_, fun matrixSize accepted n granted safe => ?_, fun n accepted => ?_⟩
  · have accepted : matrixSize ≤ sqrtOfUint32Max := small.trans (by decide)
    rw [card_touched (uses_denseMm accepted), Finset.sum_const_nat fun _ _ => rfl, Finset.card_range]
  · have fits : n * matrixSize ≤ 2 ^ 32 := by
      have enough := (sparseMm_accepted accepted).mp safe
      have short := mmapLength_lt (granted 0) matrixSize
      unfold sizeofDouble at enough
      unfold pageSize at short
      omega
    rw [card_touched (uses_sparseMm accepted fits), Finset.sum_range_one]
  · -- a row of `dataSize` entries fills one page
    have row (rows : Nat) : pageNum (sizeofDouble * (rows * dataSize)) = rows := by
      unfold pageNum sizeofDouble dataSize pageSize
      split <;> omega
    rw [card_touched (uses_floydWarshall accepted), Finset.sum_range_succ, Finset.sum_range_one, if_pos rfl,
      if_neg (by decide), row, row]

/-- The largest matrices that keep to their arrays, 64 rows of eight entries, and the whole copy. -/
theorem workload_pages_largest :
    (touched (denseMm 23170)).card = 3145602 ∧ (touched (sparseMm 8 64)).card = 1 ∧
      (touched (floydWarshall dataSize)).card = 1024 :=
  ⟨workload_pages.1 23170 (Nat.le_refl _),
    workload_pages.2.1 8 (by decide) 64 (fun _ => true) ((sparseMm_accepted (by decide)).mpr (by decide)),
    workload_pages.2.2 dataSize (Nat.le_refl _)⟩

end KernelStudio.Workload
