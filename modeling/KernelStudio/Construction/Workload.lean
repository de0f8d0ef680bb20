/-
This file models the matrix programs that run on the paging module: the entries that their loops use, the values that
they compute, and the calls of the module that the kernel makes for them.
-/

import KernelStudio.Construction.Paging
import Mathlib.Algebra.GroupWithZero.Nat
import Mathlib.Data.Finset.Union

namespace KernelStudio.Workload

open Paging

/-- The number of bytes of a `double`. -/
def sizeofDouble : Nat := 8

/-- The value that is left in a variable of type `unsigned`, or in one of type `size_t` of the target. -/
def unsigned (value : Nat) : Nat := value % 2 ^ 32

/-- The largest matrix size that the programs accept. -/
def sqrtOfUint32Max : Nat := 65536

/-- The number of rows and columns of `floyd_warshall`. -/
def dataSize : Nat := 512

/-- An access to an entry of an array. The arrays are numbered in the order of the calls of `mmap_malloc`. -/
structure Access where
  area : Nat
  index : Nat
  deriving DecidableEq

/-- What a program does with the paging device. -/
inductive Operation where
  | mmapMalloc (bytes : Nat)
  | access (access : Access)
  deriving DecidableEq

/-- The number of bytes that `mmap` makes accessible. The kernel maps whole pages and refuses an area without bytes.
The programs go on with the null pointer that a refused call leaves. -/
def mmapLength (granted : Bool) (bytes : Nat) : Nat :=
  if granted = true ∧ bytes ≠ 0 then pageNum bytes * pageSize else 0

/-- The bytes of the entry lie in the area of its array. -/
def Access.Inside (lengths : List Nat) (access : Access) : Prop :=
  sizeofDouble * (access.index + 1) ≤ lengths.getD access.area 0

instance (lengths : List Nat) (access : Access) : Decidable (access.Inside lengths) := inferInstanceAs (Decidable (_ ≤ _))

/-- This check follows the program with the lengths of the areas that were mapped before. -/
def checkAccesses (granted : Nat → Bool) : List Nat → List Operation → Bool
  | _, [] => true
  | lengths, .mmapMalloc bytes :: rest =>
      checkAccesses granted (lengths ++ [mmapLength (granted lengths.length) bytes]) rest
  | lengths, .access access :: rest => access.Inside lengths && checkAccesses granted lengths rest

/-- Each access of the program is one to an area that was mapped before. -/
def Safe (granted : Nat → Bool) (lengths : List Nat) (program : List Operation) : Prop :=
  checkAccesses granted lengths program = true

/-- One round of the innermost loop of `dense_mm`: the indices of the entries of `C`, `A` and `B`. -/
structure Round where
  written : Nat
  left : Nat
  right : Nat
  deriving DecidableEq

/-- The rounds of the loops over `row`, `col` and `index`. -/
def multiplyRounds (matrixSize : Nat) : List Round :=
  (List.range matrixSize).flatMap fun row =>
    (List.range matrixSize).flatMap fun col =>
      (List.range matrixSize).map fun index =>
        { written := unsigned (row * matrixSize + col)
          left := unsigned (row * matrixSize + index)
          right := unsigned (index * matrixSize + col) }

/-- The variable `squared_size`. -/
def squaredSize (matrixSize : Nat) : Nat := unsigned (matrixSize * matrixSize)

/-- The size that the programs request for a matrix. -/
def matrixBytes (matrixSize : Nat) : Nat := unsigned (sizeofDouble * squaredSize matrixSize)

/-- The arrays `A`, `B` and `C` of `dense_mm` are the areas `0`, `1` and `2`. -/
def Round.accesses (round : Round) : List Operation :=
  [.access ⟨0, round.left⟩, .access ⟨1, round.right⟩, .access ⟨2, round.written⟩]

/-- The main function of `dense_mm` on the paging device. A size that is not accepted ends it before the first call. -/
def denseMm (matrixSize : Nat) : List Operation :=
  if sqrtOfUint32Max < matrixSize then []
  else List.replicate 3 (.mmapMalloc (matrixBytes matrixSize)) ++ (multiplyRounds matrixSize).flatMap Round.accesses

/-- The main function of `sparse_mm`, which writes the first `n` rows of its matrix. -/
def sparseMm (matrixSize n : Nat) : List Operation :=
  if sqrtOfUint32Max < matrixSize then []
  else .mmapMalloc (matrixBytes matrixSize) ::
    (List.range n).flatMap fun row =>
      (List.range matrixSize).map fun col => .access ⟨0, unsigned (row * matrixSize + col)⟩

/-- The main function of `floyd_warshall`, which fills `A` and then copies its first `n` rows to `B`. -/
def floydWarshall (n : Nat) : List Operation :=
  let bytes := unsigned (sizeofDouble * dataSize * dataSize)
  if dataSize < n then []
  else .mmapMalloc bytes ::
    ((List.range dataSize).flatMap fun i =>
      (List.range dataSize).map fun j => .access ⟨0, unsigned (i * dataSize + j)⟩) ++
    .mmapMalloc bytes ::
    (List.range n).flatMap fun k =>
      (List.range dataSize).flatMap fun i =>
        [.access ⟨0, unsigned (k * dataSize + i)⟩, .access ⟨1, unsigned (k * dataSize + i)⟩]

section Values

variable {α : Type}

/-- An array of the program: the number of entries that belong to it, and their values. -/
structure Entries (α : Type) where
  length : Nat
  value : Nat → α

/-- The array that a request leaves: the bytes that the program was given, with what the memory held before. -/
def Entries.ofBytes (bytes : Nat) (memory : Nat → α) : Entries α := ⟨bytes / sizeofDouble, memory⟩

/-- An access outside of the array has no value. -/
def Entries.read (array : Entries α) (index : Nat) : Option α :=
  if index < array.length then some (array.value index) else none

def Entries.write (array : Entries α) (index : Nat) (value : α) : Option (Entries α) :=
  if index < array.length then some { array with value := Function.update array.value index value } else none

/-- The arrays of `dense_mm`. -/
structure Arrays (α : Type) where
  A : Entries α
  B : Entries α
  C : Entries α

/-- Each array has this many entries. -/
def Arrays.Room (arrays : Arrays α) (count : Nat) : Prop :=
  count ≤ arrays.A.length ∧ count ≤ arrays.B.length ∧ count ≤ arrays.C.length

instance (arrays : Arrays α) (count : Nat) : Decidable (arrays.Room count) := inferInstanceAs (Decidable (_ ∧ _))

/-- The number of bytes that `malloc` returns. A refused call leaves the null pointer. -/
def mallocLength (granted : Bool) (bytes : Nat) : Nat := if granted then bytes else 0

/-- The three requests of `dense_mm`, of which `length` gives the bytes, over the memory that was there before. -/
def Arrays.request (length : Bool → Nat → Nat) (granted : Nat → Bool) (matrixSize : Nat) (memory : Nat → Nat → α) :
    Arrays α where
  A := .ofBytes (length (granted 0) (matrixBytes matrixSize)) (memory 0)
  B := .ofBytes (length (granted 1) (matrixBytes matrixSize)) (memory 1)
  C := .ofBytes (length (granted 2) (matrixBytes matrixSize)) (memory 2)

variable [Add α] [Mul α]

/-- The statement of the innermost loop, for any arithmetic of the entries. -/
def multiplyAdd (arrays : Arrays α) (round : Round) : Option (Arrays α) := do
  let sum ← arrays.C.read round.written
  let left ← arrays.A.read round.left
  let right ← arrays.B.read round.right
  let C ← arrays.C.write round.written (sum + left * right)
  return { arrays with C }

/-- The arrays after the loops, or nothing when a round leaves an array. -/
def multiply (matrixSize : Nat) (arrays : Arrays α) : Option (Arrays α) :=
  (multiplyRounds matrixSize).foldlM multiplyAdd arrays

/-- One round of the loop that generates the matrices, for the values that `rand` returns. -/
def generateEntry [Zero α] (rand : Nat → α) (arrays : Arrays α) (index : Nat) : Option (Arrays α) := do
  let A ← arrays.A.write index (rand (2 * index))
  let B ← arrays.B.write index (rand (2 * index + 1))
  let C ← arrays.C.write index 0
  return { A, B, C }

/-- The loop of the first version over all entries. -/
def generate [Zero α] (matrixSize : Nat) (rand : Nat → α) (arrays : Arrays α) : Option (Arrays α) :=
  (List.range (squaredSize matrixSize)).foldlM (generateEntry rand) arrays

/-- The first version of `dense_mm` after the check of its argument: it generates the matrices in memory from
`malloc`. -/
def generatedMm [Zero α] (granted : Nat → Bool) (matrixSize : Nat) (rand : Nat → α) (memory : Nat → Nat → α) :
    Option (Arrays α) := do
  let arrays ← generate matrixSize rand (.request mallocLength granted matrixSize memory)
  multiply matrixSize arrays

/-- The version for the paging device, which multiplies what its pages hold. -/
def pagedMm (granted : Nat → Bool) (matrixSize : Nat) (memory : Nat → Nat → α) : Option (Arrays α) :=
  multiply matrixSize (.request mmapLength granted matrixSize memory)

end Values

/-- The areas of a process with the pages of them that have an entry in its page table. -/
structure Process where
  areas : List Vma := []
  present : Finset (Nat × Nat) := ∅

/-- The number of an array and the number of the page in it that an access needs. -/
def Access.page (access : Access) : Nat × Nat := (access.area, sizeofDouble * access.index / pageSize)

/-- What the kernel does for an operation, when each call of `mmap` is granted at the page with this number. -/
def Process.run (space : AddressSpace) (places : Nat → Nat) (process : Process) :
    Operation → Process × List PagingEvent
  | .mmapMalloc bytes =>
      let vmStart := places process.areas.length * pageSize
      let vma : Vma := ⟨vmStart, vmStart + pageNum bytes * pageSize, process.areas.length⟩
      ({ process with areas := process.areas ++ [vma] },
        [.mmap vma.vmStart vma.vmEnd true (some space.pageOffset) 0])
  | .access access =>
      -- the processor finds the page, or the kernel passes its fault to the module
      if access.page ∈ process.present then (process, [])
      else match process.areas[access.area]? with
        | some vma => ({ process with present := insert access.page process.present },
            [.fault vma (vma.vmStart + sizeofDouble * access.index) true 0 true])
        | none => (process, [])

/-- The calls of the module for a program. The end of the process closes its areas. -/
def Process.events (space : AddressSpace) (places : Nat → Nat) : Process → List Operation → List PagingEvent
  | process, [] => process.areas.reverse.map .vmaClose
  | process, operation :: rest =>
      (process.run space places operation).2 ++ events space places (process.run space places operation).1 rest

/-- The sizes that a program requests, in the order of its calls. -/
def requests (program : List Operation) : List Nat :=
  program.filterMap fun
    | .mmapMalloc bytes => some bytes
    | .access _ => none

/-- The kernel can grant the requests at these pages of the user part of the address space. -/
def Granted (space : AddressSpace) (places : Nat → Nat) (program : List Operation) : Prop :=
  ∀ area bytes, (requests program)[area]? = some bytes →
    0 < bytes ∧ (places area + pageNum bytes) * pageSize ≤ space.taskSize

/-- The pages that a program uses. -/
def touched (program : List Operation) : Finset (Nat × Nat) :=
  (program.filterMap fun
    | .mmapMalloc _ => none
    | .access access => some access.page).toFinset

end KernelStudio.Workload
