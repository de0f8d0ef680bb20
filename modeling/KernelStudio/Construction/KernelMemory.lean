/-
This file models the thread of the kernel memory module: its layout arithmetic and the loops that fill and check a
block of pages. Unsigned integers, `size_t` and addresses have 32 bits.
-/

import KernelStudio.Construction.EndToEnd.Table
import Mathlib.Algebra.GroupWithZero.Nat
import Mathlib.Logic.Function.Basic

namespace KernelStudio.KernelMemory

open EndToEnd (u32)

/-- The page size of the target. -/
def pageSize : Nat := 4096

/-- The constant `ARR_SIZE`. -/
def arrSize : Nat := 8

/-- The size of one unsigned integer. -/
def wordSize : Nat := 4

/-- The expression `sizeof(datatype)`. -/
def sizeofDatatype : Nat := arrSize * wordSize

/-- The loop of `my_get_order`. -/
def shiftLoop (nrPages shifts : Nat) : Nat :=
  if 0 < nrPages then shiftLoop (nrPages >>> 1) (shifts + 1) else shifts
termination_by nrPages
decreasing_by simp only [Nat.shiftRight_one]; omega

/-- The function `my_get_order`. -/
def myGetOrder (nrPages : Nat) : Nat :=
  if nrPages = 0 then 0
  else if nrPages &&& (nrPages - 1) = 0 then shiftLoop (nrPages - 1) 0
  else shiftLoop nrPages 0

/-- The variables that `thread_fn` computes from `nr_structs`. -/
structure Layout where
  nrPages : Nat
  order : Nat
  nrStructsPerPage : Nat
  deriving DecidableEq

/-- The variable `tail` of `thread_fn`. -/
def tail (nrStructs : Nat) : Nat := if u32 (nrStructs * sizeofDatatype) / pageSize = 0 then 0 else 1

/-- The layout arithmetic of `thread_fn`, which is `none` when its last statement divides by zero. -/
def layout (nrStructs : Nat) : Option Layout :=
  let nrPages := u32 (nrStructs * sizeofDatatype) / pageSize + tail nrStructs
  if nrPages = 0 then none else some ⟨nrPages, myGetOrder nrPages, nrStructs / nrPages⟩

/-- The linear map of the kernel, which `__va` applies to physical addresses. -/
structure LinearMap where
  physOffset : Nat
  pageOffset : Nat

/-- The macro `__va`. -/
def LinearMap.va (map : LinearMap) (physical : Nat) : Nat := u32 (physical - map.physOffset + map.pageOffset)

/-- The macro `PFN_PHYS`, assigned to an `unsigned long`. -/
def pfnPhys (pfn : Nat) : Nat := u32 (pfn * pageSize)

/-- A block of `2 ^ order` page frames from `pfn` on. The page allocator takes it from the linear map. -/
structure PageBlock (map : LinearMap) (order : Nat) where
  pfn : Nat
  mapped : map.physOffset ≤ pfn * pageSize
  physicalFits : (pfn + 2 ^ order) * pageSize ≤ 2 ^ 32
  virtualFits : (pfn + 2 ^ order) * pageSize - map.physOffset + map.pageOffset ≤ 2 ^ 32

/-- The three loop variables at a word: its page, its structure in the page and its element of the array. -/
structure Word where
  i : Nat
  j : Nat
  k : Nat
  deriving DecidableEq

/-- The three nested loops of `thread_fn`. -/
def forEachWord {σ : Type} (layout : Layout) (body : Word → σ → σ) (state : σ) : σ :=
  (List.range layout.nrPages).foldl (fun state i =>
    (List.range layout.nrStructsPerPage).foldl (fun state j =>
      (List.range arrSize).foldl (fun state k => body ⟨i, j, k⟩ state) state) state) state

/-- The address of `this_struct->array[k]`. -/
def address {map : LinearMap} {order : Nat} (block : PageBlock map order) (word : Word) : Nat :=
  let curPage := pfnPhys (block.pfn + word.i)
  let curStruct := u32 (curPage + word.j * 32)
  u32 (map.va curStruct + word.k * wordSize)

/-- The number that the loops write into a word and compare it with. -/
def value (layout : Layout) (word : Word) : Nat :=
  u32 (word.i * layout.nrStructsPerPage * 8 + word.j * 8 + word.k)

/-- The text of the error for a word. -/
def errorText (word : Word) : String :=
  "Error: the address of the " ++ toString word.j ++ "th struct's " ++ toString word.k ++ "th element in page " ++
    toString word.i ++ " doesn't match.\n"

/-- The words of the memory by their virtual addresses. -/
abbrev Memory := Nat → Nat

/-- The loops that initialise the structures. -/
def fill {map : LinearMap} {order : Nat} (layout : Layout) (block : PageBlock map order) (memory : Memory) : Memory :=
  forEachWord layout (fun word memory => Function.update memory (address block word) (value layout word)) memory

/-- The loops that verify the structures, with the errors that they print. -/
def check {map : LinearMap} {order : Nat} (layout : Layout) (block : PageBlock map order) (memory : Memory) :
    List String :=
  forEachWord layout (fun word errors =>
    if memory (address block word) ≠ value layout word then errors ++ [errorText word] else errors) []

/-- The words that the loops visit. -/
def visited (layout : Layout) : List Word := forEachWord layout (fun word words => words ++ [word]) []

/-- The ends of `thread_fn`. -/
inductive Outcome where
  | enomem
  | checked (errors : List String)
  deriving DecidableEq

/-- The function `thread_fn`, for the block that `alloc_pages` returns and for what happens to the memory while the
thread waits until it should stop. -/
def threadFn (map : LinearMap) (nrStructs : Nat) (allocPages : (order : Nat) → Option (PageBlock map order))
    (memory : Memory) (meanwhile : Memory → Memory) : Option Outcome :=
  (layout nrStructs).map fun layout =>
    match allocPages layout.order with
    | none => .enomem
    | some block => .checked (check layout block (meanwhile (fill layout block memory)))

end KernelStudio.KernelMemory
