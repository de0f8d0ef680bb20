/-
This file proves where the thread of the kernel memory module puts its structures, and what its check loops report.
The results hold for every module parameter whose byte size fits 32 bits.
-/

import KernelStudio.Construction.KernelMemory
import KernelStudio.Library.Sweep
import Mathlib.Data.Nat.Size
import Mathlib.Tactic.Ring

namespace KernelStudio.KernelMemory

open EndToEnd (u32)

section Order

theorem size_halved {n : Nat} (positive : 0 < n) : n.size = (n / 2).size + 1 := by
  have halves (width : Nat) : n < 2 ^ (width + 1) ↔ n / 2 < 2 ^ width := by
    rw [Nat.div_lt_iff_lt_mul (by decide), Nat.pow_succ]
  refine Nat.le_antisymm (Nat.size_le.2 ((halves _).2 (Nat.lt_size_self _))) ?_
  obtain ⟨width, wide⟩ := Nat.exists_eq_add_one_of_ne_zero (Nat.size_eq_zero.not.2 positive.ne')
  rw [wide]
  exact Nat.succ_le_succ (Nat.size_le.2 ((halves width).1 (wide ▸ Nat.lt_size_self n)))

theorem shiftLoop_eq (nrPages shifts : Nat) : shiftLoop nrPages shifts = shifts + nrPages.size := by
  induction nrPages, shifts using shiftLoop.induct with
  | case1 nrPages shifts positive inductionHypothesis =>
      rw [shiftLoop, if_pos positive, inductionHypothesis, Nat.shiftRight_one, size_halved positive]
      omega
  | case2 nrPages shifts zero =>
      rw [shiftLoop, if_neg zero, Nat.eq_zero_of_not_pos zero, Nat.size_zero, Nat.add_zero]

/-- The function `my_get_order` computes the least order whose block holds the pages. -/
theorem myGetOrder_least (nrPages order : Nat) : myGetOrder nrPages ≤ order ↔ nrPages ≤ 2 ^ order := by
  unfold myGetOrder
  by_cases none : nrPages = 0
  · simp [none]
  · rw [if_neg none]
    by_cases power : nrPages &&& (nrPages - 1) = 0
    · rw [if_pos power, shiftLoop_eq, Nat.zero_add, Nat.size_le]
      omega
    · rw [if_neg power, shiftLoop_eq, Nat.zero_add, Nat.size_le]
      have different : nrPages ≠ 2 ^ order := fun equal =>
        power ((Nat.and_sub_one_eq_zero_iff_isPowerOfTwo none).2 ⟨order, equal⟩)
      omega

end Order

section Layout

theorem tail_eq {nrStructs : Nat} (fits : nrStructs < 2 ^ 27) :
    tail nrStructs = if nrStructs < 128 then 0 else 1 := by
  have size : u32 (nrStructs * sizeofDatatype) = nrStructs * 32 := EndToEnd.u32_of_lt (by
    change nrStructs * 32 < 2 ^ 32
    omega)
  unfold tail
  rw [size]
  by_cases small : nrStructs < 128
  · rw [if_pos small]
    exact if_pos (Nat.div_eq_of_lt (by change nrStructs * 32 < 4096; omega))
  · rw [if_neg small]
    exact if_neg (by change ¬ nrStructs * 32 / 4096 = 0; omega)

/-- Below 128 structures the number of pages is zero, and the thread divides by it. -/
theorem layout_small {nrStructs : Nat} (small : nrStructs < 128) : layout nrStructs = none := by
  have size : u32 (nrStructs * sizeofDatatype) = nrStructs * 32 := EndToEnd.u32_of_lt (by
    change nrStructs * 32 < 2 ^ 32
    omega)
  simp only [layout, size, tail_eq (show nrStructs < 2 ^ 27 by omega), if_pos small, pageSize]
  exact if_pos (by omega)

theorem layout_large {nrStructs : Nat} (lower : 128 ≤ nrStructs) (upper : nrStructs < 2 ^ 27) :
    layout nrStructs = some ⟨nrStructs / 128 + 1, myGetOrder (nrStructs / 128 + 1),
      nrStructs / (nrStructs / 128 + 1)⟩ := by
  have size : u32 (nrStructs * sizeofDatatype) = nrStructs * 32 := EndToEnd.u32_of_lt (by
    change nrStructs * 32 < 2 ^ 32
    omega)
  have pages : nrStructs * 32 / 4096 = nrStructs / 128 := by omega
  simp only [layout, size, tail_eq upper, if_neg (show ¬ nrStructs < 128 by omega), pageSize, pages]
  exact if_neg (by omega)

end Layout

section Loops

/-- A word from the three loop variables. -/
def Word.of (counters : Nat × Nat × Nat) : Word := ⟨counters.1, counters.2.1, counters.2.2⟩

theorem Word.of_injective : Function.Injective Word.of := by
  rintro ⟨i, j, k⟩ ⟨i', j', k'⟩ same
  simpa [Word.of] using same

/-- The words in the order of the loops. -/
def words (layout : Layout) : List Word :=
  (Sweep.pairs layout.nrPages (Sweep.pairs layout.nrStructsPerPage (List.range arrSize))).map Word.of

theorem forEachWord_eq {σ : Type} (layout : Layout) (body : Word → σ → σ) (state : σ) :
    forEachWord layout body state = (words layout).foldl (fun state word => body word state) state := by
  unfold words
  rw [List.foldl_map, Sweep.foldl_pairs]
  simp only [Sweep.foldl_pairs]
  rfl

theorem visited_eq (layout : Layout) : visited layout = words layout := by
  have appended (list earlier : List Word) :
      list.foldl (fun words word => words ++ [word]) earlier = earlier ++ list := by
    induction list generalizing earlier with
    | nil => simp
    | cons word rest inductionHypothesis => simp [inductionHypothesis]
  rw [visited, forEachWord_eq, appended, List.nil_append]

@[simp] theorem mem_visited {layout : Layout} {word : Word} :
    word ∈ visited layout ↔ word.i < layout.nrPages ∧ word.j < layout.nrStructsPerPage ∧ word.k < arrSize := by
  obtain ⟨i, j, k⟩ := word
  simp only [visited_eq, words, List.mem_map, Sweep.mem_pairs, List.mem_range]
  constructor
  · rintro ⟨counters, inside, same⟩
    obtain rfl : counters = (i, j, k) := Word.of_injective same
    exact inside
  · exact fun inside => ⟨(i, j, k), inside, rfl⟩

theorem visited_nodup (layout : Layout) : (visited layout).Nodup := by
  rw [visited_eq]
  exact (Sweep.nodup_pairs _ (Sweep.nodup_pairs _ List.nodup_range)).map Word.of_injective

theorem visited_length (layout : Layout) :
    (visited layout).length = layout.nrPages * layout.nrStructsPerPage * arrSize := by
  rw [visited_eq]
  simp [words, Nat.mul_assoc]

variable {map : LinearMap} {order : Nat} (layout : Layout) (block : PageBlock map order)

theorem fill_eq (memory : Memory) :
    fill layout block memory = Sweep.fill (address block) (value layout) (visited layout) memory := by
  rw [fill, forEachWord_eq, visited_eq]
  rfl

theorem check_eq (memory : Memory) :
    check layout block memory =
      (Sweep.mismatches (address block) (value layout) (visited layout) memory).map errorText := by
  have collected (list : List Word) (earlier : List String) :
      list.foldl (fun errors word =>
        if memory (address block word) ≠ value layout word then errors ++ [errorText word] else errors) earlier =
          earlier ++ (Sweep.mismatches (address block) (value layout) list memory).map errorText := by
    induction list generalizing earlier with
    | nil => simp [Sweep.mismatches]
    | cons word rest inductionHypothesis =>
        simp only [List.foldl_cons, inductionHypothesis, Sweep.mismatches, List.filter_cons]
        split <;> simp_all
  rw [check, forEachWord_eq, visited_eq, collected, List.nil_append]

end Loops

section Capacity

variable {nrStructs : Nat} {plan : Layout}

/-- The structures of a page fit the page. -/
theorem layout_capacity (lower : 128 ≤ nrStructs) (upper : nrStructs < 2 ^ 27)
    (known : layout nrStructs = some plan) :
    plan.nrStructsPerPage < 128 := by
  obtain rfl := Option.some.inj ((layout_large lower upper).symm.trans known)
  refine (Nat.div_lt_iff_lt_mul (Nat.succ_pos _)).2 ?_
  omega

/-- The words of all pages are too few for their numbers to wrap. -/
theorem layout_total (lower : 128 ≤ nrStructs) (upper : nrStructs < 2 ^ 27) (known : layout nrStructs = some plan) :
    plan.nrPages * plan.nrStructsPerPage * 8 < 2 ^ 30 := by
  obtain rfl := Option.some.inj ((layout_large lower upper).symm.trans known)
  have total := Nat.mul_div_le nrStructs (nrStructs / 128 + 1)
  change (nrStructs / 128 + 1) * (nrStructs / (nrStructs / 128 + 1)) * 8 < 2 ^ 30
  omega

theorem layout_order (lower : 128 ≤ nrStructs) (upper : nrStructs < 2 ^ 27) (known : layout nrStructs = some plan) :
    plan.order = myGetOrder plan.nrPages := by
  obtain rfl := Option.some.inj ((layout_large lower upper).symm.trans known)
  rfl

end Capacity

/-- The virtual address of the first byte of a block. -/
def PageBlock.start {map : LinearMap} {order : Nat} (block : PageBlock map order) : Nat :=
  block.pfn * pageSize - map.physOffset + map.pageOffset

/-- The loops address a word by its page, its structure and its element, without a wrap. -/
theorem address_eq {map : LinearMap} {order : Nat} (block : PageBlock map order) {word : Word}
    (page : word.i < 2 ^ order) (struct : word.j < 128) (element : word.k < arrSize) :
    address block word = block.start + word.i * pageSize + word.j * 32 + word.k * wordSize := by
  have mapped := block.mapped
  have physicalFits := block.physicalFits
  have virtualFits := block.virtualFits
  simp only [pageSize, arrSize] at mapped physicalFits virtualFits element
  have frame : pfnPhys (block.pfn + word.i) = (block.pfn + word.i) * 4096 := EndToEnd.u32_of_lt (by
    change (block.pfn + word.i) * 4096 < 2 ^ 32
    omega)
  have curStruct : u32 ((block.pfn + word.i) * 4096 + word.j * 32) = (block.pfn + word.i) * 4096 + word.j * 32 :=
    EndToEnd.u32_of_lt (by omega)
  have virtual : map.va ((block.pfn + word.i) * 4096 + word.j * 32) =
      (block.pfn + word.i) * 4096 + word.j * 32 - map.physOffset + map.pageOffset := EndToEnd.u32_of_lt (by omega)
  unfold address
  simp only [frame, curStruct, virtual, PageBlock.start, pageSize, wordSize]
  rw [EndToEnd.u32_of_lt (by omega)]
  omega

/-- The numbers of the words count them page by page. -/
theorem value_eq {plan : Layout} (total : plan.nrPages * plan.nrStructsPerPage * 8 < 2 ^ 30) {word : Word}
    (inside : word ∈ visited plan) :
    value plan word = (word.i * plan.nrStructsPerPage + word.j) * 8 + word.k := by
  obtain ⟨page, struct, element⟩ := mem_visited.1 inside
  simp only [arrSize] at element
  have bound : word.i * plan.nrStructsPerPage + plan.nrStructsPerPage ≤ plan.nrPages * plan.nrStructsPerPage := by
    rw [← Nat.succ_mul]
    exact Nat.mul_le_mul_right _ page
  rw [value, EndToEnd.u32_of_lt (by omega)]
  omega

/-- The loops give different words of a layout different numbers. -/
theorem value_injective {plan : Layout} (total : plan.nrPages * plan.nrStructsPerPage * 8 < 2 ^ 30)
    {word other : Word}
    (inside : word ∈ visited plan) (also : other ∈ visited plan) (same : value plan word = value plan other) :
    word = other := by
  rw [value_eq total inside, value_eq total also] at same
  obtain ⟨_, struct, element⟩ := mem_visited.1 inside
  obtain ⟨_, otherStruct, otherElement⟩ := mem_visited.1 also
  simp only [arrSize] at element otherElement
  have structs : word.i * plan.nrStructsPerPage + word.j = other.i * plan.nrStructsPerPage + other.j := by omega
  have positive : 0 < plan.nrStructsPerPage := by omega
  have quotient (i : Nat) {j : Nat} (bound : j < plan.nrStructsPerPage) :
      (i * plan.nrStructsPerPage + j) / plan.nrStructsPerPage = i := by
    rw [Nat.mul_comm, Nat.mul_add_div positive, Nat.div_eq_of_lt bound, Nat.add_zero]
  have pages : word.i = other.i := by
    rw [← quotient word.i struct, structs, quotient other.i otherStruct]
  obtain ⟨i, j, k⟩ := word
  obtain ⟨i', j', k'⟩ := other
  obtain rfl : i = i' := pages
  simp only [Word.mk.injEq, true_and]
  dsimp only at structs same
  omega

/-- The layout arithmetic does not divide by zero, and the loops have a place for each structure. -/
def Placed (nrStructs : Nat) : Prop :=
  ∃ plan, layout nrStructs = some plan ∧ nrStructs ≤ plan.nrPages * plan.nrStructsPerPage ∧
    nrStructs * arrSize ≤ (visited plan).length

/-- Every structure gets a place exactly when one more than the full pages divides the number of structures, of which
there are enough to fill one page. -/
theorem placed_iff (nrStructs : Nat) (upper : nrStructs < 2 ^ 27) :
    Placed nrStructs ↔ 128 ≤ nrStructs ∧ nrStructs / 128 + 1 ∣ nrStructs := by
  by_cases lower : 128 ≤ nrStructs
  · have known := layout_large lower upper
    have exact : nrStructs ≤ (nrStructs / 128 + 1) * (nrStructs / (nrStructs / 128 + 1)) ↔
        nrStructs / 128 + 1 ∣ nrStructs :=
      (Nat.mul_div_le nrStructs _).ge_iff_eq.trans Nat.mul_div_eq_iff_dvd
    constructor
    · rintro ⟨plan, found, enough, _⟩
      obtain rfl := Option.some.inj (known.symm.trans found)
      exact ⟨lower, exact.1 enough⟩
    · rintro ⟨_, divides⟩
      refine ⟨_, known, exact.2 divides, ?_⟩
      rw [visited_length]
      exact Nat.mul_le_mul_right arrSize (exact.2 divides)
  · have unknown := layout_small (Nat.lt_of_not_le lower)
    constructor
    · rintro ⟨plan, known, _⟩
      rw [unknown] at known
      cases known
    · exact fun bounds => absurd bounds.1 lower

/-- The default of the module parameter fills its pages exactly. -/
theorem placed_default : Placed 2000 := (placed_iff 2000 (by decide)).2 (by decide)

/-- A hundred structures do not fill a page, and the thread divides by zero. -/
theorem hundred_unplaced : ¬ ∀ nrStructs, 1 ≤ nrStructs → nrStructs < 2 ^ 27 → Placed nrStructs := by
  intro placed
  obtain ⟨plan, known, _⟩ := placed 100 (by decide) (by decide)
  have divides : layout 100 = none := by decide +kernel
  rw [divides] at known
  cases known

/-- The words of a plan lie in their pages of the block, do not overlap and hold different numbers. -/
structure Sound {map : LinearMap} (plan : Layout) (block : PageBlock map plan.order) : Prop where
  inBlock : ∀ word ∈ visited plan, block.start ≤ address block word ∧
    address block word + wordSize ≤ block.start + 2 ^ plan.order * pageSize
  inPage : ∀ word ∈ visited plan, block.start + word.i * pageSize ≤ address block word ∧
    address block word + wordSize ≤ block.start + (word.i + 1) * pageSize
  apart : ∀ word ∈ visited plan, ∀ other ∈ visited plan, word ≠ other →
    address block word + wordSize ≤ address block other ∨ address block other + wordSize ≤ address block word
  distinct : ∀ word ∈ visited plan, ∀ other ∈ visited plan, word ≠ other → value plan word ≠ value plan other

theorem sound {map : LinearMap} {plan : Layout} (block : PageBlock map plan.order)
    (capacity : plan.nrStructsPerPage < 128) (total : plan.nrPages * plan.nrStructsPerPage * 8 < 2 ^ 30)
    (pages : plan.nrPages ≤ 2 ^ plan.order) : Sound plan block := by
  have located : ∀ word ∈ visited plan,
      (word.i < 2 ^ plan.order ∧ word.j < 128 ∧ word.k < 8) ∧
        address block word = block.start + word.i * 4096 + word.j * 32 + word.k * 4 := by
    intro word inside
    obtain ⟨page, struct, element⟩ := mem_visited.1 inside
    have bounds := And.intro (page.trans_le pages) (And.intro (struct.trans capacity) element)
    exact ⟨bounds, address_eq block bounds.1 bounds.2.1 bounds.2.2⟩
  constructor
  case inBlock =>
    intro word inside
    obtain ⟨bounds, placed⟩ := located word inside
    simp only [placed, wordSize, pageSize]
    omega
  case inPage =>
    intro word inside
    obtain ⟨bounds, placed⟩ := located word inside
    simp only [placed, wordSize, pageSize]
    omega
  case apart =>
    intro word inside other also different
    obtain ⟨bounds, placed⟩ := located word inside
    obtain ⟨otherBounds, otherPlaced⟩ := located other also
    obtain ⟨i, j, k⟩ := word
    obtain ⟨i', j', k'⟩ := other
    simp only [placed, otherPlaced, wordSize]
    simp only [ne_eq, Word.mk.injEq] at different bounds otherBounds
    omega
  case distinct =>
    exact fun word inside other also different same => different (value_injective total inside also same)

/-- The thread reports no error when its words are unchanged, and one error when one of them has changed. -/
structure Checkable (map : LinearMap) (nrStructs : Nat) (plan : Layout) (block : PageBlock map plan.order)
    (allocPages : (order : Nat) → Option (PageBlock map order)) : Prop where
  unchanged : ∀ memory meanwhile,
    (∀ word ∈ visited plan, meanwhile (fill plan block memory) (address block word) =
      fill plan block memory (address block word)) →
    threadFn map nrStructs allocPages memory meanwhile = some (.checked [])
  changed : ∀ memory meanwhile, ∀ word ∈ visited plan,
    meanwhile (fill plan block memory) (address block word) ≠ fill plan block memory (address block word) →
    (∀ other ∈ visited plan, other ≠ word → meanwhile (fill plan block memory) (address block other) =
      fill plan block memory (address block other)) →
    threadFn map nrStructs allocPages memory meanwhile = some (.checked [errorText word])

theorem checkable {map : LinearMap} {nrStructs : Nat} {plan : Layout} (known : layout nrStructs = some plan)
    {block : PageBlock map plan.order} (placed : Sound plan block)
    {allocPages : (order : Nat) → Option (PageBlock map order)} (allocated : allocPages plan.order = some block) :
    Checkable map nrStructs plan block allocPages := by
  have separate : ∀ word ∈ visited plan, ∀ other ∈ visited plan, address block word = address block other →
      word = other := by
    intro word inside other also same
    by_contra different
    have apart := placed.apart word inside other also different
    simp only [same, wordSize] at apart
    omega
  have filled (memory : Memory) : ∀ word ∈ visited plan,
      fill plan block memory (address block word) = value plan word := by
    intro word inside
    rw [fill_eq]
    exact Sweep.fill_inside _ _ separate inside memory
  have executed (memory : Memory) (meanwhile : Memory → Memory) :
      threadFn map nrStructs allocPages memory meanwhile =
        some (.checked (check plan block (meanwhile (fill plan block memory)))) := by
    simp only [threadFn, known, Option.map_some, allocated]
  constructor
  case unchanged =>
    intro memory meanwhile same
    rw [executed, check_eq, Sweep.mismatches_nil, List.map_nil]
    exact fun word inside => (same word inside).trans (filled memory word inside)
  case changed =>
    intro memory meanwhile word inside different same
    rw [executed, check_eq, Sweep.mismatches_one _ _ (visited_nodup plan) inside, List.map_singleton]
    · exact filled memory word inside ▸ different
    · exact fun other also apart => (same other also apart).trans (filled memory other also)

/-- From 128 structures on, the thread takes a block of the least order, places its structures soundly in it, and its
check loops find exactly the change of one word. -/
theorem placement_sound (map : LinearMap) (nrStructs : Nat) (lower : 128 ≤ nrStructs) (upper : nrStructs < 2 ^ 27) :
    ∃ plan, layout nrStructs = some plan ∧
      plan.order = myGetOrder plan.nrPages ∧
      plan.nrPages ≤ 2 ^ plan.order ∧
      (∀ order, plan.nrPages ≤ 2 ^ order → plan.order ≤ order) ∧
      ∀ block : PageBlock map plan.order, Sound plan block ∧
        ∀ allocPages, allocPages plan.order = some block → Checkable map nrStructs plan block allocPages := by
  have known := layout_large lower upper
  refine ⟨_, known, layout_order lower upper known, ?_⟩
  have least := myGetOrder_least (nrStructs / 128 + 1)
  refine ⟨(least _).1 (Nat.le_refl _), fun order => (least order).2, ?_⟩
  intro block
  have placed := sound block (layout_capacity lower upper known) (layout_total lower upper known)
    ((least _).1 (Nat.le_refl _))
  exact ⟨placed, fun allocPages allocated => checkable known placed allocated⟩

/-- With the default of the module parameter the thread takes at most sixteen pages, here from 16 MiB on, and finds its
structures as it has left them. -/
theorem placement_default :
    ∃ (plan : Layout) (block : PageBlock ⟨0, 0x80000000⟩ plan.order)
      (allocPages : (order : Nat) → Option (PageBlock ⟨0, 0x80000000⟩ order)),
      layout 2000 = some plan ∧ Sound plan block ∧
        threadFn ⟨0, 0x80000000⟩ 2000 allocPages (fun _ => 0) id = some (.checked []) := by
  obtain ⟨plan, known, _, _, least, placed⟩ := placement_sound ⟨0, 0x80000000⟩ 2000 (by decide) (by decide)
  have pages : plan.nrPages = 16 := by
    obtain rfl := Option.some.inj ((layout_large (by decide) (by decide)).symm.trans known)
    rfl
  have small : 2 ^ plan.order ≤ 2 ^ 4 := Nat.pow_le_pow_right (by decide) (least 4 (by rw [pages]; decide))
  have fits : (4096 + 2 ^ plan.order) * 4096 ≤ 2 ^ 25 := by omega
  have virtualFits : (4096 + 2 ^ plan.order) * pageSize - 0 + 0x80000000 ≤ 2 ^ 32 := by
    rw [Nat.sub_zero]
    exact (Nat.add_le_add_right fits _).trans (by decide)
  let block : PageBlock ⟨0, 0x80000000⟩ plan.order := ⟨4096, Nat.zero_le _, fits.trans (by decide), virtualFits⟩
  let allocPages (order : Nat) : Option (PageBlock ⟨0, 0x80000000⟩ order) :=
    if same : order = plan.order then some (same ▸ block) else none
  have checkable := (placed block).2 allocPages (dif_pos rfl)
  exact ⟨plan, block, allocPages, known, (placed block).1, checkable.unchanged (fun _ => 0) id fun _ _ => rfl⟩

end KernelStudio.KernelMemory
