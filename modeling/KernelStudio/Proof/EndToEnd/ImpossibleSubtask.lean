/-
This file proves when a subtask whose time exceeds its period makes `E2E_init` reject the table.
The product of the fit test may wrap, and then the table may be accepted.
-/

import KernelStudio.Proof.EndToEnd.FirstFit

namespace KernelStudio.EndToEnd

namespace Header

variable (header : Header)

/-- A subtask cannot meet its period, and in the arithmetic of the loop its time exceeds the largest period and
its sums do not wrap. -/
def Caught (sort : KernelSort) : Prop :=
  ∃ before i after, header.placementOrder sort = before ++ i :: after ∧
    (header.parent i).period < (header.subtask i).exeTime ∧
    header.accumulate.hyperPeriod < header.scaledTime header.accumulate.hyperPeriod i ∧
    ∀ j < coreNum, (header.turn before).aggTime j + header.scaledTime header.accumulate.hyperPeriod i < 2 ^ 32

/-- The table has this largest period and a subtask with this period and execution time. -/
def Contains (period exeTime longest : Nat) : Prop :=
  header.accumulate.hyperPeriod = longest ∧
    ∃ i < header.subtaskTot, (header.parent i).period = period ∧ (header.subtask i).exeTime = exeTime

variable {header} {sort : KernelSort} {i : Nat}

/-- The aggregate times never exceed the largest period. -/
theorem turn_aggTime_le (before : List Nat) (j : Nat) :
    (header.turn before).aggTime j ≤ header.accumulate.hyperPeriod := by
  have all : ∀ j, (header.turn before).aggTime j ≤ header.accumulate.hyperPeriod := by
    refine List.foldlRecOn (motive := fun placement : Placement =>
      ∀ j, placement.aggTime j ≤ header.accumulate.hyperPeriod) before _ (fun _ => Nat.zero_le _) ?_
    intro placement bound i _ j
    rcases header.timed.place_cases i with ⟨first, _, passes, _, result⟩ | ⟨_, result⟩
    · rw [result]
      by_cases own : j = first
      · subst own
        simpa [fits] using passes
      · simpa [Function.update_of_ne own] using bound j
    · rw [result]
      by_cases own : j = 0
      · simp [own]
      · simpa [Function.update_of_ne own] using bound j
  exact all j

/-- A caught subtask is rejected at its turn. -/
theorem Caught.rejected (caught : header.Caught sort) (wf : header.WellFormed) :
    (header.plan sort).invalid = true := by
  obtain ⟨before, i, after, order, _, large, sums⟩ := caught
  have inside : i < header.subtaskTot := by
    rw [← List.mem_range, ← (placementOrder_perm sort header).mem_iff, order]
    simp
  rw [← timed_scaledTime wf inside] at large sums
  have fails (j : Nat) (known : j < coreNum) :
      header.timed.fits header.accumulate.hyperPeriod (header.turn before) i j = false := by
    rw [fits, u32_of_lt (sums j known), decide_eq_false_iff_not]
    omega
  have here : (header.turn (before ++ [i])).invalid = true := by
    rw [turn_append, List.foldl_cons, List.foldl_nil]
    rcases header.timed.place_cases i with ⟨j, known, passes, _⟩ | ⟨_, result⟩
    · rw [fails j known] at passes
      contradiction
    · rw [result]
  have whole : header.placement sort = header.turn (before ++ [i] ++ after) := by
    rw [List.append_assoc, List.singleton_append, ← order]
    rfl
  change (header.placement sort).invalid = true
  rw [whole, turn_append]
  exact invalid_foldl after here

/-- For periods of at least two, the sums of an oversized subtask do not wrap. -/
theorem caught_of_two_le (inside : i < header.subtaskTot) (two : 2 ≤ (header.parent i).period)
    (impossible : (header.parent i).period < (header.subtask i).exeTime)
    (large : header.accumulate.hyperPeriod < header.scaledTime header.accumulate.hyperPeriod i) :
    header.Caught sort := by
  have listed : i ∈ header.placementOrder sort :=
    (placementOrder_perm sort header).mem_iff.mpr (List.mem_range.mpr inside)
  obtain ⟨before, after, order⟩ := List.append_of_mem listed
  refine ⟨before, i, after, order, impossible, large, fun j _ => ?_⟩
  have bound := header.turn_aggTime_le before j
  have small : header.scaledTime header.accumulate.hyperPeriod i < 2 ^ 31 := by
    rw [scaledTime, Nat.div_lt_iff_lt_mul (Nat.zero_lt_two.trans_le two)]
    have word := u32_lt ((header.subtask i).exeTime * header.accumulate.hyperPeriod)
    omega
  omega

section Empty

variable {hyperPeriod : Nat} {placement : Placement} (word : hyperPeriod < 2 ^ 32)
  (small : header.scaledTime hyperPeriod i ≤ hyperPeriod)

include word small

/-- An empty core takes each subtask whose time does not exceed the largest period. -/
theorem place_of_empty {j : Nat} (known : j < coreNum) (empty : placement.aggTime j = 0) :
    (header.place hyperPeriod placement i).invalid = placement.invalid := by
  have passes : header.fits hyperPeriod placement i j = true := by
    rw [fits, empty, Nat.zero_add, u32_of_lt (small.trans_lt word)]
    exact decide_eq_true small
  rcases header.place_cases i with ⟨first, _, _, _, result⟩ | ⟨none, _⟩
  · rw [result]
  · rw [none j known] at passes
    contradiction

/-- One subtask leaves a core empty. -/
theorem exists_empty (empty : ∀ j < coreNum, placement.aggTime j = 0) :
    ∃ j < coreNum, (header.place hyperPeriod placement i).aggTime j = 0 := by
  rcases header.place_cases i with ⟨first, _, _, _, result⟩ | ⟨none, _⟩
  · by_cases own : first = 0
    · refine ⟨1, by decide, ?_⟩
      rw [result, own]
      simpa using empty 1 (by decide)
    · refine ⟨0, by decide, ?_⟩
      rw [result]
      simpa [Function.update_of_ne (Ne.symm own)] using empty 0 (by decide)
  · have fails := none 0 (by decide)
    rw [fits, empty 0 (by decide), Nat.zero_add, u32_of_lt (small.trans_lt word)] at fails
    exact absurd small (of_decide_eq_false fails)

end Empty

/-- Two subtasks with small times are accepted. -/
theorem accepted_of_two {hyperPeriod : Nat} {placement : Placement} (word : hyperPeriod < 2 ^ 32)
    {visited : List Nat} (two : visited.length = 2)
    (small : ∀ i ∈ visited, header.scaledTime hyperPeriod i ≤ hyperPeriod)
    (empty : ∀ j < coreNum, placement.aggTime j = 0) :
    (visited.foldl (header.place hyperPeriod) placement).invalid = placement.invalid := by
  obtain ⟨first, second, rfl⟩ := List.length_eq_two.mp two
  obtain ⟨j, known, free⟩ := exists_empty word (small first (by simp)) empty
  rw [List.foldl_cons, List.foldl_cons, List.foldl_nil, place_of_empty word (small second (by simp)) known free,
    place_of_empty word (small first (by simp)) (by decide : 0 < coreNum) (empty 0 (by decide))]

end Header

/-- The numbers of a subtask that cannot meet its period, in a table with a largest period. -/
structure ImpossibleKind (period exeTime longest : Nat) : Prop where
  positive : 1 ≤ period
  impossible : period < exeTime
  shorter : period ≤ longest
  exeWord : exeTime < 2 ^ 32
  longestWord : longest < 2 ^ 32

/-- An impossible subtask and a unit with the largest period. -/
def acceptedHeader (period exeTime longest : Nat) : Header :=
  singletons 2 (fun k => if k = 0 then ⟨period, 1, 0, exeTime⟩ else ⟨longest, 1, 1, 1⟩)
    fun i => if i = 0 then { taskId := 0, subtaskId := 0, exeTime } else { taskId := 1, subtaskId := 0, exeTime := 1 }

theorem accepted_parent {period exeTime longest i : Nat} (inside : i < 2) :
    (acceptedHeader period exeTime longest).parent i =
    if i = 0 then ⟨period, 1, 0, exeTime⟩ else ⟨longest, 1, 1, 1⟩ := by
  refine singletons_parent (fun i inside => ?_) inside
  by_cases first : i = 0
  · simp [first]
  · rw [if_neg first]
    change 1 = i
    omega

namespace ImpossibleKind

variable {period exeTime longest : Nat} (kind : ImpossibleKind period exeTime longest)

include kind

theorem accepted_wellFormed : (acceptedHeader period exeTime longest).WellFormed := by
  obtain ⟨positive, impossible, shorter, exeWord, longestWord⟩ := kind
  refine singletons_wellFormed (fun k inside => ?_) fun i inside => ?_
  · by_cases first : k = 0
    · simp only [if_pos first, Task.Words, true_and]
      omega
    · simp only [if_neg first, Task.Words, true_and]
      omega
  · by_cases first : i = 0
    · simp only [if_pos first, Subtask.Words, true_and]
      omega
    · simp only [if_neg first, Subtask.Words, true_and]
      omega

theorem accepted_hyperPeriod : (acceptedHeader period exeTime longest).accumulate.hyperPeriod = longest := by
  rw [Header.hyperPeriod_longest]
  exact Nat.max_eq_right (by simpa using kind.shorter)

theorem accepted_contains : (acceptedHeader period exeTime longest).Contains period exeTime longest := by
  refine ⟨kind.accepted_hyperPeriod, 0, Nat.zero_lt_two.trans_eq singletons_subtaskTot.symm, ?_, ?_⟩
  · rw [accepted_parent (by decide)]
    rfl
  · rw [acceptedHeader, singletons_subtask (by decide)]
    rfl

/-- When the wrapped time does not exceed the largest period, each sort leads to an accepted table. -/
theorem accepted (sort : KernelSort) (small : u32 (exeTime * longest) / period ≤ longest) :
    ((acceptedHeader period exeTime longest).plan sort).invalid = false := by
  have wf := kind.accepted_wellFormed
  have total : (acceptedHeader period exeTime longest).subtaskTot = 2 := singletons_subtaskTot
  have order := (acceptedHeader period exeTime longest).placementOrder_perm sort
  have positive := kind.positive.trans kind.shorter
  change ((acceptedHeader period exeTime longest).placement sort).invalid = false
  rw [Header.placement, kind.accepted_hyperPeriod]
  refine Header.accepted_of_two kind.longestWord ?_ (fun i listed => ?_) fun _ _ => rfl
  · rw [order.length_eq, List.length_range, total]
  · have inside := List.mem_range.mp (order.mem_iff.mp listed)
    rw [timed_scaledTime wf inside, Header.scaledTime]
    rw [total] at inside
    rw [accepted_parent inside, acceptedHeader, singletons_subtask inside]
    by_cases first : i = 0
    · simpa only [if_pos first] using small
    · simp only [if_neg first, one_mul, u32_of_lt kind.longestWord, Nat.div_self positive]
      exact positive

end ImpossibleKind

/-- An impossible subtask makes `E2E_init` reject the table when it is caught. For periods of at least two, each
table with it is rejected exactly when its wrapped time exceeds the largest period. -/
theorem impossible_flagged (sort : KernelSort) :
    (∀ table : Table, table.Caught sort → (table.plan sort).invalid = true) ∧
    ∀ period exeTime longest, ImpossibleKind period exeTime longest →
      (u32 (exeTime * longest) / period ≤ longest →
        ∃ table : Table, table.Contains period exeTime longest ∧ (table.plan sort).invalid = false) ∧
      (2 ≤ period → ((∀ table : Table, table.Contains period exeTime longest → (table.plan sort).invalid = true) ↔
        longest < u32 (exeTime * longest) / period)) := by
  refine ⟨fun table caught => caught.rejected table.wellFormed, fun period exeTime longest kind => ?_⟩
  have accepted (small : u32 (exeTime * longest) / period ≤ longest) :
      ∃ table : Table, table.Contains period exeTime longest ∧ (table.plan sort).invalid = false :=
    ⟨⟨acceptedHeader period exeTime longest, kind.accepted_wellFormed⟩, kind.accepted_contains,
      kind.accepted sort small⟩
  refine ⟨accepted, fun two => ⟨fun flagged => ?_, fun large table contains => ?_⟩⟩
  · by_contra small
    obtain ⟨table, contains, missed⟩ := accepted (Nat.le_of_not_lt small)
    rw [flagged table contains] at missed
    contradiction
  · obtain ⟨same, i, inside, rfl, rfl⟩ := contains
    refine (Header.caught_of_two_le inside two kind.impossible ?_).rejected table.wellFormed
    rw [same]
    exact large

/-- One task of period two with one subtask of three milliseconds. -/
def impossibleTable : Table where
  tasks := [⟨2, 1, 0, 0⟩]
  subtasks := [{ taskId := 0, subtaskId := 0, exeTime := 3 }]
  wellFormed := by constructor <;> decide

/-- The impossible table is rejected, and so is each table with its subtask and its largest period. -/
theorem impossible_flagged_three : (impossibleTable.plan insertionSort).invalid = true ∧
    ∀ table : Table, table.Contains 2 3 2 → (table.plan insertionSort).invalid = true := by
  have kind : ImpossibleKind 2 3 2 := by constructor <;> decide
  have caught : impossibleTable.Caught insertionSort :=
    Header.caught_of_two_le (by decide : 0 < impossibleTable.subtaskTot) (by decide) (by decide) (by decide)
  exact ⟨(impossible_flagged insertionSort).1 impossibleTable caught,
    ((impossible_flagged insertionSort).2 2 3 2 kind).2 (by decide) |>.mpr (by decide)⟩

/-- A subtask of 2 ^ 31 milliseconds with a period of two milliseconds is accepted. -/
theorem impossible_accepted : ∃ table : Table, (table.subtask 0).exeTime = 2147483648 ∧ (table.parent 0).period = 2 ∧
    table.subtaskTot = 1 ∧ (table.plan insertionSort).invalid = false := by
  refine ⟨⟨⟨[⟨2, 1, 0, 0⟩], [{ taskId := 0, subtaskId := 0, exeTime := 2147483648 }]⟩, ?_⟩, rfl, rfl, rfl, ?_⟩
  · constructor <;> decide
  · decide +kernel

end KernelStudio.EndToEnd
