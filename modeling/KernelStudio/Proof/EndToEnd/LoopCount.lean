/-
This file proves that the inner loop of `calibrate` finds the loop count, whatever the clock returns.
The words of the loop do not wrap, so the loop is a bisection, and so is each search of a calibrate thread.
-/

import KernelStudio.Construction.EndToEnd.LoopCount
import KernelStudio.Library.Bisection
import KernelStudio.Proof.EndToEnd.Calibrate
import Mathlib.Data.Int.ConditionallyCompleteOrder
import Mathlib.Order.ConditionallyCompleteLattice.Basic

namespace KernelStudio.EndToEnd

open Bisection Transition

/-- The bisection that answers whether a duration has reached the target. -/
abbrev bisection (target : Nat) (durations : List Int) : Search Int :=
  Bisection.search (fun duration => decide (duration ≥ target)) 100000000 durations

/-- The bounds and the measurements of a bisection. -/
def LoopSearch.ofSearch (search : Search Int) : LoopSearch := ⟨search.lower, search.upper, search.probes⟩

variable {target : Nat} {durations : List Int}

/-- No word of a round wraps. -/
theorem measure_ofSearch {search : Search Int} (bounded : search.upper ≤ 100000000) (duration : Int) :
    (LoopSearch.ofSearch search).measure target duration =
      .ofSearch (search.step (fun duration => decide (duration ≥ target)) duration) := by
  unfold LoopSearch.measure Search.step
  by_cases isOpen : search.lower < search.upper
  · have mid : u32 (search.lower + search.upper) >>> 1 = search.mid := by
      rw [u32_of_lt (by omega), Nat.shiftRight_eq_div_pow]
      rfl
    have next : u32 (search.mid + 1) = search.mid + 1 := by
      refine u32_of_lt ?_
      unfold Search.mid
      omega
    simp only [LoopSearch.ofSearch, isOpen, if_true, mid, next, decide_eq_true_eq]
    split <;> rfl
  · simp only [LoopSearch.ofSearch, isOpen, if_false]

/-- The inner loop is a bisection. -/
theorem loopSearch_eq (target : Nat) (durations : List Int) :
    loopSearch target durations = .ofSearch (bisection target durations) := by
  induction durations using List.reverseRecOn with
  | nil => rfl
  | append_singleton before duration ih =>
      have sound := search_sound (fun duration => decide (duration ≥ (target : Int))) 100000000 before
      rw [bisection, search_concat, ← measure_ofSearch sound.bounded, ← ih, loopSearch, loopSearch,
        List.foldl_append]
      rfl

/-- What the inner loop promises for arbitrary durations, and for durations that grow with the loop count. -/
structure LoopSearch.Exact (target : Nat) (search : LoopSearch) : Prop where
  few : search.measured.length ≤ 27
  below : ∀ probe ∈ search.measured, probe.1 < 100000000
  once : (search.measured.map Prod.fst).Nodup
  bounded : search.maxCnt ≤ 100000000
  reached : search.Ended → search.maxCnt < 100000000 →
    ∃ duration, (search.maxCnt, duration) ∈ search.measured ∧ (target : Int) ≤ duration
  missed : search.Ended → 0 < search.maxCnt →
    ∃ duration, (search.maxCnt - 1, duration) ∈ search.measured ∧ duration < target
  least : search.Ended → ∀ duration : Nat → Int, Monotone duration →
    (∀ probe ∈ search.measured, probe.2 = duration probe.1) →
      (search.maxCnt < 100000000 → IsLeast {count | (target : Int) ≤ duration count} search.maxCnt) ∧
      ∀ count < search.maxCnt, duration count < target

/-- Whatever the durations are, the bounds of the inner loop are exact. -/
theorem loopSearch_exact (target : Nat) (durations : List Int) : (loopSearch target durations).Exact target := by
  have word : 100000000 < 2 ^ 27 := by decide
  have sound := search_sound (fun duration => decide (duration ≥ (target : Int))) 100000000 durations
  rw [loopSearch_eq]
  refine ⟨search_probes_le word durations, fun probe listed => (sound.outside probe listed).1, sound.distinct,
    sound.bounded, fun _ less => ?_, fun ended positive => ?_, fun ended duration monotone honest => ?_⟩
  · obtain ⟨duration, listed, yes⟩ := sound.upper less
    exact ⟨duration, listed, of_decide_eq_true yes⟩
  · have same := le_antisymm sound.ordered (Nat.le_of_not_lt ended)
    obtain ⟨duration, listed, no⟩ := sound.lower (same ▸ positive)
    rw [same] at listed
    exact ⟨duration, listed, lt_of_not_ge (of_decide_eq_false no)⟩
  · have upwards : IsUpperSet {count | (target : Int) ≤ duration count} :=
      fun count larger grows enough => le_trans enough (monotone grows)
    have least := sound.least (Nat.le_of_not_lt ended) upwards fun probe listed => by
      rw [decide_eq_true_eq, honest probe listed]
      rfl
    exact ⟨least.1, fun count less => lt_of_not_ge (least.2 count less)⟩

/-- The inner loop ends after 27 measurements at the latest. -/
theorem loopSearch_ended (target : Nat) {durations : List Int} (enough : 27 ≤ durations.length) :
    (loopSearch target durations).Ended := by
  rw [loopSearch_eq]
  exact Nat.not_lt_of_le (search_closed (by decide : 100000000 < 2 ^ 27) enough)

/-- The inner loop ends after 27 measurements at the latest, with the exact loop count. -/
theorem loop_count_exact (target : Nat) (durations : List Int) :
    (loopSearch target durations).Exact target ∧ (27 ≤ durations.length → (loopSearch target durations).Ended) :=
  ⟨loopSearch_exact target durations, loopSearch_ended target⟩

namespace CalibrateMode

variable {plan : Plan} {cur later : Thread} {write : Write} {now : Nat} {state next : State}

/-- The target of a subtask. -/
abbrev targetOf (plan : Plan) (i : Nat) : Nat := u32 ((plan.header.subtask i).exeTime * 1000000)

/-- A thread has the bounds that the inner loop has after these durations. -/
def Thread.Bounds (plan : Plan) (cur : Thread) (durations : List Int) : Prop :=
  (loopSearch (plan.target cur.cur) durations).minCnt = cur.minCnt ∧
    (loopSearch (plan.target cur.cur) durations).maxCnt = cur.maxCnt

/-- The bounds of a thread in the inner loop come from the durations that it has measured there. -/
def Thread.Searches (plan : Plan) (cur : Thread) : Prop :=
  match cur.pc with
  | .whileBounds => ∃ durations, cur.Bounds plan durations
  | .mid => cur.minCnt < cur.maxCnt ∧ ∃ durations, cur.Bounds plan durations
  | .startT | .subtaskFunc | .endT | .compare => cur.minCnt < cur.maxCnt ∧
      cur.mid = u32 (cur.minCnt + cur.maxCnt) >>> 1 ∧ ∃ durations, cur.Bounds plan durations
  | .maxCnt => ¬ cur.minCnt < cur.maxCnt ∧ ∃ durations, cur.Bounds plan durations
  | _ => True

theorem Thread.searches_wake (searches : cur.Searches plan) :
    Thread.Searches plan { cur with pc := cur.pc.wake } := by
  unfold Thread.Searches at searches ⊢
  cases pc : cur.pc <;> rw [pc] at searches <;> exact searches

/-- A comparison is a round of the inner loop. -/
theorem Thread.Bounds.compare {durations : List Int} (bounds : cur.Bounds plan durations)
    (isOpen : cur.minCnt < cur.maxCnt) (mid : cur.mid = u32 (cur.minCnt + cur.maxCnt) >>> 1) :
    Thread.Bounds plan (if cur.startT + plan.target cur.cur ≤ cur.endT
      then { cur with maxCnt := cur.mid, pc := .whileBounds }
      else { cur with minCnt := u32 (cur.mid + 1), pc := .whileBounds })
      (durations ++ [(cur.endT : Int) - cur.startT]) := by
  obtain ⟨lower, upper⟩ := bounds
  have reached : (cur.endT : Int) - cur.startT ≥ plan.target cur.cur ↔
      cur.startT + plan.target cur.cur ≤ cur.endT := by omega
  have round : loopSearch (plan.target cur.cur) (durations ++ [(cur.endT : Int) - cur.startT]) =
      (loopSearch (plan.target cur.cur) durations).measure (plan.target cur.cur) (cur.endT - cur.startT) := by
    rw [loopSearch, List.foldl_append]
    rfl
  unfold Thread.Bounds
  split
  next enough =>
    simp only [round, LoopSearch.measure, lower, upper, isOpen, if_true, ← mid, reached.mpr enough, and_self]
  next short =>
    simp only [round, LoopSearch.measure, lower, upper, isOpen, if_true, ← mid, mt reached.mp short, if_false,
      and_self]

/-- Each statement of a thread keeps its search. -/
theorem calibrate_searches (searches : cur.Searches plan) (taken : calibrate plan now cur = some (later, write)) :
    later.Searches plan := by
  unfold calibrate at taken
  split at taken <;> simp only [reduceCtorEq, Option.some.injEq, Prod.mk.injEq] at taken <;>
    obtain ⟨rfl, rfl⟩ := taken
  · trivial
  · trivial
  · trivial
  · trivial
  · trivial
  · unfold Thread.Searches
    dsimp only
    split_ifs <;> trivial
  · unfold Thread.Searches
    dsimp only
    split_ifs <;> trivial
  · trivial
  · exact ⟨[], rfl, rfl⟩
  · next pc =>
      rw [Thread.Searches, pc] at searches
      unfold Thread.Searches
      split_ifs with isOpen
      · exact ⟨isOpen, searches⟩
      · exact ⟨isOpen, searches⟩
  · next pc =>
      rw [Thread.Searches, pc] at searches
      exact ⟨searches.1, rfl, searches.2⟩
  · next pc =>
      rw [Thread.Searches, pc] at searches
      exact searches
  · next pc =>
      rw [Thread.Searches, pc] at searches
      exact searches
  · next pc =>
      rw [Thread.Searches, pc] at searches
      exact searches
  · next pc =>
      rw [Thread.Searches, pc] at searches
      obtain ⟨isOpen, mid, durations, bounds⟩ := searches
      have round := bounds.compare isOpen mid
      by_cases enough : cur.startT + plan.target cur.cur ≤ cur.endT
      · rw [if_pos enough] at round ⊢
        exact ⟨_, round⟩
      · rw [if_neg enough] at round ⊢
        exact ⟨_, round⟩
  · trivial
  · trivial
  · trivial

/-- Each thread searches, and each result is that of an ended search for the target of its subtask. -/
structure Searched (plan : Plan) (state : State) : Prop where
  threads : ∀ c, (state.thread c).Searches plan
  results : ∀ i value, state.result i = some value → ∃ durations,
    (loopSearch (targetOf plan i) durations).Ended ∧ (loopSearch (targetOf plan i) durations).maxCnt = value

/-- A thread stores the result of its own search. -/
theorem calibrate_result {value : Nat} (searches : cur.Searches plan)
    (taken : calibrate plan now cur = some (later, .final value)) : ∃ durations,
      (loopSearch (plan.target cur.cur) durations).Ended ∧
        (loopSearch (plan.target cur.cur) durations).maxCnt = value := by
  unfold calibrate at taken
  split at taken <;> simp only [reduceCtorEq, Option.some.injEq, Prod.mk.injEq, and_false, Write.final.injEq] at taken
  next pc =>
    rw [Thread.Searches, pc] at searches
    obtain ⟨closed, durations, lower, upper⟩ := searches
    exact ⟨durations, by rwa [LoopSearch.Ended, lower, upper], upper.trans taken.2⟩

theorem searched_thread {c : Nat} (searched : Searched plan state)
    (taken : step plan state (.thread c) = some next) : Searched plan next := by
  obtain ⟨⟨later, write⟩, statement, rfl⟩ := Option.map_eq_some_iff.mp taken
  refine ⟨fun other => ?_, fun i value known => ?_⟩
  · rw [thread_write]
    by_cases own : other = c
    · rw [own, set_self]
      exact calibrate_searches (searched.threads c) statement
    · rw [set_other _ _ own]
      exact searched.threads other
  · cases write with
    | none | probe _ => exact searched.results i value known
    | final stored =>
        by_cases here : i = plan.subtaskAt (state.thread c).cur
        · subst here
          simp only [State.write, Function.update_self, Option.some.injEq] at known
          exact calibrate_result (searched.threads c) (known ▸ statement)
        · simp only [State.write, Function.update_of_ne here] at known
          exact searched.results i value known

/-- The results of each run are those of ended searches. -/
theorem searched_reached {guard : Guard State Event} (reached : plan.calibrateMode.Reaches guard state) :
    Searched plan state := by
  refine reached.invariant (Searched plan) ?_ ?_
  · rintro _ ⟨now, rfl⟩
    exact ⟨fun _ => trivial, fun _ _ none => nomatch none⟩
  · intro current event following _ searched _ taken
    change step plan current event = some following at taken
    by_cases own : ∃ c, event = .thread c
    · obtain ⟨c, rfl⟩ := own
      exact searched_thread searched taken
    · obtain ⟨result, threads⟩ := step_threads taken fun c same => own ⟨c, same⟩
      refine ⟨fun c => ?_, fun i value known => searched.results i value (result ▸ known)⟩
      rcases threads c with same | woken | ⟨_, created⟩
      · rw [same]
        exact searched.threads c
      · rw [woken]
        exact Thread.searches_wake (searched.threads c)
      · rw [created]
        trivial

/-- Each stored loop count of a run is exact for the durations that its thread has measured. -/
theorem result_exact {guard : Guard State Event} (reached : plan.calibrateMode.Reaches guard state) {i value : Nat}
    (stored : state.result i = some value) :
    ∃ search : LoopSearch, search.Exact (targetOf plan i) ∧ search.Ended ∧ search.maxCnt = value := by
  obtain ⟨durations, ended, same⟩ := (searched_reached reached).results i value stored
  exact ⟨_, loopSearch_exact _ durations, ended, same⟩

end CalibrateMode

end KernelStudio.EndToEnd
