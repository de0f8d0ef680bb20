/-
This file models the inner loop of `calibrate` apart from the threads: the clock may return any durations.
-/

import KernelStudio.Construction.EndToEnd.Table
import Mathlib.Logic.Function.Iterate

namespace KernelStudio.EndToEnd

/-- The bounds of the inner loop of `calibrate` and its measurements: each probed loop count with its duration. -/
structure LoopSearch where
  minCnt : Nat := 0
  maxCnt : Nat := 100000000
  measured : List (Nat × Int) := []

/-- The test of the inner loop fails. -/
def LoopSearch.Ended (search : LoopSearch) : Prop := ¬ search.minCnt < search.maxCnt

/-- One round of the inner loop, in which `end_t - start_t` is this duration. -/
def LoopSearch.measure (target : Nat) (search : LoopSearch) (duration : Int) : LoopSearch :=
  if search.minCnt < search.maxCnt then
    let mid := u32 (search.minCnt + search.maxCnt) >>> 1
    let measured := search.measured ++ [(mid, duration)]
    if duration ≥ target then { search with maxCnt := mid, measured }
    else { search with minCnt := u32 (mid + 1), measured }
  else search

/-- The inner loop with the durations of its measurements, in their order. -/
def loopSearch (target : Nat) (durations : List Int) : LoopSearch :=
  durations.foldl (LoopSearch.measure target) {}

/-- One round of the inner loop on a machine where each loop count has its duration. -/
def LoopSearch.round (target : Nat) (duration : Nat → Int) (search : LoopSearch) : LoopSearch :=
  search.measure target (duration (u32 (search.minCnt + search.maxCnt) >>> 1))

/-- The first rounds of the inner loop on this machine. -/
def timedSearch (target : Nat) (duration : Nat → Int) (rounds : Nat) : LoopSearch :=
  (LoopSearch.round target duration)^[rounds] {}

/-- The expression `exe_time * NSEC_PER_MSEC`, which is a product of unsigned words. -/
def targetNs (exeTime : Nat) : Nat := u32 (exeTime * 1000000)

/-- The loop count that `calibrate` stores. The loop has ended after 27 rounds. -/
def storedCount (exeTime : Nat) (duration : Nat → Int) : Nat := (timedSearch (targetNs exeTime) duration 27).maxCnt

end KernelStudio.EndToEnd
