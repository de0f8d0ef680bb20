/-
This file proves the precedence of each chain from the account of its pairs,
and says when each completion leads to its own release.
-/

import KernelStudio.Proof.EndToEnd.Ledger

namespace KernelStudio.EndToEnd

open Transition

variable {header : Header} {state next : State}

/-- Only the statement that sets the release time records a release. -/
theorem step_releases {event : Event} {j : Nat} (taken : header.step state event = some next) :
    (next.sub j).releases = (state.sub j).releases ∨
      event = .thread j ∧ (state.sub j).pc = .lastReleaseTime ∧
        (next.sub j).releases = (state.sub j).releases ++ [state.now] := by
  by_cases loading : event = .init
  · left
    subst loading
    rcases step_init taken with ⟨i, _, _, rfl⟩ | ⟨i, _, _, rfl⟩ | ⟨i, _, rfl⟩ | ⟨i, _, rfl⟩ | ⟨_, rfl⟩
    all_goals simp +contextual [Function.update_apply, apply_ite Sub.releases,
      (Signal.apply_work _ _ _).releases]
  · rcases step_sub loading taken j with ⟨same, _⟩ | ⟨cur, signal, own, statement, same, -⟩
    · exact .inl same.releases
    · rw [same.releases]
      cases statement
      case lastReleaseTime position => exact .inr ⟨own, position, rfl⟩
      all_goals exact .inl rfl

/-- In each run before the unload, a successor is released at most as often as its predecessor has
completed, and the completion comes before the step that records the release. -/
theorem release_after_completion (table : Table) {p s : Nat} (pair : table.Consecutive p s)
    {state : State} (reached : table.runMode.Reachable state) (before : state.exit = .notStarted) :
    (state.sub s).releases.length ≤ (state.sub p).completed ∧
      ∀ event next, table.step state event = some next →
        (next.sub s).releases.length ≤ (state.sub p).completed := by
  have account := ledger_reached table.wellFormed pair reached before
  unfold Sub.owing at account
  refine ⟨by omega, fun event next taken => ?_⟩
  rcases step_releases (j := s) taken with same | ⟨_, position, released⟩
  · rw [same]
    omega
  · rw [position, show Pc.lastReleaseTime.woken = 1 from rfl] at account
    rw [released, List.length_append, List.length_singleton]
    omega

/-- These labels load the module, put each thread to sleep and let the start timer wake the tasks. -/
def Header.boot (header : Header) : List Event :=
  List.replicate (3 * header.subtaskTot + 2) .init ++
    (List.range header.subtaskTot).flatMap (fun i => List.replicate 6 (.thread i)) ++
    .tick 100000000 :: List.replicate (header.taskTot + 2) .cal

/-- The predecessor executes one complete job and wakes its successor, which is then released. -/
def pairEvents : List Event :=
  pairTable.boot ++ List.replicate 13 (.thread 0) ++ List.replicate 2 (.thread 1)

/-- The bound holds with equality after the first release of the pair. -/
theorem release_after_completion_pair :
    ∃ state : State, (state.sub 1).releases.length = 1 ∧ (state.sub 1).releases.length ≤ (state.sub 0).completed := by
  have initial : pairTable.runMode.start (.loaded 0) := ⟨0, rfl⟩
  have executed : ((pairTable.runMode.execute (.loaded 0) pairEvents).map fun state =>
      ((state.sub 1).releases.length, state.exit)) = some (1, .notStarted) := by decide +kernel
  obtain ⟨state, reached, shown⟩ := Machine.execute_shows initial pairEvents _ executed
  simp only [Prod.mk.injEq] at shown
  exact ⟨state, shown.1, (release_after_completion pairTable pairTable_consecutive reached shown.2).1⟩

/-- While no wake-up of the successor finds it awake and no start finds its timer armed, each
completion outside the job is matched by a release, an armed timer or a pending wake-up. -/
theorem completions_released (table : Table) {p s : Nat} (pair : table.Consecutive p s) {state : State}
    (reached : table.runMode.Reaches (table.keeps s) state) (before : state.exit = .notStarted)
    (outside : (state.sub p).pc.claimed = 0) :
    (state.sub p).completed =
      (state.sub s).releases.length + (state.sub s).armed + (state.sub s).pc.woken := by
  have account := ledger_kept table.wellFormed pair reached before
  unfold Sub.owing at account
  omega

/-- The first release of the pair is matched by the first completion. -/
theorem completions_released_pair :
    ∃ state : State, (state.sub 0).completed = 1 ∧ (state.sub 0).completed =
      (state.sub 1).releases.length + (state.sub 1).armed + (state.sub 1).pc.woken := by
  have initial : pairTable.runMode.start (.loaded 0) := ⟨0, rfl⟩
  have admitted : pairTable.runMode.admits (pairTable.keeps 1) (.loaded 0) pairEvents = true := by
    decide +kernel
  have executed : ((pairTable.runMode.execute (.loaded 0) pairEvents).map fun state =>
      ((state.sub 0).completed, state.exit, (state.sub 0).pc.claimed)) = some (1, .notStarted, 0) := by
    decide +kernel
  obtain ⟨state, reached, shown⟩ := Machine.admits_shows initial pairEvents admitted _ executed
  simp only [Prod.mk.injEq] at shown
  exact ⟨state, shown.1, completions_released pairTable pairTable_consecutive reached shown.2.1 shown.2.2⟩

/-- The second job of the predecessor ends while the successor still executes its first one. -/
def overrunEvents : List Event :=
  pairEvents ++ [.tick 2000000, .fire 0] ++ List.replicate 10 (.thread 0)

/-- A completion whose wake-up finds the successor awake leads to no release of its own. -/
theorem completion_dropped :
    ∃ state, pairTable.Consecutive 0 1 ∧ pairTable.runMode.Reachable state ∧ state.exit = .notStarted ∧
      (state.sub 0).pc = .kthreadShouldStop ∧
      (state.sub 0).completed ≠
        (state.sub 1).releases.length + (state.sub 1).armed + (state.sub 1).pc.woken := by
  have initial : pairTable.runMode.start (.loaded 0) := ⟨0, rfl⟩
  have executed : ((pairTable.runMode.execute (.loaded 0) overrunEvents).map fun state =>
      (state.exit, (state.sub 0).pc, (state.sub 0).completed,
        (state.sub 1).releases.length + (state.sub 1).armed + (state.sub 1).pc.woken)) =
      some (.notStarted, .kthreadShouldStop, 2, 1) := by decide +kernel
  obtain ⟨state, reached, shown⟩ := Machine.execute_shows initial overrunEvents _ executed
  simp only [Prod.mk.injEq] at shown
  obtain ⟨before, position, completed, owed⟩ := shown
  refine ⟨state, pairTable_consecutive, reached, before, position, ?_⟩
  rw [completed, owed]
  decide

end KernelStudio.EndToEnd
