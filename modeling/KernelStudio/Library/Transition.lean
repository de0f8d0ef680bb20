/-
This file gives labelled machines, their guarded runs and the induction rules for them.
The labels make each step a function, so a finite run can be computed.
-/

import Mathlib.Logic.Basic
import Mathlib.Tactic.Common

namespace KernelStudio.Transition

/-- A machine has start states and one successor at most for each label. -/
structure Machine (State Event : Type) where
  start : State → Prop
  step : State → Event → Option State

variable {State Event : Type}

/-- A guard says which labels may be taken in which states. -/
abbrev Guard (State Event : Type) := State → Event → Prop

/-- The trivial guard admits each step. -/
def free : Guard State Event := fun _ _ => True

/-- This relation collects the states of all runs whose steps satisfy the guard. -/
inductive Machine.Reaches (machine : Machine State Event) (guard : Guard State Event) : State → Prop where
  | start {state : State} : machine.start state → machine.Reaches guard state
  | step {state next : State} (event : Event) : machine.Reaches guard state → guard state event →
      machine.step state event = some next → machine.Reaches guard next

/-- A reachable state of the machine needs no guard. -/
abbrev Machine.Reachable (machine : Machine State Event) : State → Prop := machine.Reaches free

/-- A step lemma gives the run lemma. The step may use that its source is reached. -/
theorem Machine.Reaches.invariant {machine : Machine State Event} {guard : Guard State Event}
    (property : State → Prop) (base : ∀ state, machine.start state → property state)
    (preserved : ∀ state event next, machine.Reaches guard state → property state →
      guard state event → machine.step state event = some next → property next)
    {state : State} (reached : machine.Reaches guard state) : property state := by
  induction reached with
  | start initial => exact base _ initial
  | step event before admitted taken ih => exact preserved _ event _ before ih admitted taken

/-- A stronger guard reaches fewer states. -/
theorem Machine.Reaches.mono {machine : Machine State Event} {strong weak : Guard State Event}
    (implies : ∀ state event, strong state event → weak state event)
    {state : State} (reached : machine.Reaches strong state) : machine.Reaches weak state := by
  induction reached with
  | start initial => exact .start initial
  | step event _ admitted taken ih => exact .step event ih (implies _ _ admitted) taken

/-- A guard that admits the steps of another guard's runs reaches their states. -/
theorem Machine.Reaches.admit {machine : Machine State Event} {strong weak : Guard State Event}
    (implies : ∀ state event, machine.Reaches strong state → strong state event → weak state event)
    {state : State} (reached : machine.Reaches strong state) : machine.Reaches weak state := by
  induction reached with
  | start initial => exact .start initial
  | step event before admitted taken ih => exact .step event ih (implies _ _ before admitted) taken

/-- A property that no step can establish held along the whole run that ends in it. -/
theorem Machine.Reaches.backward {machine : Machine State Event} {guard : Guard State Event}
    (early : State → Prop)
    (backward : ∀ state event next, machine.step state event = some next → early next → early state)
    {state : State} (reached : machine.Reaches guard state) (holds : early state) :
    machine.Reaches (fun current event => guard current event ∧ early current ∧
      ∀ next, machine.step current event = some next → early next) state := by
  induction reached with
  | start initial => exact .start initial
  | step event _ admitted taken ih =>
      have before := backward _ event _ taken holds
      refine .step event (ih before) ⟨admitted, before, ?_⟩ taken
      intro next other
      rw [taken] at other
      exact Option.some.inj other ▸ holds

/-- A relation that each guarded step keeps, with one admitted step of the other machine or with none,
carries the guarded runs over to that machine. -/
theorem Machine.Reaches.simulates {Image Label : Type} {machine : Machine State Event}
    {guard : Guard State Event} {target : Machine Image Label} {allowed : Guard Image Label}
    (related : State → Image → Prop)
    (base : ∀ state, machine.start state → ∃ image, target.start image ∧ related state image)
    (kept : ∀ state event next image, machine.Reaches guard state → target.Reaches allowed image →
      related state image → guard state event → machine.step state event = some next →
      related next image ∨
        ∃ label after, allowed image label ∧ target.step image label = some after ∧ related next after)
    {state : State} (reached : machine.Reaches guard state) :
    ∃ image, target.Reaches allowed image ∧ related state image := by
  induction reached with
  | start initial =>
      obtain ⟨image, begins, holds⟩ := base _ initial
      exact ⟨image, .start begins, holds⟩
  | step event before admitted taken ih =>
      obtain ⟨image, visited, holds⟩ := ih
      rcases kept _ event _ image before visited holds admitted taken with still | ⟨label, after, fits, moved, still⟩
      · exact ⟨image, visited, still⟩
      · exact ⟨after, .step label visited fits moved, still⟩

/-- This function executes the labels from left to right. -/
def Machine.execute (machine : Machine State Event) : State → List Event → Option State
  | state, [] => some state
  | state, event :: rest => (machine.step state event).bind fun next => machine.execute next rest

/-- This check follows the labels and tests the guard in each source state. -/
def Machine.admits (machine : Machine State Event) (guard : Guard State Event)
    [∀ state event, Decidable (guard state event)] : State → List Event → Bool
  | _, [] => true
  | state, event :: rest => guard state event && match machine.step state event with
      | none => false
      | some next => machine.admits guard next rest

/-- The labels of one list may be executed after those of another. -/
theorem Machine.execute_append {machine : Machine State Event} (events later : List Event) {state next : State}
    (executed : machine.execute state events = some next) :
    machine.execute state (events ++ later) = machine.execute next later := by
  induction events generalizing state with
  | nil =>
      simp only [execute, Option.some.injEq] at executed
      exact executed ▸ rfl
  | cons event rest ih =>
      cases taken : machine.step state event with
      | none => simp [execute, taken] at executed
      | some middle =>
          simp only [execute, taken, Option.bind_some] at executed
          simp only [List.cons_append, execute, taken, Option.bind_some]
          exact ih executed

/-- A property that the steps of these labels keep holds after their execution. -/
theorem Machine.execute_keeps {machine : Machine State Event} (property : State → Prop) (events : List Event)
    (kept : ∀ event ∈ events, ∀ state next, property state → machine.step state event = some next → property next)
    {state final : State} (holds : property state) (executed : machine.execute state events = some final) :
    property final := by
  induction events generalizing state with
  | nil =>
      simp only [execute, Option.some.injEq] at executed
      exact executed ▸ holds
  | cons event rest ih =>
      cases taken : machine.step state event with
      | none => simp [execute, taken] at executed
      | some next =>
          simp only [execute, taken, Option.bind_some] at executed
          exact ih (fun other known => kept other (List.mem_cons_of_mem event known))
            (kept event List.mem_cons_self state next holds taken) executed

/-- If each state outside the goal has an allowed step that keeps a property and lowers a variant, an execution of
allowed steps reaches the goal. -/
theorem Machine.exists_execute {machine : Machine State Event} {property goal : State → Prop} {allowed : Event → Prop}
    {variant : State → Nat}
    (advance : ∀ state, property state → ¬ goal state → ∃ event next, allowed event ∧
      machine.step state event = some next ∧ property next ∧ variant next < variant state)
    {state : State} (holds : property state) : ∃ events final, events.length ≤ variant state ∧
      (∀ event ∈ events, allowed event) ∧ machine.execute state events = some final ∧ property final ∧ goal final := by
  induction bound : variant state using Nat.strongRecOn generalizing state with
  | ind bound ih =>
      by_cases done : goal state
      · exact ⟨[], state, Nat.zero_le _, by simp, rfl, holds, done⟩
      · obtain ⟨event, next, admitted, taken, kept, lower⟩ := advance state holds done
        obtain ⟨events, final, short, all, executed, last⟩ := ih (variant next) (bound ▸ lower) kept rfl
        refine ⟨event :: events, final, ?_, by simpa using ⟨admitted, all⟩, ?_, last⟩
        · rw [List.length_cons]
          omega
        · rw [execute, taken, Option.bind_some]
          exact executed

/-- An execution whose steps pass the check is a guarded run. -/
theorem Machine.execute_reaches {machine : Machine State Event} {guard : Guard State Event}
    [∀ state event, Decidable (guard state event)] (events : List Event) {state final : State}
    (reached : machine.Reaches guard state) (admitted : machine.admits guard state events = true)
    (executed : machine.execute state events = some final) : machine.Reaches guard final := by
  induction events generalizing state with
  | nil =>
      simp only [execute, Option.some.injEq] at executed
      exact executed ▸ reached
  | cons event rest ih =>
      simp only [admits, Bool.and_eq_true, decide_eq_true_eq] at admitted
      obtain ⟨tested, remaining⟩ := admitted
      cases taken : machine.step state event with
      | none => simp [taken] at remaining
      | some next =>
          simp only [taken] at remaining
          simp only [execute, taken, Option.bind_some] at executed
          exact ih (.step event reached tested taken) remaining executed

/-- Every execution from a reached state is a run. -/
theorem Machine.execute_reachable {machine : Machine State Event} (events : List Event)
    {state final : State} (reached : machine.Reachable state)
    (executed : machine.execute state events = some final) : machine.Reachable final := by
  induction events generalizing state with
  | nil =>
      simp only [execute, Option.some.injEq] at executed
      exact executed ▸ reached
  | cons event rest ih =>
      cases taken : machine.step state event with
      | none => simp [execute, taken] at executed
      | some next =>
          simp only [execute, taken, Option.bind_some] at executed
          exact ih (.step event reached trivial taken) executed

/-- A computed execution whose steps pass the check shows what a guarded run can reach. -/
theorem Machine.admits_shows {α : Type} {machine : Machine State Event} {guard : Guard State Event}
    [∀ state event, Decidable (guard state event)] {start : State} (initial : machine.start start)
    (events : List Event) (admitted : machine.admits guard start events = true)
    (view : State → α) {value : α} (executed : (machine.execute start events).map view = some value) :
    ∃ state, machine.Reaches guard state ∧ view state = value := by
  obtain ⟨state, final, shown⟩ := Option.map_eq_some_iff.mp executed
  exact ⟨state, execute_reaches events (.start initial) admitted final, shown⟩

/-- A computed execution shows what the machine can reach. -/
theorem Machine.execute_shows {α : Type} {machine : Machine State Event} {start : State}
    (initial : machine.start start) (events : List Event) (view : State → α) {value : α}
    (executed : (machine.execute start events).map view = some value) :
    ∃ state, machine.Reachable state ∧ view state = value := by
  obtain ⟨state, final, shown⟩ := Option.map_eq_some_iff.mp executed
  exact ⟨state, execute_reachable events (.start initial) final, shown⟩

section Logged

variable {Entry : Type} {machine : Machine State Event} {shows : State → Event → List Entry}
  {guard : Guard State Event}

/-- The same machine with a log of what its steps show. -/
def Machine.logged (machine : Machine State Event) (shows : State → Event → List Entry) :
    Machine (State × List Entry) Event where
  start pair := machine.start pair.1 ∧ pair.2 = []
  step pair event := (machine.step pair.1 event).map fun next => (next, pair.2 ++ shows pair.1 event)

/-- The guard of a logged machine that looks at the state only. -/
abbrev Guard.logged (guard : Guard State Event) : Guard (State × List Entry) Event :=
  fun pair event => guard pair.1 event

theorem Machine.logged_step {state next : State} {log later : List Entry} {event : Event}
    (taken : (machine.logged shows).step (state, log) event = some (next, later)) :
    machine.step state event = some next ∧ later = log ++ shows state event := by
  obtain ⟨_, step, same⟩ := Option.map_eq_some_iff.mp taken
  simp only [Prod.mk.injEq] at same
  exact ⟨same.1 ▸ step, same.2.symm⟩

/-- The log does not change what is reached. -/
theorem Machine.Reaches.forget {pair : State × List Entry}
    (reached : (machine.logged shows).Reaches guard.logged pair) : machine.Reaches guard pair.1 := by
  induction reached with
  | start initial => exact .start initial.1
  | @step before after event _ admitted taken ih =>
      exact .step event ih admitted (Machine.logged_step taken).1

end Logged

/-- A variant that no step increases and each step of one label decreases bounds how often the label occurs. -/
theorem Machine.count_le_variant [DecidableEq Event] {machine : Machine State Event} (event : Event)
    (variant : State → Nat)
    (kept : ∀ state other next, machine.Reachable state → machine.step state other = some next →
      variant next + (if other = event then 1 else 0) ≤ variant state)
    (events : List Event) {state final : State} (reached : machine.Reachable state)
    (executed : machine.execute state events = some final) : events.count event ≤ variant state := by
  induction events generalizing state with
  | nil => exact Nat.zero_le _
  | cons other rest ih =>
      cases taken : machine.step state other with
      | none => simp [execute, taken] at executed
      | some next =>
          simp only [execute, taken, Option.bind_some] at executed
          have remaining := ih (.step other reached trivial taken) executed
          have paid := kept state other next reached taken
          rw [List.count_cons]
          simp only [beq_iff_eq]
          omega

end KernelStudio.Transition
