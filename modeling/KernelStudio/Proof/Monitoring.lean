/-
This file proves that the monitor reports each registered group that runs out of memory, once and without a false
report.
-/

import KernelStudio.Construction.Monitoring
import Mathlib.Data.List.Perm.Subperm

namespace KernelStudio.Monitoring

open Transition

variable {state next : State} {child : Child} {event : Event}

/-- The descriptors of both groups were created. -/
def Pc.numbered : Pc → Bool
  | .eventfd _ | .returned => false
  | _ => true

/-- The descriptor of the group was added to the interest list. -/
def Pc.added : Pc → Child → Bool
  | .epollCtlAdd .child2, .child1 => true
  | .epollWait, _ | .handle _, _ | .epollCtlDel .., _ => true
  | _, _ => false

/-- The events of the array that were not handled yet. -/
def Pc.events : Pc → List Nat
  | .handle events | .epollCtlDel _ events => events
  | _ => []

@[simp] theorem pc_count : (state.count child).pc = state.pc := by
  unfold State.count
  split <;> rfl

@[simp] theorem efd_count : (state.count child).efd = state.efd := by
  unfold State.count
  split <;> rfl

@[simp] theorem registered_count : (state.count child).registered = state.registered := by
  unfold State.count
  split <;> rfl

@[simp] theorem outOfMemory_count : (state.count child).outOfMemory = state.outOfMemory := by
  unfold State.count
  split <;> rfl

@[simp] theorem interest_count : (state.count child).interest = state.interest := by
  unfold State.count
  split <;> rfl

@[simp] theorem log_count : (state.count child).log = state.log := by
  unfold State.count
  split <;> rfl

/-- A counted event adds one to the descriptor of its group. -/
theorem counter_count (fd : Nat) : (state.count child).counter fd =
    state.counter fd + if state.registered child = true ∧ fd = state.efd child then 1 else 0 := by
  unfold State.count
  split
  · next known =>
    simp only [Function.update_apply, known, true_and]
    split
    · next same => rw [same]
    · rfl
  · next unknown => simp [unknown]

@[simp] theorem efd_register : (state.register child).efd = state.efd := by
  unfold State.register
  split <;> simp

@[simp] theorem interest_register : (state.register child).interest = state.interest := by
  unfold State.register
  split <;> simp

@[simp] theorem log_register : (state.register child).log = state.log := by
  unfold State.register
  split <;> simp

@[simp] theorem registered_register : (state.register child).registered =
    Function.update state.registered child (state.handler child && state.interface child) := by
  unfold State.register
  split <;> simp

@[simp] theorem outOfMemory_register : (state.register child).outOfMemory =
    Function.update state.outOfMemory child (if state.underOom child then 1 else 0) := by
  unfold State.register
  split <;> simp

/-- The registration counts an event for a group that is out of memory. -/
theorem counter_register (fd : Nat) : (state.register child).counter fd = state.counter fd +
    if (state.register child).registered child = true ∧ state.underOom child = true ∧ fd = state.efd child then 1
    else 0 := by
  unfold State.register
  split
  · next out => simp [counter_count, out]
  · next calm => simp [calm]

/-- The monitor has a line for each group at most, and the interest list holds the groups without a line. -/
structure Watching (state : State) : Prop where
  distinct : state.pc.numbered = true → state.efd .child1 ≠ state.efd .child2
  plain : .unrecognized ∉ state.log
  once : ∀ child, state.log.count (.oom child) ≤ 1
  counted : ∀ child, .oom child ∈ state.log → 0 < state.counter (state.efd child)
  known : ∀ fd ∈ state.interest, ∃ child, fd = state.efd child
  nodup : state.interest.Nodup
  silent : ∀ child, state.pc.added child = false → state.pc ≠ .returned →
    .oom child ∉ state.log ∧ state.efd child ∉ state.interest
  listed : ∀ child, state.pc.added child = true →
    (state.efd child ∈ state.interest ↔ .oom child ∉ state.log ∨ ∃ events, state.pc = .epollCtlDel child events)
  handling : ∀ child events, state.pc = .epollCtlDel child events → .oom child ∈ state.log
  batch : state.pc.events.Nodup ∧
    ∀ fd ∈ state.pc.events, ∃ child, fd = state.efd child ∧ .oom child ∉ state.log ∧ 0 < state.counter fd

theorem watching_initial : Watching {} := by
  constructor <;> simp [Pc.numbered, Pc.events, Pc.added]

/-- A statement in front of the loop that adds nothing to the interest list and prints nothing. -/
theorem Watching.prepare (watching : Watching state) (efd : next.efd = state.efd)
    (counter : ∀ fd, state.counter fd ≤ next.counter fd) (interest : next.interest = state.interest)
    (log : next.log = state.log)
    (numbered : state.pc.numbered = true) (before : ∀ child, state.pc.added child = false) (alive : state.pc ≠ .returned)
    (after : ∀ child, next.pc.added child = false) (events : next.pc.events = []) : Watching next := by
  obtain ⟨distinct, plain, once, counted, known, nodup, silent, listed, handling, batch⟩ := watching
  refine ⟨fun _ => efd ▸ distinct numbered, log ▸ plain, log ▸ once, ?_, ?_, interest ▸ nodup, ?_, ?_, ?_, ?_⟩
  · rw [log, efd]
    exact fun child reported => Nat.lt_of_lt_of_le (counted child reported) (counter _)
  · rw [interest, efd]
    exact known
  · intro child _ _
    rw [log, interest, efd]
    exact silent child (before child) alive
  · intro child now
    simp [after child] at now
  · intro child others position
    have now := after child
    simp [position, Pc.added] at now
  · rw [events]
    exact ⟨List.nodup_nil, nofun⟩

/-- The groups have different descriptors. -/
theorem Watching.efd_inj (watching : Watching state) (numbered : state.pc.numbered = true) {other : Child}
    (same : state.efd child = state.efd other) : child = other := by
  have distinct := watching.distinct numbered
  cases child <;> cases other <;> first | rfl | exact absurd same distinct | exact absurd same.symm distinct

/-- A group is added to the interest list. -/
theorem Watching.add (watching : Watching state) {pc : Pc} (numbered : state.pc.numbered = true)
    (fresh : state.pc.added child = false) (alive : state.pc ≠ .returned) (added : pc.added child = true)
    (others : ∀ other ≠ child, pc.added other = state.pc.added other) (events : pc.events = [])
    (calm : ∀ other events, pc ≠ .epollCtlDel other events) (still : ∀ other events, state.pc ≠ .epollCtlDel other events) :
    Watching { state with pc, interest := state.efd child :: state.interest } where
  distinct _ := watching.distinct numbered
  plain := watching.plain
  once := watching.once
  counted := watching.counted
  known fd inside := by
    rcases List.mem_cons.mp inside with rfl | before
    · exact ⟨child, rfl⟩
    · exact watching.known fd before
  nodup := List.nodup_cons.mpr ⟨(watching.silent child fresh alive).2, watching.nodup⟩
  silent other absent _ := by
    have different : other ≠ child := fun same => by simp [same, added] at absent
    obtain ⟨quiet, outside⟩ := watching.silent other (others other different ▸ absent) alive
    refine ⟨quiet, fun inside => ?_⟩
    rcases List.mem_cons.mp inside with same | before
    · exact different (watching.efd_inj numbered same)
    · exact outside before
  listed other now := by
    by_cases same : other = child
    · subst same
      exact ⟨fun _ => .inl (watching.silent other fresh alive).1, fun _ => List.mem_cons_self⟩
    · have before := watching.listed other (others other same ▸ now)
      simp only [List.mem_cons, before, still, calm, exists_false, or_false]
      exact or_iff_right fun equal => same (watching.efd_inj numbered equal)
  handling other rest position := absurd position (calm other rest)
  batch := by
    rw [events]
    exact ⟨List.nodup_nil, nofun⟩

theorem watching_call (watching : Watching state) (taken : state.call = some next) : Watching next := by
  cases position : state.pc with
  | eventfd child | epollWait | handle events | epollCtlDel child events | returned =>
      simp [State.call, position] at taken
  | openHandler child | openInterface child =>
      simp only [State.call, position, Option.some.injEq] at taken
      subst taken
      refine watching.prepare rfl (fun _ => Nat.le_refl _) rfl rfl (position ▸ rfl) (by simp [position, Pc.added])
        (by simp [position]) ?_ ?_
      all_goals cases child <;> simp [Pc.added, Pc.events]
  | write child =>
      simp only [State.call, position, Option.some.injEq] at taken
      subst taken
      refine watching.prepare efd_register (fun fd => ?_) interest_register log_register (position ▸ rfl)
        (by simp [position, Pc.added]) (by simp [position]) ?_ ?_
      · exact counter_register fd ▸ Nat.le_add_right _ _
      all_goals cases child <;> simp [Pc.added, Pc.events]
  | epollCreate =>
      simp only [State.call, position, Option.some.injEq] at taken
      subst taken
      refine watching.prepare rfl (fun _ => Nat.le_refl _) rfl rfl (position ▸ rfl) (by simp [position, Pc.added])
        (by simp [position]) ?_ ?_
      all_goals simp [Pc.added, Pc.events]
  | epollCtlAdd child =>
      simp only [State.call, position, Option.some.injEq] at taken
      subst taken
      cases child with
      | child1 =>
          refine watching.add (position ▸ rfl) (position ▸ rfl) (by simp [position]) rfl (fun other different => ?_) rfl
            nofun (by simp [position])
          cases other with
          | child1 => exact absurd rfl different
          | child2 => rw [position]; rfl
      | child2 =>
          refine watching.add (position ▸ rfl) (position ▸ rfl) (by simp [position]) rfl (fun other different => ?_) rfl
            nofun (by simp [position])
          cases other with
          | child1 => rw [position]; rfl
          | child2 => exact absurd rfl different

/-- A failed call in front of the loop or in it ends the monitor with an error. -/
theorem Watching.leave (watching : Watching state) :
    Watching { state with pc := .returned, log := state.log ++ [.error] } where
  distinct numbered := by simp [Pc.numbered] at numbered
  plain := by simpa using watching.plain
  once child := by simpa [List.count_append] using watching.once child
  counted child reported := watching.counted child (by simpa using reported)
  known := watching.known
  nodup := watching.nodup
  silent _ _ alive := absurd rfl alive
  listed _ now := by simp [Pc.added] at now
  handling := nofun
  batch := ⟨List.nodup_nil, nofun⟩

theorem watching_fails (watching : Watching state) (taken : state.fails = some next) : Watching next := by
  cases position : state.pc with
  | handle events | epollCtlDel child events | returned => simp [State.fails, position] at taken
  | openHandler child | openInterface child | write child =>
      simp only [State.fails, position, Option.some.injEq] at taken
      subst taken
      refine watching.prepare rfl (fun _ => Nat.le_refl _) rfl rfl (position ▸ rfl) (by simp [position, Pc.added])
        (by simp [position]) ?_ ?_
      all_goals cases child <;> simp [Pc.added, Pc.events]
  | eventfd child | epollCreate | epollCtlAdd child | epollWait =>
      simp only [State.fails, position, Option.some.injEq] at taken
      subst taken
      exact watching.leave

/-- The monitor waits, or goes on with a batch of ready descriptors. -/
theorem Watching.turn (watching : Watching state) {pc : Pc} (numbered : state.pc.numbered = true)
    (before : ∀ child, state.pc.added child = true) (after : ∀ child, pc.added child = true)
    (calm : ∀ other events, pc ≠ .epollCtlDel other events) (still : ∀ other events, state.pc ≠ .epollCtlDel other events)
    (batch : pc.events.Nodup ∧ ∀ fd ∈ pc.events, ∃ child, fd = state.efd child ∧ .oom child ∉ state.log ∧
      0 < state.counter fd) : Watching { state with pc } where
  distinct _ := watching.distinct numbered
  plain := watching.plain
  once := watching.once
  counted := watching.counted
  known := watching.known
  nodup := watching.nodup
  silent child absent := by simp [after child] at absent
  listed child _ := by
    have same := watching.listed child (before child)
    simpa only [still, calm, exists_false, or_false] using same
  handling other events position := absurd position (calm other events)
  batch := batch

/-- The line of a group is printed in front of the removal of its descriptor. -/
theorem Watching.report (watching : Watching state) {events : List Nat}
    (position : state.pc = .handle (state.efd child :: events)) :
    Watching { state with pc := .epollCtlDel child events, log := state.log ++ [.oom child] } := by
  have numbered : state.pc.numbered = true := position ▸ rfl
  have added (other : Child) : state.pc.added other = true := position ▸ rfl
  obtain ⟨nodup, batch⟩ := watching.batch
  rw [position] at nodup batch
  simp only [Pc.events, List.nodup_cons, List.mem_cons, forall_eq_or_imp] at nodup batch
  obtain ⟨⟨owner, same, fresh, counted⟩, rest⟩ := batch
  have mine : child = owner := watching.efd_inj numbered same
  subst mine
  have still : ∀ other events, state.pc ≠ .epollCtlDel other events := by simp [position]
  exact
    { distinct := fun _ => watching.distinct numbered
      plain := by simpa using watching.plain
      once := by
        intro other
        by_cases equal : child = other
        · subst equal
          simp [List.count_append, List.count_eq_zero.mpr fresh]
        · simpa [List.count_append, equal] using watching.once other
      counted := by
        intro other reported
        rcases List.mem_append.mp reported with before | now
        · exact watching.counted other before
        · have equal : other = child := by simpa using now
          exact equal ▸ counted
      known := watching.known
      nodup := watching.nodup
      silent := by simp [Pc.added]
      listed := by
        intro other _
        have before := watching.listed other (added other)
        simp only [still, exists_false, or_false] at before
        rw [before]
        by_cases equal : child = other
        · subst equal
          simp [fresh]
        · have different : other ≠ child := fun back => equal back.symm
          simp [different, equal]
      handling := by
        intro other others now
        simp only [Pc.epollCtlDel.injEq] at now
        simp [now.1]
      batch := by
        refine ⟨nodup.2, fun fd inside => ?_⟩
        obtain ⟨other, equal, quiet, some⟩ := rest fd inside
        refine ⟨other, equal, fun reported => ?_, some⟩
        rcases List.mem_append.mp reported with earlier | now
        · exact quiet earlier
        · have same : other = child := by simpa using now
          exact nodup.1 (same ▸ equal ▸ inside) }

/-- The removal of a reported descriptor succeeds. -/
theorem Watching.remove (watching : Watching state) {events : List Nat} (position : state.pc = .epollCtlDel child events) :
    state.efd child ∈ state.interest ∧
      Watching { state with pc := .handle events, interest := state.interest.erase (state.efd child) } := by
  have numbered : state.pc.numbered = true := position ▸ rfl
  have added (other : Child) : state.pc.added other = true := position ▸ rfl
  have reported := watching.handling child events position
  refine ⟨(watching.listed child (added child)).mpr (.inr ⟨events, position⟩), ?_⟩
  exact
    { distinct := fun _ => watching.distinct numbered
      plain := watching.plain
      once := watching.once
      counted := watching.counted
      known := fun fd inside => watching.known fd (List.mem_of_mem_erase inside)
      nodup := watching.nodup.erase _
      silent := by simp [Pc.added]
      listed := by
        intro other _
        have before := watching.listed other (added other)
        rw [watching.nodup.mem_erase_iff, before]
        by_cases equal : other = child
        · subst equal
          simp [reported]
        · have different : state.efd other ≠ state.efd child := fun same => equal (watching.efd_inj numbered same)
          have apart : child ≠ other := fun back => equal back.symm
          simp [different, position, apart]
      handling := nofun
      batch := by
        have batch := watching.batch
        rwa [position] at batch }

/-- The loop finds the group of a descriptor. -/
theorem Watching.loop_report (watching : Watching state) {events : List Nat}
    (position : state.pc = .handle (state.efd child :: events)) :
    state.loop = some { state with pc := .epollCtlDel child events, log := state.log ++ [.oom child] } := by
  have distinct := watching.distinct (position ▸ rfl)
  cases child with
  | child1 => simp only [State.loop, position, if_true]
  | child2 => simp only [State.loop, position, if_neg distinct.symm, if_true]

theorem Watching.loop_remove (watching : Watching state) {events : List Nat}
    (position : state.pc = .epollCtlDel child events) :
    state.loop = some { state with pc := .handle events, interest := state.interest.erase (state.efd child) } := by
  simp only [State.loop, position, if_pos (watching.remove position).1]

theorem watching_loop (watching : Watching state) (taken : state.loop = some next) : Watching next := by
  cases position : state.pc with
  | handle events =>
      cases events with
      | nil =>
          simp only [State.loop, position, Option.some.injEq] at taken
          subst taken
          exact watching.turn (position ▸ rfl) (fun _ => position ▸ rfl) (fun _ => rfl) nofun (by simp [position])
            ⟨List.nodup_nil, nofun⟩
      | cons fd events =>
          have batch := watching.batch.2 fd (by rw [position]; exact List.mem_cons_self)
          obtain ⟨child, rfl, _⟩ := batch
          rw [watching.loop_report position, Option.some.injEq] at taken
          exact taken ▸ watching.report position
  | epollCtlDel child events =>
      rw [watching.loop_remove position, Option.some.injEq] at taken
      exact taken ▸ (watching.remove position).2
  | _ => simp [State.loop, position] at taken

/-- The descriptors are created in front of the first use of the interest list. -/
theorem Watching.number (watching : Watching state) {efd : Child → Nat} {pc : Pc}
    (before : ∀ child, state.pc.added child = false) (alive : state.pc ≠ .returned)
    (distinct : pc.numbered = true → efd .child1 ≠ efd .child2) (after : ∀ child, pc.added child = false)
    (events : pc.events = []) : Watching { state with pc, efd } := by
  have empty : state.interest = [] := by
    refine List.eq_nil_iff_forall_not_mem.mpr fun fd inside => ?_
    obtain ⟨child, rfl⟩ := watching.known fd inside
    exact (watching.silent child (before child) alive).2 inside
  have silent (child : Child) := (watching.silent child (before child) alive).1
  exact
    { distinct
      plain := watching.plain
      once := watching.once
      counted := fun child reported => absurd reported (silent child)
      known := by simp [empty]
      nodup := watching.nodup
      silent := fun child _ _ => ⟨silent child, by simp [empty]⟩
      listed := fun child now => by simp [after child] at now
      handling := fun child others position => by
        have same : pc = .epollCtlDel child others := position
        have now := after child
        simp [same, Pc.added] at now
      batch := by
        rw [events]
        exact ⟨List.nodup_nil, nofun⟩ }

/-- An event of a group leaves the monitor as it is. -/
theorem Watching.count (watching : Watching state) (pc : next.pc = state.pc) (efd : next.efd = state.efd)
    (interest : next.interest = state.interest) (log : next.log = state.log)
    (more : ∀ fd, state.counter fd ≤ next.counter fd) : Watching next := by
  obtain ⟨distinct, plain, once, counted, known, nodup, silent, listed, handling, batch⟩ := watching
  constructor <;> rw [pc] at * <;> simp only [efd, interest, log]
  case distinct => exact distinct
  case plain => exact plain
  case once => exact once
  case counted => exact fun child reported => Nat.lt_of_lt_of_le (counted child reported) (more _)
  case known => exact known
  case nodup => exact nodup
  case silent => exact silent
  case listed => exact listed
  case handling => exact handling
  case batch =>
    refine ⟨batch.1, fun fd inside => ?_⟩
    obtain ⟨child, same, quiet, some⟩ := batch.2 fd inside
    exact ⟨child, same, quiet, Nat.lt_of_lt_of_le some (more fd)⟩

theorem watching_step (watching : Watching state) (taken : state.step event = some next) : Watching next := by
  cases event with
  | eventfd fd =>
      simp only [State.step] at taken
      split at taken
      · next position =>
          cases taken
          exact watching.number (by simp [position, Pc.added]) (by simp [position]) nofun (fun _ => rfl) rfl
      · next position =>
          obtain ⟨fresh, same⟩ := Option.ite_none_right_eq_some.mp taken
          cases same
          refine watching.number (by simp [position, Pc.added]) (by simp [position]) (fun _ => ?_) (fun _ => rfl) rfl
          simpa using fresh.symm
      · cases taken
  | call => exact watching_call watching taken
  | fails => exact watching_fails watching taken
  | oom child =>
      simp only [State.step, Option.some.injEq] at taken
      subst taken
      refine watching.count pc_count efd_count interest_count log_count fun fd => ?_
      exact counter_count fd ▸ Nat.le_add_right _ _
  | relieved child =>
      simp only [State.step, Option.some.injEq] at taken
      subst taken
      exact watching.count rfl rfl rfl rfl fun fd => Nat.le_refl _
  | epollWait events =>
      obtain ⟨⟨position, _, nodup, ready, _⟩, same⟩ := Option.ite_none_right_eq_some.mp taken
      cases same
      refine watching.turn (position ▸ rfl) (fun _ => position ▸ rfl) (fun _ => rfl) nofun (by simp [position])
        ⟨nodup, fun fd inside => ?_⟩
      obtain ⟨listed, some⟩ := List.mem_filter.mp (ready fd inside)
      obtain ⟨child, rfl⟩ := watching.known fd listed
      refine ⟨child, rfl, ?_, of_decide_eq_true some⟩
      simpa [position] using (watching.listed child (position ▸ rfl)).mp listed
  | loop => exact watching_loop watching taken

theorem watching_reached (reached : monitoring.Reachable state) : Watching state := by
  refine reached.invariant Watching ?_ fun _ _ _ _ watching _ taken => watching_step watching taken
  rintro _ rfl
  exact watching_initial

/-- The statements of the loop handle the whole batch. -/
theorem loop_run (events : List Nat) (watching : Watching state) (position : state.pc = .handle events) :
    ∃ final, monitoring.execute state (List.replicate (2 * events.length + 1) .loop) = some final ∧
      final.pc = .epollWait ∧ state.log ⊆ final.log ∧
        ∀ child, state.efd child ∈ events → .oom child ∈ final.log := by
  induction events generalizing state with
  | nil =>
      refine ⟨{ state with pc := .epollWait }, ?_, rfl, fun _ known => known, nofun⟩
      simp [Machine.execute, monitoring, State.step, State.loop, position]
  | cons fd events ih =>
      obtain ⟨child, rfl, _⟩ := watching.batch.2 fd (by rw [position]; exact List.mem_cons_self)
      have after := watching.report position
      have removed := (after.remove rfl).2
      obtain ⟨final, executed, waits, kept, reported⟩ := ih removed rfl
      refine ⟨final, ?_, waits, fun line known => kept (List.mem_append_left _ known), fun other inside => ?_⟩
      · rw [List.length_cons, Nat.mul_add, Nat.add_right_comm, List.replicate_succ, List.replicate_succ]
        simp only [Machine.execute, monitoring, State.step, watching.loop_report position, after.loop_remove rfl,
          Option.bind_some]
        exact executed
      · rcases List.mem_cons.mp inside with same | later
        · have equal : other = child := watching.efd_inj (position ▸ rfl) same
          exact kept (by simp [equal])
        · exact reported other later

/-- There are two ready descriptors at most, so the array holds all of them. -/
theorem Watching.waits_perm (watching : Watching state) {events : List Nat} (waits : state.Waits events) :
    List.Perm events state.ready := by
  obtain ⟨_, nodup, ready, length⟩ := waits
  have few : state.ready.length ≤ 2 := by
    have inside : state.ready ⊆ [state.efd .child1, state.efd .child2] := by
      intro fd known
      obtain ⟨child, rfl⟩ := watching.known fd (List.mem_filter.mp known).1
      cases child <;> simp
    exact (List.Nodup.subperm (watching.nodup.filter _) inside).length_le
  have whole : state.ready.length ≤ events.length := by
    unfold maxEvents at length
    omega
  exact (nodup.subperm ready).perm_of_length_le whole

/-- The write for the group has not been made. -/
def Pc.unwritten : Pc → Child → Bool
  | .eventfd _, _ | .openHandler _, _ | .openInterface _, _ | .write .child1, _ => true
  | .write .child2, child => child = .child2
  | _, _ => false

/-- The counter of a registered group is how often it has run out of memory, and that of another group is zero. -/
structure Counting (state : State) : Prop where
  unwritten : ∀ child, state.pc.unwritten child = true → state.registered child = false
  apart : ∀ child, state.registered child = true → state.efd .child1 ≠ state.efd .child2
  counter : ∀ child,
    state.counter (state.efd child) = if state.registered child then state.outOfMemory child else 0
  untouched : (∃ child, state.pc = .eventfd child) → ∀ fd, state.counter fd = 0

theorem counting_initial : Counting {} := by
  constructor <;> simp

/-- A statement that neither creates a descriptor nor registers a group. -/
theorem Counting.keep (counting : Counting state) (efd : next.efd = state.efd)
    (registered : next.registered = state.registered) (counter : next.counter = state.counter)
    (outOfMemory : next.outOfMemory = state.outOfMemory)
    (unwritten : ∀ child, next.pc.unwritten child = true → state.pc.unwritten child = true)
    (numbered : ∀ child, next.pc = .eventfd child → state.pc = .eventfd child) : Counting next where
  unwritten child early := by
    rw [registered]
    exact counting.unwritten child (unwritten child early)
  apart child known := by
    rw [efd]
    exact counting.apart child (registered ▸ known)
  counter := by
    rw [efd, registered, counter, outOfMemory]
    exact counting.counter
  untouched := by
    rintro ⟨child, early⟩
    rw [counter]
    exact counting.untouched ⟨child, numbered child early⟩

/-- The groups with a counter have different descriptors. -/
theorem Counting.efd_eq_iff (counting : Counting state) {other : Child} (known : state.registered child = true) :
    state.efd other = state.efd child ↔ other = child := by
  have apart := counting.apart child known
  cases child <;> cases other <;> simp [apart, apart.symm]

/-- The write for a group registers it with the counter that its new count says. -/
theorem Counting.register (counting : Counting state) (distinct : state.efd .child1 ≠ state.efd .child2)
    (position : state.pc = .write child) {pc : Pc}
    (after : ∀ other, pc.unwritten other = true → other ≠ child ∧ state.pc.unwritten other = true)
    (numbered : ∀ other, pc ≠ .eventfd other) : Counting { state.register child with pc } where
  unwritten other early := by
    obtain ⟨different, before⟩ := after other early
    simpa [different] using counting.unwritten other before
  apart _ _ := by simpa using distinct
  counter other := by
    have before : state.registered child = false := counting.unwritten child (by rw [position]; cases child <;> rfl)
    have counted := counting.counter other
    have same : state.efd other = state.efd child ↔ other = child := by
      cases child <;> cases other <;> simp [distinct, distinct.symm]
    simp only [efd_register, counter_register, registered_register, outOfMemory_register, same]
    by_cases own : other = child
    · subst own
      simp only [before, Bool.false_eq_true, if_false] at counted
      simp only [counted, Function.update_self, and_true, Nat.zero_add]
      cases (state.handler other && state.interface other) <;> cases state.underOom other <;> rfl
    · simpa [own] using counted
  untouched := by
    rintro ⟨other, early⟩
    exact absurd early (numbered other)

theorem counting_call (counting : Counting state) (watching : Watching state) (taken : state.call = some next) :
    Counting next := by
  cases position : state.pc with
  | eventfd child | epollWait | handle events | epollCtlDel child events | returned =>
      simp [State.call, position] at taken
  | openHandler child | openInterface child =>
      simp only [State.call, position, Option.some.injEq] at taken
      subst taken
      refine counting.keep rfl rfl rfl rfl ?_ ?_ <;> cases child <;> simp [position, Pc.unwritten]
  | write child =>
      simp only [State.call, position, Option.some.injEq] at taken
      subst taken
      refine counting.register (watching.distinct (position ▸ rfl)) position ?_ ?_ <;>
        cases child <;> simp [position, Pc.unwritten]
  | epollCreate =>
      simp only [State.call, position, Option.some.injEq] at taken
      subst taken
      exact counting.keep rfl rfl rfl rfl nofun nofun
  | epollCtlAdd child =>
      simp only [State.call, position, Option.some.injEq] at taken
      subst taken
      refine counting.keep rfl rfl rfl rfl ?_ ?_ <;> cases child <;> simp [Pc.unwritten]

theorem counting_fails (counting : Counting state) (taken : state.fails = some next) : Counting next := by
  cases position : state.pc with
  | handle events | epollCtlDel child events | returned => simp [State.fails, position] at taken
  | openHandler child | openInterface child | write child =>
      simp only [State.fails, position, Option.some.injEq] at taken
      subst taken
      refine counting.keep rfl rfl rfl rfl ?_ ?_ <;> cases child <;> simp [position, Pc.unwritten]
  | eventfd child | epollCreate | epollCtlAdd child | epollWait =>
      simp only [State.fails, position, Option.some.injEq] at taken
      subst taken
      exact counting.keep rfl rfl rfl rfl nofun nofun

theorem counting_loop (counting : Counting state) (taken : state.loop = some next) : Counting next := by
  unfold State.loop at taken
  split at taken
  · cases taken
    exact counting.keep rfl rfl rfl rfl nofun nofun
  · split at taken
    · cases taken
      exact counting.keep rfl rfl rfl rfl nofun nofun
    · split at taken <;> cases taken <;> exact counting.keep rfl rfl rfl rfl nofun nofun
  · split at taken <;> cases taken <;> exact counting.keep rfl rfl rfl rfl nofun nofun
  · cases taken

/-- A new descriptor has counted nothing. -/
theorem Counting.number (counting : Counting state) (position : state.pc = .eventfd child) (efd : Child → Nat)
    (pc : Pc) : Counting { state with pc, efd } := by
  have unregistered (other : Child) : state.registered other = false :=
    counting.unwritten other (by rw [position]; rfl)
  have untouched := counting.untouched ⟨child, position⟩
  exact
    { unwritten := fun other _ => unregistered other
      apart := fun other known => by simp [unregistered other] at known
      counter := fun other => by simp [unregistered other, untouched]
      untouched := fun _ => untouched }

theorem counting_step (counting : Counting state) (watching : Watching state) (taken : state.step event = some next) :
    Counting next := by
  cases event with
  | eventfd fd =>
      simp only [State.step] at taken
      split at taken
      · next position =>
          cases taken
          exact counting.number position _ _
      · next position =>
          cases (Option.ite_none_right_eq_some.mp taken).2
          exact counting.number position _ _
      · cases taken
  | call => exact counting_call counting watching taken
  | fails => exact counting_fails counting taken
  | oom child =>
      simp only [State.step, Option.some.injEq] at taken
      subst taken
      constructor <;> simp only [pc_count, efd_count, registered_count]
      case unwritten => exact counting.unwritten
      case apart => exact counting.apart
      case counter =>
        intro other
        rw [counter_count, counting.counter other]
        cases known : state.registered child with
        | false =>
            by_cases own : other = child
            · simp [own, known]
            · simp [own]
        | true =>
            simp only [true_and, counting.efd_eq_iff known]
            by_cases own : other = child
            · simp [own, known]
            · simp [own]
      case untouched =>
        rintro ⟨other, early⟩ fd
        have unregistered := counting.unwritten child (by rw [early]; rfl)
        simp [counter_count, unregistered, counting.untouched ⟨other, early⟩]
  | relieved child =>
      simp only [State.step, Option.some.injEq] at taken
      subst taken
      exact counting.keep rfl rfl rfl rfl (fun _ => id) fun _ => id
  | epollWait events =>
      cases (Option.ite_none_right_eq_some.mp taken).2
      exact counting.keep rfl rfl rfl rfl nofun nofun
  | loop => exact counting_loop counting taken

theorem counting_reached (reached : monitoring.Reachable state) : Counting state := by
  refine reached.invariant Counting ?_ fun _ _ _ before counting _ taken =>
    counting_step counting (watching_reached before) taken
  rintro _ rfl
  exact counting_initial

/-- Both groups run out of memory, the first one before its registration, the second one after the report of the first
one. -/
def monitoringEvents : List Event :=
  [.eventfd 3, .oom .child1, .eventfd 4] ++ List.replicate 9 .call ++
    [.epollWait [3], .oom .child2, .loop, .loop, .loop]

end KernelStudio.Monitoring
