/-
This file proves that no notification of the handshake is lost and that each follower copies the whole array,
as long as no follower sets the write guard before the leader has cleared it.
-/

import KernelStudio.Construction.SharedMemory.Handshake
import Mathlib.Tactic.Common

namespace KernelStudio.SharedMemory

open Transition

/-- The leader has cleared the write guard, or has failed before it could. -/
def LeaderPc.initialised : LeaderPc → Bool
  | .clearReadGuard | .waitWriteGuard | .rand _ | .memcpy _ | .setReadGuard | .waitDeleteGuard
  | .munmap | .shmUnlink | .close | .exited _ | .startFailed => true
  | _ => false

/-- The leader has taken the exit for a region that was not properly destroyed. -/
def LeaderPc.stale : LeaderPc → Bool
  | .munmapStale | .shmUnlinkStale | .closeStale | .exitedStale => true
  | _ => false

/-- The leader has set the read guard. -/
def LeaderPc.released : LeaderPc → Bool
  | .waitDeleteGuard | .munmap | .shmUnlink | .close | .exited _ => true
  | _ => false

/-- The leader has seen the delete guard. -/
def LeaderPc.leaving : LeaderPc → Bool
  | .munmap | .shmUnlink | .close | .exited _ => true
  | _ => false

/-- The number of words that the leader has drawn. -/
def LeaderPc.drawn : LeaderPc → Nat
  | .rand i => i
  | .memcpy _ | .setReadGuard | .waitDeleteGuard | .munmap | .shmUnlink | .close | .exited _ => sharedMemSize
  | _ => 0

/-- The number of words that the leader has written to the region. -/
def LeaderPc.written : LeaderPc → Nat
  | .memcpy i => i
  | .setReadGuard | .waitDeleteGuard | .munmap | .shmUnlink | .close | .exited _ => sharedMemSize
  | _ => 0

/-- The follower has set the write guard. -/
def FollowerPc.announced : FollowerPc → Bool
  | .waitReadGuard | .memcpy _ | .setDeleteGuard | .munmap | .close | .exited => true
  | _ => false

/-- The follower has passed its wait on the read guard. -/
def FollowerPc.reading : FollowerPc → Bool
  | .memcpy _ | .setDeleteGuard | .munmap | .close | .exited => true
  | _ => false

/-- The number of words that the follower has copied. -/
def FollowerPc.copied : FollowerPc → Nat
  | .memcpy i => i
  | .setDeleteGuard | .munmap | .close | .exited => sharedMemSize
  | _ => 0

/-- A follower has copied the last word. -/
def State.Copied (state : State) : Prop := ∃ i, sharedMemSize ≤ (state.follower i).pc.copied

theorem State.Copied.set {state : State} (copied : state.Copied) {i : Nat} {cur : Follower}
    (kept : sharedMemSize ≤ (state.follower i).pc.copied → sharedMemSize ≤ cur.pc.copied) :
    (state.set i cur).Copied := by
  obtain ⟨j, complete⟩ := copied
  refine ⟨j, ?_⟩
  by_cases same : j = i
  · subst same
    simpa [State.set] using kept complete
  · simpa [State.set, same] using complete

/-- The three guards follow the positions of the processes, and each copy is a prefix of the leader's array. -/
structure Handshake (rand : Nat → Int) (state : State) : Prop where
  silent : state.leader.pc.initialised = false → ∀ i, (state.follower i).pc.announced = false
  unwritten : state.leader.pc.initialised = false → state.region.writeGuard = 0
  notified : ∀ i, (state.follower i).pc.announced = true → state.region.writeGuard ≠ 0
  unreleased : state.leader.pc.released = false → state.region.readGuard = 0
  readers : ∀ i, (state.follower i).pc.reading = true → state.leader.pc.released = true
  deleted : state.region.deleteGuard ≠ 0 → state.Copied
  leaving : state.leader.pc.leaving = true → state.Copied
  fresh : state.leader.pc.stale = false
  array : ∀ k < state.leader.pc.drawn, state.leader.array k = rand k
  data : ∀ k < state.leader.pc.written, state.region.data k = rand k
  copies : ∀ i, ∀ k < (state.follower i).pc.copied, (state.follower i).array k = rand k

/-- A follower sets the write guard only after the leader has cleared it. -/
def announcesInTime (state : State) (event : Event) : Prop :=
  ∀ i, event = .follower i → (state.follower i).pc = .setWriteGuard → state.leader.pc.initialised = true

variable {rand : Nat → Int} {state next : State}

theorem handshake_initial : Handshake rand {} where
  silent _ _ := rfl
  unwritten _ := rfl
  notified _ announced := by simp [FollowerPc.announced] at announced
  unreleased _ := rfl
  readers _ reading := by simp [FollowerPc.reading] at reading
  deleted set := absurd rfl set
  leaving left := by simp [LeaderPc.leaving] at left
  fresh := rfl
  array k drawn := by simp [LeaderPc.drawn] at drawn
  data k written := by simp [LeaderPc.written] at written
  copies i k copied := by simp [FollowerPc.copied] at copied

theorem Handshake.rename (handshake : Handshake rand state) (name : ShmName) :
    Handshake rand { state with name } :=
  { handshake with }

/-- A leader that has drawn and written enough moves on behind the same guards. -/
theorem Handshake.lead (handshake : Handshake rand state) {pc : LeaderPc}
    (guards : (pc.initialised = false → state.leader.pc.initialised = false) ∧
      pc.released = state.leader.pc.released)
    (leaving : pc.leaving = true → state.Copied) (fresh : pc.stale = false)
    (drawn : pc.drawn ≤ state.leader.pc.drawn) (written : pc.written ≤ state.leader.pc.written) :
    Handshake rand (state.lead pc) where
  silent before := handshake.silent (guards.1 before)
  unwritten before := handshake.unwritten (guards.1 before)
  notified := handshake.notified
  unreleased := guards.2 ▸ handshake.unreleased
  readers := guards.2 ▸ handshake.readers
  deleted := handshake.deleted
  leaving := leaving
  fresh := fresh
  array k below := handshake.array k (Nat.lt_of_lt_of_le below drawn)
  data k below := handshake.data k (Nat.lt_of_lt_of_le below written)
  copies := handshake.copies

/-- Before the leader has cleared the write guard, each guard of the region is zero. -/
theorem Handshake.guards_clear (handshake : Handshake rand state)
    (before : state.leader.pc.initialised = false) (unreleased : state.leader.pc.released = false) :
    state.region.writeGuard = 0 ∧ state.region.readGuard = 0 ∧ state.region.deleteGuard = 0 := by
  refine ⟨handshake.unwritten before, handshake.unreleased unreleased, ?_⟩
  by_contra set
  obtain ⟨i, copied⟩ := handshake.deleted set
  have silent := handshake.silent before i
  cases position : (state.follower i).pc <;>
    simp [position, FollowerPc.copied, FollowerPc.announced, sharedMemSize] at copied silent

/-- The leader draws the next word of its array. -/
theorem Handshake.draw (handshake : Handshake rand state) {i : Nat} (position : state.leader.pc = .rand i) :
    Handshake rand { state with
      leader := { pc := .rand (i + 1), array := Function.update state.leader.array i (rand i) } } where
  silent before := by simp [LeaderPc.initialised] at before
  unwritten before := by simp [LeaderPc.initialised] at before
  notified := handshake.notified
  unreleased _ := handshake.unreleased (by rw [position]; rfl)
  readers j reading := by simpa [position, LeaderPc.released] using handshake.readers j reading
  deleted := handshake.deleted
  leaving left := by simp [LeaderPc.leaving] at left
  fresh := rfl
  array k drawn := by
    simp only [LeaderPc.drawn] at drawn
    by_cases last : k = i
    · simp [last]
    · simp only [Function.update_of_ne last]
      exact handshake.array k (by simp only [position, LeaderPc.drawn]; omega)
  data k written := by simp [LeaderPc.written] at written
  copies := handshake.copies

/-- The leader writes the next word of its complete array to the region. -/
theorem Handshake.write (handshake : Handshake rand state) {i : Nat} (position : state.leader.pc = .memcpy i)
    (inside : i < sharedMemSize) :
    Handshake rand { state.lead (.memcpy (i + 1)) with
      region := { state.region with data := Function.update state.region.data i (state.leader.array i) } } where
  silent before := by simp [State.lead, LeaderPc.initialised] at before
  unwritten before := by simp [State.lead, LeaderPc.initialised] at before
  notified := handshake.notified
  unreleased _ := handshake.unreleased (by rw [position]; rfl)
  readers j reading := by simpa [position, LeaderPc.released] using handshake.readers j reading
  deleted := handshake.deleted
  leaving left := by simp [State.lead, LeaderPc.leaving] at left
  fresh := rfl
  array k drawn := handshake.array k (by rw [position]; exact drawn)
  data k written := by
    simp only [State.lead, LeaderPc.written] at written
    by_cases last : k = i
    · subst last
      simpa using handshake.array k (by rw [position]; exact inside)
    · simp only [Function.update_of_ne last]
      exact handshake.data k (by simp only [position, LeaderPc.written]; omega)
  copies := handshake.copies

/-- Clearing a guard that is zero already changes nothing that the invariant reads. -/
theorem Handshake.clear (handshake : Handshake rand state) {region : Region}
    (guards : region.writeGuard = state.region.writeGuard ∧ region.readGuard = state.region.readGuard)
    (deleteGuard : region.deleteGuard = state.region.deleteGuard) (data : region.data = state.region.data) :
    Handshake rand { state with region } where
  silent := handshake.silent
  unwritten := guards.1 ▸ handshake.unwritten
  notified := guards.1 ▸ handshake.notified
  unreleased := guards.2 ▸ handshake.unreleased
  readers := handshake.readers
  deleted := deleteGuard ▸ handshake.deleted
  leaving := handshake.leaving
  fresh := handshake.fresh
  array := handshake.array
  data := data ▸ handshake.data
  copies := handshake.copies

/-- Once the write guard is cleared, a follower may set it. -/
theorem Handshake.initialise (handshake : Handshake rand state) (position : state.leader.pc = .clearWriteGuard) :
    Handshake rand (state.lead .clearReadGuard) where
  silent before := by simp [State.lead, LeaderPc.initialised] at before
  unwritten before := by simp [State.lead, LeaderPc.initialised] at before
  notified := handshake.notified
  unreleased _ := handshake.unreleased (by rw [position]; rfl)
  readers j reading := by simpa [position, LeaderPc.released] using handshake.readers j reading
  deleted := handshake.deleted
  leaving left := by simp [State.lead, LeaderPc.leaving] at left
  fresh := rfl
  array k drawn := by simp [State.lead, LeaderPc.drawn] at drawn
  data k written := by simp [State.lead, LeaderPc.written] at written
  copies := handshake.copies

/-- The read guard is set behind the last word of the data. -/
theorem Handshake.release (handshake : Handshake rand state) (position : state.leader.pc = .setReadGuard) :
    Handshake rand { state.lead .waitDeleteGuard with region := { state.region with readGuard := 1 } } where
  silent before := by simp [State.lead, LeaderPc.initialised] at before
  unwritten before := by simp [State.lead, LeaderPc.initialised] at before
  notified := handshake.notified
  unreleased before := by simp [State.lead, LeaderPc.released] at before
  readers _ _ := rfl
  deleted := handshake.deleted
  leaving left := by simp [State.lead, LeaderPc.leaving] at left
  fresh := rfl
  array k drawn := handshake.array k (by rw [position]; exact drawn)
  data k written := handshake.data k (by rw [position]; exact written)
  copies := handshake.copies

/-- One statement of the leader keeps the invariant. -/
theorem handshake_leader (handshake : Handshake rand state) (taken : state.leaderStep rand = some next) :
    Handshake rand next := by
  have clear := handshake.guards_clear
  have fresh := handshake.fresh
  have left := handshake.leaving
  cases position : state.leader.pc
  all_goals simp only [State.leaderStep, position, reduceCtorEq] at taken
  all_goals simp only [position, LeaderPc.initialised, LeaderPc.released, LeaderPc.stale, LeaderPc.leaving,
    forall_const, Bool.true_eq_false, Bool.false_eq_true] at clear fresh left
  all_goals obtain rfl := Option.some.inj taken
  case shmOpen | ftruncate =>
    refine (handshake.lead ?_ (by simp [LeaderPc.leaving]) rfl ?_ ?_).rename _
    all_goals simp [position, LeaderPc.initialised, LeaderPc.released, LeaderPc.drawn, LeaderPc.written]
  case mmap =>
    refine handshake.lead ?_ (by simp [LeaderPc.leaving]) rfl ?_ ?_
    all_goals simp [position, LeaderPc.initialised, LeaderPc.released, LeaderPc.drawn, LeaderPc.written]
  case testReadGuard | testWriteGuard | testDeleteGuard =>
    -- the guards are zero, so the leader does not take the stale exit
    simp only [clear, ne_eq, not_true_eq_false, if_false]
    refine handshake.lead ?_ (by simp [LeaderPc.leaving]) rfl ?_ ?_
    all_goals simp [position, LeaderPc.initialised, LeaderPc.released, LeaderPc.drawn, LeaderPc.written]
  case clearDeleteGuard =>
    refine (handshake.lead ?_ (by simp [LeaderPc.leaving]) rfl ?_ ?_).clear ⟨rfl, rfl⟩ clear.2.2.symm rfl
    all_goals simp [position, LeaderPc.initialised, LeaderPc.released, LeaderPc.drawn, LeaderPc.written]
  case clearWriteGuard => exact (handshake.initialise position).clear ⟨clear.1.symm, rfl⟩ rfl rfl
  case clearReadGuard =>
    have unreleased := handshake.unreleased (by rw [position]; rfl)
    refine (handshake.lead ?_ (by simp [LeaderPc.leaving]) rfl ?_ ?_).clear ⟨rfl, unreleased.symm⟩ rfl rfl
    all_goals simp [position, LeaderPc.initialised, LeaderPc.released, LeaderPc.drawn, LeaderPc.written]
  case waitWriteGuard =>
    split
    all_goals refine handshake.lead ?_ (by simp [LeaderPc.leaving]) rfl ?_ ?_
    all_goals simp [position, LeaderPc.initialised, LeaderPc.released, LeaderPc.drawn, LeaderPc.written]
  case rand i =>
    split
    · exact handshake.draw position
    · have ended : sharedMemSize ≤ i := Nat.le_of_not_lt ‹_›
      refine handshake.lead ?_ (by simp [LeaderPc.leaving]) rfl ?_ ?_
      all_goals simp [position, LeaderPc.initialised, LeaderPc.released, LeaderPc.drawn, LeaderPc.written, ended]
  case memcpy i =>
    split
    · exact handshake.write position ‹_›
    · have ended : sharedMemSize ≤ i := Nat.le_of_not_lt ‹_›
      refine handshake.lead ?_ (by simp [LeaderPc.leaving]) rfl ?_ ?_
      all_goals simp [position, LeaderPc.initialised, LeaderPc.released, LeaderPc.drawn, LeaderPc.written, ended]
  case setReadGuard => exact handshake.release position
  case waitDeleteGuard =>
    split
    · refine handshake.lead ?_ (by simp [LeaderPc.leaving]) rfl ?_ ?_
      all_goals simp [position, LeaderPc.initialised, LeaderPc.released, LeaderPc.drawn, LeaderPc.written]
    · refine handshake.lead ?_ (fun _ => handshake.deleted ‹_›) rfl ?_ ?_
      all_goals simp [position, LeaderPc.initialised, LeaderPc.released, LeaderPc.drawn, LeaderPc.written]
  case munmap | close =>
    refine handshake.lead ?_ (fun _ => left) rfl ?_ ?_
    all_goals simp [position, LeaderPc.initialised, LeaderPc.released, LeaderPc.drawn, LeaderPc.written]
  case shmUnlink =>
    refine (handshake.lead ?_ (fun _ => left) rfl ?_ ?_).rename _
    all_goals simp [position, LeaderPc.initialised, LeaderPc.released, LeaderPc.drawn, LeaderPc.written]

/-- A failed call of the leader keeps the invariant. -/
theorem handshake_leaderFails (handshake : Handshake rand state) (taken : state.leaderFails = some next) :
    Handshake rand next := by
  have left := handshake.leaving
  cases position : state.leader.pc
  all_goals simp only [State.leaderFails, position, reduceCtorEq, Option.some.injEq] at taken
  all_goals subst taken
  all_goals refine handshake.lead ?_ ?_ rfl ?_ ?_
  all_goals simp_all [LeaderPc.initialised, LeaderPc.released, LeaderPc.leaving, LeaderPc.drawn, LeaderPc.written]

/-- A follower moves on without a store to the region. -/
theorem Handshake.follow (handshake : Handshake rand state) {i : Nat} {cur : Follower}
    (announced : cur.pc.announced = true → (state.follower i).pc.announced = true)
    (reading : cur.pc.reading = true → state.leader.pc.released = true)
    (kept : sharedMemSize ≤ (state.follower i).pc.copied → sharedMemSize ≤ cur.pc.copied)
    (copies : ∀ k < cur.pc.copied, cur.array k = rand k) :
    Handshake rand (state.set i cur) where
  silent before j := by
    by_cases same : j = i
    · subst same
      have silent := handshake.silent before j
      simp only [State.set, Function.update_self]
      by_contra other
      simp [announced (by simpa using other)] at silent
    · simpa [State.set, same] using handshake.silent before j
  unwritten := handshake.unwritten
  notified j known := by
    by_cases same : j = i
    · subst same
      exact handshake.notified j (announced (by simpa [State.set] using known))
    · exact handshake.notified j (by simpa [State.set, same] using known)
  unreleased := handshake.unreleased
  readers j known := by
    by_cases same : j = i
    · subst same
      exact reading (by simpa [State.set] using known)
    · exact handshake.readers j (by simpa [State.set, same] using known)
  deleted set := (handshake.deleted set).set kept
  leaving left := (handshake.leaving left).set kept
  fresh := handshake.fresh
  array := handshake.array
  data := handshake.data
  copies j k copied := by
    by_cases same : j = i
    · subst same
      simp only [State.set, Function.update_self] at copied ⊢
      exact copies k copied
    · simp only [State.set, Function.update_of_ne same] at copied ⊢
      exact handshake.copies j k copied

/-- A follower announces itself to a leader that has cleared the write guard. -/
theorem Handshake.announce (handshake : Handshake rand state) (initialised : state.leader.pc.initialised = true) :
    Handshake rand { state with region := { state.region with writeGuard := 1 } } where
  silent := handshake.silent
  unwritten before := absurd (initialised.symm.trans before) (by decide)
  notified _ _ := Int.one_ne_zero
  unreleased := handshake.unreleased
  readers := handshake.readers
  deleted := handshake.deleted
  leaving := handshake.leaving
  fresh := handshake.fresh
  array := handshake.array
  data := handshake.data
  copies := handshake.copies

/-- A follower that waits for the read guard has announced itself. -/
theorem Handshake.await (handshake : Handshake rand state) {i : Nat}
    (initialised : state.leader.pc.initialised = true)
    (written : state.region.writeGuard ≠ 0) (position : (state.follower i).pc = .setWriteGuard) :
    Handshake rand (state.set i { state.follower i with pc := .waitReadGuard }) where
  silent before := absurd (initialised.symm.trans before) (by decide)
  unwritten before := absurd (initialised.symm.trans before) (by decide)
  notified _ _ := written
  unreleased := handshake.unreleased
  readers j known := by
    by_cases same : j = i
    · simp [State.set, same, FollowerPc.reading] at known
    · exact handshake.readers j (by simpa [State.set, same] using known)
  deleted set := (handshake.deleted set).set (by simp [position, FollowerPc.copied])
  leaving left := (handshake.leaving left).set (by simp [position, FollowerPc.copied])
  fresh := handshake.fresh
  array := handshake.array
  data := handshake.data
  copies j k copied := by
    by_cases same : j = i
    · simp [State.set, same, FollowerPc.copied] at copied
    · simp only [State.set, Function.update_of_ne same] at copied ⊢
      exact handshake.copies j k copied

/-- A follower that has copied the last word sets the delete guard. -/
theorem Handshake.finish (handshake : Handshake rand state) (copied : state.Copied) :
    Handshake rand { state with region := { state.region with deleteGuard := 1 } } where
  silent := handshake.silent
  unwritten := handshake.unwritten
  notified := handshake.notified
  unreleased := handshake.unreleased
  readers := handshake.readers
  deleted _ := copied
  leaving := handshake.leaving
  fresh := handshake.fresh
  array := handshake.array
  data := handshake.data
  copies := handshake.copies

/-- Behind the read guard, the region holds the whole array. -/
theorem Handshake.complete (handshake : Handshake rand state) (released : state.leader.pc.released = true) {k : Nat}
    (inside : k < sharedMemSize) : state.region.data k = rand k := by
  refine handshake.data k ?_
  cases position : state.leader.pc <;> simp_all [LeaderPc.released, LeaderPc.written]

/-- One statement of a follower keeps the invariant. -/
theorem handshake_follower (handshake : Handshake rand state) {i : Nat}
    (inTime : announcesInTime state (.follower i)) (taken : state.followerStep i = some next) :
    Handshake rand next := by
  have reader := handshake.readers i
  have copies := handshake.copies i
  cases position : (state.follower i).pc
  all_goals simp only [State.followerStep, position, reduceCtorEq, Option.some.injEq] at taken
  all_goals
    simp only [position, FollowerPc.reading, FollowerPc.copied, forall_const, Bool.false_eq_true] at reader copies
  all_goals subst taken
  case shmOpen =>
    split
    all_goals exact handshake.follow nofun nofun (by simp [position, FollowerPc.copied]) (by simp [FollowerPc.copied])
  case mmap =>
    exact handshake.follow nofun nofun (by simp [position, FollowerPc.copied]) (by simp [FollowerPc.copied])
  case setWriteGuard =>
    split
    · exact handshake.follow nofun nofun (by simp [position, FollowerPc.copied]) (by simp [FollowerPc.copied])
    · have initialised := inTime i rfl position
      exact (handshake.announce initialised).await initialised Int.one_ne_zero position
  case waitReadGuard =>
    split
    · refine handshake.follow (fun _ => by rw [position]; rfl) nofun ?_ ?_ <;> simp [position, FollowerPc.copied]
    · rename_i set
      refine handshake.follow (fun _ => by rw [position]; rfl) (fun _ => ?_) ?_ ?_
      · by_contra unreleased
        exact set (handshake.unreleased (by simpa using unreleased))
      · simp [position, FollowerPc.copied]
      · simp [FollowerPc.copied]
  case memcpy k =>
    split
    · rename_i inside
      refine handshake.follow (fun _ => by rw [position]; rfl) (fun _ => reader) ?_ fun m copied => ?_
      · simpa [position, FollowerPc.copied] using Nat.le_succ_of_le
      · simp only [FollowerPc.copied] at copied
        by_cases last : m = k
        · subst last
          simpa using handshake.complete reader inside
        · simp only [Function.update_of_ne last]
          exact copies m (by omega)
    · rename_i ended
      refine handshake.follow (fun _ => by rw [position]; rfl) (fun _ => reader) ?_ fun m copied => ?_
      · simp [FollowerPc.copied]
      · exact copies m (by simp only [FollowerPc.copied] at copied; omega)
  case setDeleteGuard =>
    have moved : Handshake rand (state.set i { state.follower i with pc := .munmap }) :=
      handshake.follow (fun _ => by rw [position]; rfl) (fun _ => reader)
        (by simp [position, FollowerPc.copied]) (by simpa [FollowerPc.copied] using copies)
    exact moved.finish ⟨i, by simp [State.set, FollowerPc.copied]⟩
  case munmap | close =>
    refine handshake.follow (fun _ => by rw [position]; rfl) (fun _ => reader) ?_ ?_
    · simp [position, FollowerPc.copied]
    · simpa [FollowerPc.copied] using copies

/-- A failed call of a follower keeps the invariant. -/
theorem handshake_followerFails (handshake : Handshake rand state) {i : Nat}
    (taken : state.followerFails i = some next) :
    Handshake rand next := by
  cases position : (state.follower i).pc
  all_goals simp only [State.followerFails, position, reduceCtorEq, Option.some.injEq] at taken
  all_goals subst taken
  all_goals exact handshake.follow nofun nofun (by simp [position, FollowerPc.copied]) (by simp [FollowerPc.copied])

/-- The invariant holds in each run in which the followers announce themselves in time. -/
theorem handshake_reached (reached : (handshake rand).Reaches announcesInTime state) : Handshake rand state := by
  refine reached.invariant (Handshake rand) ?_ ?_
  · rintro _ rfl
    exact handshake_initial
  · intro state event next _ before inTime taken
    cases event with
    | leader => exact handshake_leader before taken
    | leaderFails => exact handshake_leaderFails before taken
    | follower i => exact handshake_follower before inTime taken
    | followerFails i => exact handshake_followerFails before taken

/-- While each follower announces itself in time, a leader never takes the exit for a stale region, it never
clears the guard of a waiting follower, and the two never wait for each other. -/
theorem notifications_kept (rand : Nat → Int) {state : State}
    (reached : (handshake rand).Reaches announcesInTime state) :
    (∀ i, (state.follower i).pc.announced = true →
      state.leader.pc.stale = false ∧ state.region.writeGuard ≠ 0) ∧
    ¬ (state.leader.pc = .waitWriteGuard ∧ state.region.writeGuard = 0 ∧
      ∃ i, (state.follower i).pc = .waitReadGuard ∧ state.region.readGuard = 0) := by
  have handshake := handshake_reached reached
  refine ⟨fun i announced => ⟨handshake.fresh, handshake.notified i announced⟩, ?_⟩
  rintro ⟨_, cleared, i, waiting, _⟩
  exact handshake.notified i (by rw [waiting]; rfl) cleared

instance (state : State) (event : Event) : Decidable (announcesInTime state event) :=
  match event with
  | .follower i => decidable_of_iff ((state.follower i).pc = .setWriteGuard → state.leader.pc.initialised = true)
      ⟨fun inTime _ same => Event.follower.inj same ▸ inTime, fun inTime => inTime i rfl⟩
  | .leader | .leaderFails | .followerFails _ => isTrue nofun

/-- The leader initialises the region and then one follower announces itself. -/
def inTimeEvents : List Event :=
  List.replicate 9 .leader ++ List.replicate 3 (.follower 0)

/-- The leader sees the guard of the follower. -/
theorem notifications_kept_one : ∃ state : State, (state.follower 0).pc = .waitReadGuard ∧
    state.leader.pc.stale = false ∧ state.region.writeGuard ≠ 0 := by
  have initial : (handshake fun _ => 7).start {} := rfl
  have admitted : (handshake fun _ => 7).admits announcesInTime {} inTimeEvents = true := by decide
  have executed : ((handshake fun _ => 7).execute {} inTimeEvents).map (fun state => (state.follower 0).pc) =
      some .waitReadGuard := by decide
  obtain ⟨state, reached, position⟩ := Machine.admits_shows initial inTimeEvents admitted _ executed
  exact ⟨state, position, (notifications_kept _ reached).1 0 (by rw [position]; rfl)⟩

/-- A follower announces itself before the leader tests the guards. -/
def beforeTestEvents : List Event :=
  List.replicate 3 .leader ++ List.replicate 3 (.follower 0) ++ List.replicate 2 .leader

/-- A follower announces itself between the tests of the guards and their initialisation. -/
def betweenEvents : List Event :=
  List.replicate 6 .leader ++ List.replicate 3 (.follower 0) ++ List.replicate 3 .leader

/-- An early follower sends the leader to the stale exit, or the two wait for each other. -/
theorem notification_lost :
    (∃ state, (handshake fun _ => 7).Reachable state ∧ (state.follower 0).pc.announced = true ∧
      state.leader.pc.stale = true) ∧
    ∃ state, (handshake fun _ => 7).Reachable state ∧
      state.leader.pc = .waitWriteGuard ∧ state.region.writeGuard = 0 ∧
      (state.follower 0).pc = .waitReadGuard ∧ state.region.readGuard = 0 := by
  have initial : (handshake fun _ => 7).start {} := rfl
  have stale : ((handshake fun _ => 7).execute {} beforeTestEvents).map
      (fun state => ((state.follower 0).pc.announced, state.leader.pc.stale)) = some (true, true) := by decide
  have blocked : ((handshake fun _ => 7).execute {} betweenEvents).map
      (fun state => (state.leader.pc, state.region.writeGuard, (state.follower 0).pc, state.region.readGuard)) =
      some (.waitWriteGuard, 0, .waitReadGuard, 0) := by decide
  obtain ⟨first, reachedFirst, shownFirst⟩ := Machine.execute_shows initial beforeTestEvents _ stale
  obtain ⟨second, reachedSecond, shownSecond⟩ := Machine.execute_shows initial betweenEvents _ blocked
  simp only [Prod.mk.injEq] at shownFirst shownSecond
  exact ⟨⟨first, reachedFirst, shownFirst⟩, second, reachedSecond, shownSecond⟩

/-- The leader has taken the exit for a stale region or has cleared the guard of a waiting follower. -/
def State.Lost (state : State) (i : Nat) : Prop :=
  state.leader.pc.stale = true ∨
    (state.leader.pc = .clearReadGuard ∧ state.region.writeGuard = 0 ∧ (state.follower i).pc = .waitReadGuard)

/-- The leader alone goes on until the notification is lost. -/
def State.Doomed (rand : Nat → Int) (state : State) (i : Nat) : Prop :=
  ∃ count final, (handshake rand).execute state (List.replicate count .leader) = some final ∧ final.Lost i

theorem State.Lost.doomed {i : Nat} (lost : state.Lost i) : state.Doomed rand i := ⟨0, state, rfl, lost⟩

theorem State.doomed_step {i : Nat} (taken : state.leaderStep rand = some next) (doomed : next.Doomed rand i) :
    state.Doomed rand i := by
  obtain ⟨count, final, executed, lost⟩ := doomed
  refine ⟨count + 1, final, ?_, lost⟩
  simpa [List.replicate_succ, Machine.execute, handshake, State.step, taken] using executed

/-- A test of a guard leads to the stale exit or to the next statement. -/
theorem State.doomed_test {i : Nat} (guard : Int) (onward : LeaderPc)
    (taken : state.leaderStep rand = some (state.lead (if guard ≠ 0 then .munmapStale else onward)))
    (doomed : (state.lead onward).Doomed rand i) : state.Doomed rand i := by
  refine State.doomed_step taken ?_
  split
  · exact State.Lost.doomed (.inl rfl)
  · exact doomed

/-- A notification that comes before the leader has cleared the write guard is lost. -/
theorem early_notification_lost {i : Nat} (waiting : (state.follower i).pc = .waitReadGuard)
    (early : state.leader.pc.initialised = false) : state.Doomed rand i := by
  -- the chain is followed backwards from the statement that clears the write guard
  have clearWrite (cur : State) (waits : (cur.follower i).pc = .waitReadGuard)
      (position : cur.leader.pc = .clearWriteGuard) : cur.Doomed rand i := by
    have taken : cur.leaderStep rand = some { cur.lead .clearReadGuard with
      region := { cur.region with writeGuard := 0 } } := by simp only [State.leaderStep, position]
    exact State.doomed_step taken (State.Lost.doomed (.inr ⟨rfl, rfl, waits⟩))
  have clearDelete (cur : State) (waits : (cur.follower i).pc = .waitReadGuard)
      (position : cur.leader.pc = .clearDeleteGuard) : cur.Doomed rand i := by
    have taken : cur.leaderStep rand = some { cur.lead .clearWriteGuard with
      region := { cur.region with deleteGuard := 0 } } := by simp only [State.leaderStep, position]
    exact State.doomed_step taken (clearWrite _ waits rfl)
  have testDelete (cur : State) (waits : (cur.follower i).pc = .waitReadGuard)
      (position : cur.leader.pc = .testDeleteGuard) : cur.Doomed rand i :=
    State.doomed_test cur.region.deleteGuard .clearDeleteGuard (by simp only [State.leaderStep, position])
      (clearDelete _ waits rfl)
  have testWrite (cur : State) (waits : (cur.follower i).pc = .waitReadGuard)
      (position : cur.leader.pc = .testWriteGuard) : cur.Doomed rand i :=
    State.doomed_test cur.region.writeGuard .testDeleteGuard (by simp only [State.leaderStep, position])
      (testDelete _ waits rfl)
  have testRead (cur : State) (waits : (cur.follower i).pc = .waitReadGuard)
      (position : cur.leader.pc = .testReadGuard) : cur.Doomed rand i :=
    State.doomed_test cur.region.readGuard .testWriteGuard (by simp only [State.leaderStep, position])
      (testWrite _ waits rfl)
  have map (cur : State) (waits : (cur.follower i).pc = .waitReadGuard)
      (position : cur.leader.pc = .mmap) : cur.Doomed rand i := by
    have taken : cur.leaderStep rand = some (cur.lead .testReadGuard) := by simp only [State.leaderStep, position]
    exact State.doomed_step taken (testRead _ waits rfl)
  have truncate (cur : State) (waits : (cur.follower i).pc = .waitReadGuard)
      (position : cur.leader.pc = .ftruncate) : cur.Doomed rand i := by
    have taken : cur.leaderStep rand = some { cur.lead .mmap with name := .sized } := by
      simp only [State.leaderStep, position]
    exact State.doomed_step taken (map _ waits rfl)
  cases position : state.leader.pc
  all_goals simp only [position, LeaderPc.initialised, Bool.true_eq_false] at early
  case shmOpen =>
    have taken : state.leaderStep rand = some { state.lead .ftruncate with
      name := if state.name = .absent ∨ state.name = .unlinked then .empty else state.name } := by
      simp only [State.leaderStep, position]
    exact State.doomed_step taken (truncate _ waiting rfl)
  case ftruncate => exact truncate _ waiting position
  case mmap => exact map _ waiting position
  case testReadGuard => exact testRead _ waiting position
  case testWriteGuard => exact testWrite _ waiting position
  case testDeleteGuard => exact testDelete _ waiting position
  case clearDeleteGuard => exact clearDelete _ waiting position
  case clearWriteGuard => exact clearWrite _ waiting position
  all_goals exact State.Lost.doomed (.inl (by rw [position]; rfl))

/-- The leader has unmapped the region. -/
def LeaderPc.unmapped : LeaderPc → Bool
  | .shmUnlink | .close | .exited _ | .shmUnlinkStale | .closeStale | .exitedStale => true
  | _ => false

/-- The leader has removed the name of the region. -/
def LeaderPc.unlinked : LeaderPc → Bool
  | .close | .exited _ | .closeStale | .exitedStale => true
  | _ => false

/-- The leader never takes back the removal of the name. -/
theorem step_leader {event : Event} (taken : state.step rand event = some next)
    (own : event = .leader ∨ event = .leaderFails)
    (kept : state.name = .unlinked → state.leader.pc.unlinked = true) :
    next.name = .unlinked → next.leader.pc.unlinked = true := by
  revert kept
  rcases own with rfl | rfl
  all_goals cases position : state.leader.pc
  all_goals simp only [State.step, State.leaderStep, State.leaderFails, position, reduceCtorEq,
    Option.some.injEq] at taken
  all_goals subst taken
  all_goals first
    | (split <;> simp [State.lead, LeaderPc.unlinked])
    | simp [State.lead, LeaderPc.unlinked]

/-- A follower moves neither the leader nor the name. -/
theorem step_follower {event : Event} {i : Nat} (taken : state.step rand event = some next)
    (own : event = .follower i ∨ event = .followerFails i) :
    next.leader = state.leader ∧ next.name = state.name := by
  rcases own with rfl | rfl
  all_goals cases position : (state.follower i).pc
  all_goals simp only [State.step, State.followerStep, State.followerFails, position, reduceCtorEq,
    Option.some.injEq] at taken
  all_goals try split at taken
  all_goals subst taken
  all_goals exact ⟨rfl, rfl⟩

/-- Only a leader behind `shm_unlink` has removed the name. -/
theorem unlinked_reached {guard : Guard State Event} (reached : (handshake rand).Reaches guard state) :
    state.name = .unlinked → state.leader.pc.unlinked = true := by
  refine reached.invariant (fun state => state.name = .unlinked → state.leader.pc.unlinked = true) ?_ ?_
  · rintro _ rfl unlinked
    contradiction
  · intro state event next _ before _ taken
    have leads (own : event = .leader ∨ event = .leaderFails) :
        next.name = .unlinked → next.leader.pc.unlinked = true := step_leader taken own before
    have follows (j : Nat) (own : event = .follower j ∨ event = .followerFails j) :
        next.name = .unlinked → next.leader.pc.unlinked = true := by
      obtain ⟨leader, name⟩ := step_follower taken own
      rwa [leader, name]
    cases event with
    | leader => exact leads (.inl rfl)
    | leaderFails => exact leads (.inr rfl)
    | follower j => exact follows j (.inl rfl)
    | followerFails j => exact follows j (.inr rfl)

/-- Each follower that has passed its wait copies the complete array of the leader, and the leader unmaps and
unlinks the region only after a follower has copied the last word. A follower that attaches after the initialisation
announces itself in time, and so does one that opens the region before it and writes later. -/
theorem array_copied (rand : Nat → Int) {state : State} (reached : (handshake rand).Reaches announcesInTime state) :
    (∀ i, (state.follower i).pc.reading = true → ∀ k < sharedMemSize, state.leader.array k = rand k ∧
      (k < (state.follower i).pc.copied → (state.follower i).array k = state.leader.array k)) ∧
    (state.leader.pc.unmapped = true ∨ state.name = .unlinked → state.Copied) := by
  have handshake := handshake_reached reached
  have unlinked := unlinked_reached reached
  have fresh := handshake.fresh
  have leaving := handshake.leaving
  constructor
  · intro i reading k inside
    have released := handshake.readers i reading
    have drawn : state.leader.array k = rand k := by
      refine handshake.array k ?_
      cases position : state.leader.pc <;> simp_all [LeaderPc.released, LeaderPc.drawn]
    refine ⟨drawn, fun copied => ?_⟩
    rw [drawn]
    exact handshake.copies i k copied
  · intro gone
    refine leaving ?_
    cases position : state.leader.pc <;>
      simp_all [LeaderPc.unmapped, LeaderPc.unlinked, LeaderPc.stale, LeaderPc.leaving]

/-- The follower opens the region early, maps it when it is initialised, copies all ten words and lets the leader go. -/
def lateEvents : List Event :=
  List.replicate 2 .leader ++ [.follower 0] ++ List.replicate 7 .leader ++ List.replicate 2 (.follower 0) ++
    List.replicate 24 .leader ++ List.replicate 13 (.follower 0) ++ List.replicate 3 .leader

/-- The last word arrives and the region is unlinked. -/
theorem array_copied_one : ∃ state : State, sharedMemSize ≤ (state.follower 0).pc.copied ∧
    state.name = .unlinked ∧ (state.follower 0).array 9 = state.leader.array 9 ∧ state.Copied := by
  have initial : (handshake fun i => i).start {} := rfl
  have admitted : (handshake fun i => i).admits announcesInTime {} lateEvents = true := by decide
  have executed : ((handshake fun i => i).execute {} lateEvents).map
      (fun state => ((state.follower 0).pc, state.name)) = some (.munmap, .unlinked) := by decide
  obtain ⟨state, reached, shown⟩ := Machine.admits_shows initial lateEvents admitted _ executed
  simp only [Prod.mk.injEq] at shown
  obtain ⟨copies, unlinked⟩ := array_copied _ reached
  refine ⟨state, by rw [shown.1]; decide, shown.2, ?_, unlinked (.inr shown.2)⟩
  exact (copies 0 (by rw [shown.1]; rfl) 9 (by decide)).2 (by rw [shown.1]; decide)

end KernelStudio.SharedMemory
