/-
This file models the leader and the followers of the shared-memory studio.
Each label executes one statement of one process, so a run is any interleaving of their single-word accesses.
-/

import KernelStudio.Library.Transition
import Mathlib.Logic.Function.Basic

namespace KernelStudio.SharedMemory

open Transition

/-- The constant `SHARED_MEM_SIZE`. -/
def sharedMemSize : Nat := 10

/-- This is `datatype`, which the kernel hands out filled with zeros. -/
structure Region where
  writeGuard : Int := 0
  readGuard : Int := 0
  deleteGuard : Int := 0
  data : Nat → Int := fun _ => 0

/-- The object behind `SHM_NAME`. It has no length before `ftruncate` and no name after `shm_unlink`. -/
inductive ShmName where
  | absent
  | empty
  | sized
  | unlinked
  deriving DecidableEq

/-- Each constructor names the next statement of the leader.
The statements that end in `Stale` belong to the exit for a region that was not properly destroyed. -/
inductive LeaderPc where
  | shmOpen
  | ftruncate
  | mmap
  | testReadGuard
  | testWriteGuard
  | testDeleteGuard
  | munmapStale
  | shmUnlinkStale
  | closeStale
  | exitedStale
  | clearDeleteGuard
  | clearWriteGuard
  | clearReadGuard
  | waitWriteGuard
  | rand (i : Nat)
  | memcpy (i : Nat)
  | setReadGuard
  | waitDeleteGuard
  | munmap
  | shmUnlink
  | close
  | exited (status : Int)
  | startFailed
  deriving DecidableEq

/-- Each constructor names the next statement of a follower. -/
inductive FollowerPc where
  | shmOpen
  | mmap
  | setWriteGuard
  | waitReadGuard
  | memcpy (i : Nat)
  | setDeleteGuard
  | munmap
  | close
  | exited
  | startFailed
  deriving DecidableEq

structure Leader where
  pc : LeaderPc := .shmOpen
  array : Nat → Int := fun _ => 0

structure Follower where
  pc : FollowerPc := .shmOpen
  array : Nat → Int := fun _ => 0

structure State where
  name : ShmName := .absent
  region : Region := {}
  leader : Leader := {}
  follower : Nat → Follower := fun _ => {}

def State.lead (state : State) (pc : LeaderPc) : State :=
  { state with leader := { state.leader with pc } }

def State.set (state : State) (i : Nat) (cur : Follower) : State :=
  { state with follower := Function.update state.follower i cur }

/-- One statement of the leader, whose array is filled with the values of `rand()`. -/
def State.leaderStep (rand : Nat → Int) (state : State) : Option State :=
  let region := state.region
  match state.leader.pc with
  | .shmOpen => some { state.lead .ftruncate with
      name := if state.name = .absent ∨ state.name = .unlinked then .empty else state.name }
  | .ftruncate => some { state.lead .mmap with name := .sized }
  | .mmap => some (state.lead .testReadGuard)
  | .testReadGuard => some (state.lead (if region.readGuard ≠ 0 then .munmapStale else .testWriteGuard))
  | .testWriteGuard => some (state.lead (if region.writeGuard ≠ 0 then .munmapStale else .testDeleteGuard))
  | .testDeleteGuard => some (state.lead (if region.deleteGuard ≠ 0 then .munmapStale else .clearDeleteGuard))
  | .munmapStale => some (state.lead .shmUnlinkStale)
  | .shmUnlinkStale => some { state.lead .closeStale with name := .unlinked }
  | .closeStale => some (state.lead .exitedStale)
  -- the chained assignment stores from right to left
  | .clearDeleteGuard => some { state.lead .clearWriteGuard with region := { region with deleteGuard := 0 } }
  | .clearWriteGuard => some { state.lead .clearReadGuard with region := { region with writeGuard := 0 } }
  | .clearReadGuard => some { state.lead .waitWriteGuard with region := { region with readGuard := 0 } }
  | .waitWriteGuard => some (state.lead (if region.writeGuard = 0 then .waitWriteGuard else .rand 0))
  | .rand i => some (if i < sharedMemSize then
      { state with leader := { pc := .rand (i + 1), array := Function.update state.leader.array i (rand i) } }
      else state.lead (.memcpy 0))
  | .memcpy i => some (if i < sharedMemSize then
      { state.lead (.memcpy (i + 1)) with
        region := { region with data := Function.update region.data i (state.leader.array i) } }
      else state.lead .setReadGuard)
  | .setReadGuard => some { state.lead .waitDeleteGuard with region := { region with readGuard := 1 } }
  | .waitDeleteGuard => some (state.lead (if region.deleteGuard = 0 then .waitDeleteGuard else .munmap))
  | .munmap => some (state.lead .shmUnlink)
  | .shmUnlink => some { state.lead .close with name := .unlinked }
  | .close => some (state.lead (.exited 0))
  | .exited _ | .exitedStale | .startFailed => none

/-- A call of the leader fails, and the leader exits. -/
def State.leaderFails (state : State) : Option State :=
  match state.leader.pc with
  | .shmOpen | .ftruncate | .mmap => some (state.lead .startFailed)
  | .close => some (state.lead (.exited (-1)))
  | _ => none

/-- One statement of a follower. -/
def State.followerStep (state : State) (i : Nat) : Option State :=
  let cur := state.follower i
  let region := state.region
  match cur.pc with
  | .shmOpen => some (state.set i { cur with
      pc := if state.name = .absent ∨ state.name = .unlinked then .startFailed else .mmap })
  | .mmap => some (state.set i { cur with pc := .setWriteGuard })
  -- a store behind the end of the object kills the process
  | .setWriteGuard => some (if state.name = .empty then state.set i { cur with pc := .startFailed }
      else { state.set i { cur with pc := .waitReadGuard } with region := { region with writeGuard := 1 } })
  | .waitReadGuard => some (state.set i { cur with
      pc := if region.readGuard = 0 then .waitReadGuard else .memcpy 0 })
  | .memcpy k => some (state.set i (if k < sharedMemSize then
      { pc := .memcpy (k + 1), array := Function.update cur.array k (region.data k) }
      else { cur with pc := .setDeleteGuard }))
  | .setDeleteGuard => some { state.set i { cur with pc := .munmap } with
      region := { region with deleteGuard := 1 } }
  | .munmap => some (state.set i { cur with pc := .close })
  | .close => some (state.set i { cur with pc := .exited })
  | .exited | .startFailed => none

/-- A call of a follower fails, and the follower exits. -/
def State.followerFails (state : State) (i : Nat) : Option State :=
  match (state.follower i).pc with
  | .shmOpen | .mmap => some (state.set i { state.follower i with pc := .startFailed })
  | _ => none

/-- The scheduler chooses any process. -/
inductive Event where
  | leader
  | leaderFails
  | follower (i : Nat)
  | followerFails (i : Nat)
  deriving DecidableEq

def State.step (rand : Nat → Int) (state : State) : Event → Option State
  | .leader => state.leaderStep rand
  | .leaderFails => state.leaderFails
  | .follower i => state.followerStep i
  | .followerFails i => state.followerFails i

/-- This machine starts without a shared region, one leader and any number of followers. -/
def handshake (rand : Nat → Int) : Machine State Event where
  start state := state = {}
  step := State.step rand

end KernelStudio.SharedMemory
