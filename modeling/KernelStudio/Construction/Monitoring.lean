/-
This file models the monitor of two memory groups, which waits with `epoll` for the events that the kernel counts when
a group has run out of memory.
-/

import KernelStudio.Library.Transition
import Mathlib.Data.List.Basic
import Mathlib.Logic.Function.Basic

namespace KernelStudio.Monitoring

open Transition

def maxEvents : Nat := 10

/-- The two memory groups. -/
inductive Child where
  | child1
  | child2
  deriving DecidableEq

/-- Each constructor names the next statement of `main`. The position `handle` holds the events of the array that the
loop over `n` has not read, and `epollCtlDel` the child whose line was printed. -/
inductive Pc where
  | eventfd (child : Child)
  | openHandler (child : Child)
  | openInterface (child : Child)
  | write (child : Child)
  | epollCreate
  | epollCtlAdd (child : Child)
  | epollWait
  | handle (events : List Nat)
  | epollCtlDel (child : Child) (events : List Nat)
  | returned
  deriving DecidableEq

inductive Line where
  | oom (child : Child)
  | unrecognized
  | error
  deriving DecidableEq

/-- The variables of `main` with what the kernel keeps for the groups and for its descriptors: the groups that count
into an event descriptor, the counters and the interest list. The `data` of an entry of this list is its descriptor. -/
structure State where
  pc : Pc := .eventfd .child1
  efd : Child → Nat := fun _ => 0
  /-- The file of the handler was opened. -/
  handler : Child → Bool := fun _ => false
  /-- The file of the notification interface was opened. -/
  interface : Child → Bool := fun _ => false
  registered : Child → Bool := fun _ => false
  /-- The group is out of memory at the moment. -/
  underOom : Child → Bool := fun _ => false
  /-- How often the group has run out of memory, counted anew when it is registered. Nothing reads this field. -/
  outOfMemory : Child → Nat := fun _ => 0
  counter : Nat → Nat := fun _ => 0
  interest : List Nat := []
  log : List Line := []

/-- The labels of the monitor and of the groups, which run out of memory and get memory back at any time, whether they
are registered or not. The kernel chooses the results of the calls, and an event descriptor is a number that the process
does not use. -/
inductive Event where
  | eventfd (fd : Nat)
  | call
  | fails
  | oom (child : Child)
  | relieved (child : Child)
  | epollWait (events : List Nat)
  | loop
  deriving DecidableEq

/-- The descriptors of the interest list that have counted an event. -/
def State.ready (state : State) : List Nat := state.interest.filter fun fd => 0 < state.counter fd

/-- What `epoll_wait` returns: the ready descriptors, each one once and up to the size of the array. -/
def State.Waits (state : State) (events : List Nat) : Prop :=
  events ≠ [] ∧ events.Nodup ∧ (∀ fd ∈ events, fd ∈ state.ready) ∧ events.length = min maxEvents state.ready.length

instance (state : State) (events : List Nat) : Decidable (state.Waits events) :=
  inferInstanceAs (Decidable (_ ∧ _ ∧ _ ∧ _))

/-- An event of the group is added to its counter, if the group was registered. -/
def State.count (state : State) (child : Child) : State :=
  if state.registered child then
    let fd := state.efd child
    { state with counter := Function.update state.counter fd (state.counter fd + 1) }
  else state

/-- The kernel registers a group whose files were opened, and counts an event for one that is out of memory already. -/
def State.register (state : State) (child : Child) : State :=
  let registered := Function.update state.registered child (state.handler child && state.interface child)
  let outOfMemory := Function.update state.outOfMemory child (if state.underOom child then 1 else 0)
  let written : State := { state with registered, outOfMemory }
  if state.underOom child then written.count child else written

/-- The result of a call before the loop. The paths are not tested, and the write takes effect for files that were
opened. -/
def State.call (state : State) : Option State :=
  match state.pc with
  | .openHandler child => some { state with
      pc := .openInterface child, handler := Function.update state.handler child true }
  | .openInterface child => some { state with
      pc := match child with | .child1 => .openHandler .child2 | .child2 => .write .child1
      interface := Function.update state.interface child true }
  | .write child => some { state.register child with
      pc := match child with | .child1 => .write .child2 | .child2 => .epollCreate }
  | .epollCreate => some { state with pc := .epollCtlAdd .child1 }
  | .epollCtlAdd child => some { state with
      pc := match child with | .child1 => .epollCtlAdd .child2 | .child2 => .epollWait
      interest := state.efd child :: state.interest }
  | .eventfd _ | .epollWait | .handle _ | .epollCtlDel .. | .returned => none

/-- A failed call ends the program, except for the calls of `open` and `write`, whose results are not tested. -/
def State.fails (state : State) : Option State :=
  match state.pc with
  | .openHandler child => some { state with pc := .openInterface child }
  | .openInterface child => some { state with
      pc := match child with | .child1 => .openHandler .child2 | .child2 => .write .child1 }
  | .write child => some { state with pc := match child with | .child1 => .write .child2 | .child2 => .epollCreate }
  | .eventfd _ | .epollCreate | .epollCtlAdd _ | .epollWait =>
      some { state with pc := .returned, log := state.log ++ [.error] }
  | .handle _ | .epollCtlDel .. | .returned => none

/-- One statement of the loop over the events. The removal fails for a descriptor that is not in the interest list. -/
def State.loop (state : State) : Option State :=
  match state.pc with
  | .handle [] => some { state with pc := .epollWait }
  | .handle (fd :: events) =>
      if fd = state.efd .child1 then
        some { state with pc := .epollCtlDel .child1 events, log := state.log ++ [.oom .child1] }
      else if fd = state.efd .child2 then
        some { state with pc := .epollCtlDel .child2 events, log := state.log ++ [.oom .child2] }
      else some { state with pc := .handle events, log := state.log ++ [.unrecognized] }
  | .epollCtlDel child events =>
      if state.efd child ∈ state.interest then
        some { state with pc := .handle events, interest := state.interest.erase (state.efd child) }
      else some { state with pc := .returned, log := state.log ++ [.error] }
  | _ => none

/-- One step of the monitor or of the kernel. -/
def State.step (state : State) : Event → Option State
  | .eventfd fd => match state.pc with
      | .eventfd .child1 => some { state with pc := .eventfd .child2, efd := Function.update state.efd .child1 fd }
      | .eventfd .child2 => if fd ≠ state.efd .child1 then
          some { state with pc := .openHandler .child1, efd := Function.update state.efd .child2 fd } else none
      | _ => none
  | .call => state.call
  | .fails => state.fails
  | .oom child => some { state.count child with
      underOom := Function.update state.underOom child true
      outOfMemory := Function.update state.outOfMemory child (state.outOfMemory child + 1) }
  | .relieved child => some { state with underOom := Function.update state.underOom child false }
  | .epollWait events => if state.pc = .epollWait ∧ state.Waits events then
      some { state with pc := .handle events } else none
  | .loop => state.loop

def monitoring : Machine State Event where
  start state := state = {}
  step := State.step

end KernelStudio.Monitoring
