/-
This file models the inotify watcher: the table of watched paths, the loop over the events of a read and the
kernel, which hands out watch descriptors and writes events into the buffer. An access outside an array is a
fault, with which the run ends.
-/

import KernelStudio.Library.Framing
import KernelStudio.Library.Records
import KernelStudio.Library.Transition
import Mathlib.Logic.Function.Basic

namespace KernelStudio.Inotify

open Transition

/-- The constant `BUF_LEN`. -/
def bufLen : Nat := 1024

/-- The number of entries of `wds`. -/
def wdsLen : Nat := 256

/-- The size of the array `path`. -/
def pathLen : Nat := 256

/-- The constant `num_expected_args`. -/
def numExpectedArgs : Nat := 2

/-- The constant `IN_CREATE`. -/
def inCreate : BitVec 32 := 0x100

/-- The size of `struct inotify_event` without the name. -/
def eventSize : Nat := 16

/-- The string `"/"`. -/
def slash : List UInt8 := [47]

/-- The structure `map_wd_path`. A string stands for its bytes in front of the first zero. -/
structure MapWdPath where
  wd : Int
  path : List UInt8
  deriving DecidableEq

/-- The structure `inotify_event` without the name. -/
structure InotifyEvent where
  wd : BitVec 32
  mask : BitVec 32
  cookie : BitVec 32
  len : BitVec 32
  deriving DecidableEq

/-- An event with its name, as the kernel has it. -/
structure Notice extends InotifyEvent where
  name : List UInt8
  deriving DecidableEq

def InotifyEvent.Creates (event : InotifyEvent) : Prop := event.mask &&& inCreate ≠ 0

instance (event : InotifyEvent) : Decidable event.Creates := inferInstanceAs (Decidable (_ ≠ _))

/-- The bytes of an event. The name is padded with zeros to `len` bytes. -/
def Notice.encode (notice : Notice) : List UInt8 :=
  Records.toBytes 4 notice.wd.toNat ++ (Records.toBytes 4 notice.mask.toNat ++
    (Records.toBytes 4 notice.cookie.toNat ++ (Records.toBytes 4 notice.len.toNat ++
      Framing.frame 0 notice.len.toNat notice.name)))

/-- A name has no zero and at least one zero behind it, and an event without a name has no padding.
The event of a creation has a name. -/
def Notice.WellFormed (notice : Notice) : Prop :=
  0 ∉ notice.name ∧
    (notice.name = [] ∧ notice.len = 0 ∨ notice.name ≠ [] ∧ notice.name.length < notice.len.toNat) ∧
    (notice.Creates → notice.name ≠ [])

instance (notice : Notice) : Decidable notice.WellFormed := inferInstanceAs (Decidable (_ ∧ _))

/-- The accesses that leave an array or read an entry that was never written. -/
inductive Fault where
  | index (wd : Int)
  | unset (wd : Int)
  | overflow (size : Nat)
  | overread
  deriving DecidableEq

/-- Each constructor names the next statement of `main`. -/
inductive Pc where
  | inotifyInit1
  | firstWatch
  | read
  | event (i : Nat)
  | addWatch (i : Nat)
  | returned (code : Int)
  | fault (fault : Fault)
  deriving DecidableEq

/-- The variables of `main`. The lists belong to the kernel: `watches` are the descriptors that it has handed
out, with the paths they were asked for, and `pending` are the events of the last read that the loop has not
finished. -/
structure State where
  argv : List (List UInt8)
  buf : List UInt8
  len : Int := 0
  path : List UInt8 := []
  wds : Int → Option MapWdPath := fun _ => none
  watches : List MapWdPath := []
  pending : List Notice := []
  pc : Pc := .inotifyInit1

/-- The argument `argv[1]`. -/
def State.root (state : State) : List UInt8 := state.argv.getD 1 []

/-- The functions `strcpy` and `strcat` need room for the zero behind the string. -/
def strcpy (size : Nat) (source : List UInt8) : Except Fault (List UInt8) :=
  if source.length < size then .ok source else .error (.overflow size)

def strcat (size : Nat) (dest source : List UInt8) : Except Fault (List UInt8) := strcpy size (dest ++ source)

/-- The string `wds[wd].path`. -/
def State.pathAt (state : State) (wd : Int) : Except Fault (List UInt8) :=
  if 0 ≤ wd ∧ wd < wdsLen then
    match state.wds wd with
    | some entry => .ok entry.path
    | none => .error (.unset wd)
  else .error (.index wd)

/-- The table with an entry for this descriptor. -/
def State.enter (state : State) (wd : Int) (path : List UInt8) : State :=
  { state with wds := Function.update state.wds wd (some { wd, path }) }

@[simp] theorem State.enter_wds (state : State) (wd : Int) (path : List UInt8) :
    (state.enter wd path).wds = Function.update state.wds wd (some { wd, path }) := rfl

@[simp] theorem State.enter_pending (state : State) (wd : Int) (path : List UInt8) :
    (state.enter wd path).pending = state.pending := rfl

/-- The statements `wds[wd].wd = wd` and `strcpy(wds[wd].path, path)`. -/
def State.store (state : State) (wd : Int) (path : List UInt8) : Except Fault State :=
  if 0 ≤ wd ∧ wd < wdsLen then (strcpy bufLen path).map (state.enter wd) else .error (.index wd)

/-- The 32-bit word at an offset of the buffer. -/
def State.word (state : State) (offset : Nat) : BitVec 32 :=
  BitVec.ofNat 32 (Records.ofBytes ((state.buf.drop offset).take 4))

/-- The event at `&buf[i]`. -/
def State.eventAt (state : State) (i : Nat) : Except Fault InotifyEvent :=
  if i + eventSize ≤ state.buf.length then
    .ok { wd := state.word i, mask := state.word (i + 4), cookie := state.word (i + 8), len := state.word (i + 12) }
  else .error .overread

/-- The string `event->name`. -/
def State.nameAt (state : State) (i : Nat) : Except Fault (List UInt8) :=
  let name := Framing.text 0 (state.buf.drop (i + eventSize))
  if i + eventSize + name.length < state.buf.length then .ok name else .error .overread

/-- The `printf` of the name. -/
def State.printName (state : State) (i : Nat) (event : InotifyEvent) : Except Fault Unit :=
  if event.len ≠ 0 then (state.nameAt i).map fun _ => () else .ok ()

/-- The last statement of the loop, which leaves the event behind. -/
def State.advance (state : State) (i : Nat) (event : InotifyEvent) : State :=
  { state with pending := state.pending.tail, pc := .event (i + (eventSize + event.len.toNat)) }

@[simp] theorem State.advance_wds (state : State) (i : Nat) (event : InotifyEvent) :
    (state.advance i event).wds = state.wds := rfl

@[simp] theorem State.advance_pending (state : State) (i : Nat) (event : InotifyEvent) :
    (state.advance i event).pending = state.pending.tail := rfl

/-- The string that the loop builds for `inotify_add_watch`. -/
def State.build (state : State) (i : Nat) (event : InotifyEvent) : Except Fault State := do
  let path ← strcpy pathLen (← state.pathAt event.wd.toInt)
  let path ← strcat pathLen path slash
  let path ← strcat pathLen path (← state.nameAt i)
  return { state with path, pc := .addWatch i }

/-- The body of the loop up to `inotify_add_watch`, or its end for other events. -/
def State.handle (state : State) (i : Nat) : Except Fault State := do
  let event ← state.eventAt i
  state.printName i event
  if event.Creates then state.build i event else return state.advance i event

/-- The rest of the body, after `inotify_add_watch` has returned. -/
def State.add (state : State) (i : Nat) (wd : Int) : Except Fault State :=
  if (wdsLen : Int) < wd then .ok { state with pc := .returned 0 }
  else if wd = -1 then .ok { state with pc := .returned (-1) }
  else do
    let stored ← state.store wd state.path
    let event ← state.eventAt i
    return stored.advance i event

/-- The statements between the first `inotify_add_watch` and the loop. -/
def State.addFirst (state : State) (wd : Int) : Except Fault State :=
  if wd = -1 then .ok { state with pc := .returned (-1) }
  else (state.store wd state.root).map fun stored => { stored with pc := .read }

/-- The kernel remembers which path a descriptor stands for. -/
def State.handOut (state : State) (wd : Int) (path : List UInt8) : State :=
  if wd = -1 then state else { state with watches := ⟨wd, path⟩ :: state.watches }

/-- A fault ends the run. -/
def State.outcome (state : State) : Except Fault State → State
  | .ok next => next
  | .error fault => { state with pc := .fault fault }

/-- The kernel writes its events over the start of the buffer. -/
def State.fill (state : State) (notices : List Notice) : State :=
  let content := notices.flatMap Notice.encode
  { state with
    buf := content ++ state.buf.drop content.length
    len := content.length
    pending := notices
    pc := .event 0 }

/-- The calls of `main` with their results, and the statements of the loop. A `read` without a result has
failed. -/
inductive Event where
  | inotifyInit1 (fd : Int)
  | inotifyAddWatch (wd : Int)
  | read (result : Option (List Notice))
  | body

/-- The test `i < len` and the body of the loop. -/
def State.body (state : State) : Option State :=
  match state.pc with
  | .event i => some (if (i : Int) < state.len then state.outcome (state.handle i) else { state with pc := .read })
  | _ => none

/-- The call `inotify_add_watch` and what follows it. -/
def State.inotifyAddWatch (state : State) (wd : Int) : Option State :=
  match state.pc with
  | .firstWatch =>
      let asked := state.handOut wd state.root
      some (asked.outcome (asked.addFirst wd))
  | .addWatch i =>
      let asked := state.handOut wd state.path
      some (asked.outcome (asked.add i wd))
  | _ => none

/-- One call of `main`. The test of the arguments belongs to the first one. -/
def State.step (state : State) : Event → Option State
  | .inotifyInit1 fd => if state.pc = .inotifyInit1 then some { state with
      pc := if state.argv.length ≠ numExpectedArgs ∨ fd = -1 then .returned (-1) else .firstWatch } else none
  | .inotifyAddWatch wd => state.inotifyAddWatch wd
  | .read none => if state.pc = .read then some { state with len := -1, pending := [], pc := .event 0 } else none
  | .read (some notices) => if state.pc = .read ∧ (notices.flatMap Notice.encode).length ≤ bufLen
      then some (state.fill notices) else none
  | .body => state.body

/-- The program starts with any arguments and any bytes in its buffer. -/
def watcher : Machine State Event where
  start state := ∃ argv buf, (∀ arg ∈ argv, 0 ∉ arg) ∧ buf.length = bufLen ∧ state = { argv, buf }
  step := State.step

/-- The kernel hands out increasing descriptors from one. Its events are well formed, and a creation is
reported for a descriptor that it has handed out. -/
def kernel : Guard State Event
  | state, .inotifyAddWatch wd =>
      wd = -1 ∨ (if state.watches = [] then wd = 1 else ∀ watch ∈ state.watches, watch.wd < wd)
  | state, .read (some notices) => ∀ notice ∈ notices, notice.WellFormed ∧
      (notice.Creates → ∃ watch ∈ state.watches, watch.wd = notice.wd.toInt)
  | _, _ => True

instance (state : State) (event : Event) : Decidable (kernel state event) :=
  match event with
  | .inotifyAddWatch _ => inferInstanceAs (Decidable (_ ∨ _))
  | .read (some _) => inferInstanceAs (Decidable (∀ _ ∈ _, _ ∧ _))
  | .inotifyInit1 _ | .read none | .body => inferInstanceAs (Decidable True)

end KernelStudio.Inotify
