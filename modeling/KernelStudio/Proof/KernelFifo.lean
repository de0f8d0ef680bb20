/-
This file proves that the FIFO hands out each byte once and in order, as long as the read thread and the
holder of `read_lock` do not take bytes at the same time.
-/

import KernelStudio.Construction.KernelFifo

namespace KernelStudio.KernelFifo

open RingBuffer Transition

/-- The cells that a reader has copied without advancing the index. -/
def ReadPc.held : ReadPc → Option (List Cell)
  | .advance cells _ => some cells
  | _ => none

def WritePc.held : WritePc → Option (List Cell)
  | .advance cells _ => some cells
  | _ => none

def ReadThreadPc.held : ReadThreadPc → Option (List Cell)
  | .advance cells => some cells
  | _ => none

/-- The position is between the two calls for the mutex. -/
def ReadPc.locked : ReadPc → Bool
  | .kfifoToUser _ | .advance _ _ | .mutexUnlock _ => true
  | _ => false

def WritePc.locked : WritePc → Bool
  | .kfifoFromUser _ | .advance _ _ | .mutexUnlock _ => true
  | _ => false

/-- The operation of a consumer on the FIFO that is in progress. -/
def State.consuming (state : State) : Consumer → Option (List Cell)
  | .process i => (state.reader i).held
  | .readThread => state.readThread.held

/-- The operation of a producer on the FIFO that is in progress. -/
def State.producing (state : State) (producer : Producer) : Option (List Cell) := (state.writer producer).held

/-- The cells of all completed reads. -/
def State.deliveredCells (state : State) : List Cell := state.delivered.flatMap Delivery.cells

/-- The bytes that the holder of `write_lock` has copied without advancing the index. -/
def State.pending (state : State) : List Cell := (state.writeLock.bind state.producing).getD []

/-- One consumer and one producer at most work on the FIFO. The delivered bytes and those that the FIFO still
holds are the accepted bytes, each of which has its own number. -/
structure State.Exclusive (state : State) : Prop where
  consumer : ∀ first second, state.consuming first ≠ none → state.consuming second ≠ none → first = second
  producer : ∀ first second, state.producing first ≠ none → state.producing second ≠ none → first = second
  conserved : state.deliveredCells ++ state.fifo.contents fifoSize indexRange = state.accepted
  numbered : state.accepted.map Cell.number = (List.range state.accepted.length).map some

/-- The operation of the process that holds `read_lock`. -/
def State.lockedRead (state : State) : Option (List Cell) :=
  state.readLock.bind fun i => (state.reader i).held

/-- The next statement of the reader copies bytes. -/
def ReadPc.copies : ReadPc → Bool
  | .kfifoToUser _ => true
  | _ => false

/-- The read thread does not copy while the holder of `read_lock` has copied without advancing the index,
and a process does not copy while the read thread has. -/
def uncrossed (state : State) : Event → Prop
  | .readThread => state.readThread = .kfifoOut → state.lockedRead = none
  | .read i | .faultRead i _ => (state.reader i).copies = true → state.readThread.held = none
  | _ => True

instance (state : State) (event : Event) : Decidable (uncrossed state event) := by
  unfold uncrossed
  split <;> infer_instance

section Lock

variable {Key Pc : Type} [DecidableEq Key] {lock : Option Key} {pc : Key → Pc} {locked : Pc → Bool}
  {key : Key} {next : Pc}

/-- Only the owner of a mutex is between its two calls. -/
def Guarded (lock : Option Key) (pc : Key → Pc) (locked : Pc → Bool) : Prop :=
  ∀ key, locked (pc key) = true → lock = some key

theorem Guarded.acquire (guarded : Guarded none pc locked) :
    Guarded (some key) (Function.update pc key next) locked := by
  intro other inside
  by_cases same : other = key
  · rw [same]
  · rw [Function.update_of_ne same] at inside
    exact absurd (guarded other inside) (by simp)

theorem Guarded.keep (guarded : Guarded lock pc locked) (before : locked next = true → locked (pc key) = true) :
    Guarded lock (Function.update pc key next) locked := by
  intro other inside
  by_cases same : other = key
  · rw [same, Function.update_self] at inside
    exact same ▸ guarded key (before inside)
  · rw [Function.update_of_ne same] at inside
    exact guarded other inside

theorem Guarded.release (guarded : Guarded lock pc locked) (inside : locked (pc key) = true)
    (outside : locked next = false) : Guarded none (Function.update pc key next) locked := by
  intro other locked
  by_cases same : other = key
  · rw [same, Function.update_self, outside] at locked
    contradiction
  · rw [Function.update_of_ne same] at locked
    have owner := guarded key inside
    rw [guarded other locked, Option.some.injEq] at owner
    exact absurd owner same

end Lock

/-- The FIFO carries the accepted bytes that follow the delivered ones. At most one consumer has copied bytes
without advancing the index, and these are the next ones. -/
structure Carries (fifo : Buffer Cell) (accepted pending delivered : List Cell)
    (held : Consumer → Option (List Cell)) : Prop where
  represents : Represents fifoSize indexRange fifo accepted pending delivered.length
  inOrder : delivered <+: accepted
  single : ∀ first second, held first ≠ none → held second ≠ none → first = second
  next : ∀ consumer cells, held consumer = some cells → cells <+: accepted.drop delivered.length
  numbered : (accepted ++ pending).map Cell.number = (List.range (accepted ++ pending).length).map some

namespace Carries

variable {fifo : Buffer Cell} {accepted pending delivered cells : List Cell} {held : Consumer → Option (List Cell)}
  {consumer : Consumer}

theorem divides : fifoSize ∣ indexRange := by decide

theorem small : fifoSize < indexRange := by decide

/-- A consumer copies while no other one has copied bytes. -/
theorem copyOut (carries : Carries fifo accepted pending delivered held) {length : Nat}
    (available : length ≤ fifo.used indexRange) (alone : ∀ other, other ≠ consumer → held other = none) :
    Carries fifo accepted pending delivered (Function.update held consumer (some (fifo.peek fifoSize length))) where
  represents := carries.represents
  inOrder := carries.inOrder
  single first second isFirst isSecond := by
    have only (other : Consumer)
        (copied : Function.update held consumer (some (fifo.peek fifoSize length)) other ≠ none) :
        other = consumer := by
      by_contra different
      rw [Function.update_of_ne different] at copied
      exact copied (alone other different)
    exact (only first isFirst).trans (only second isSecond).symm
  next other cells copied := by
    by_cases same : other = consumer
    · rw [same, Function.update_self, Option.some.injEq] at copied
      rw [carries.represents.used_eq small] at available
      rw [← copied, carries.represents.peek_eq divides available]
      exact List.take_prefix length _
    · rw [Function.update_of_ne same, alone other same] at copied
      contradiction
  numbered := carries.numbered

/-- A consumer that has copied bytes advances the index. -/
theorem advanceOut (carries : Carries fifo accepted pending delivered held) (copied : held consumer = some cells) :
    Carries (fifo.skip indexRange cells.length) accepted pending (delivered ++ cells)
      (Function.update held consumer none) := by
  have following : cells <+: accepted.drop delivered.length := carries.next consumer cells copied
  have available : cells.length ≤ accepted.length - delivered.length := by simpa using following.length_le
  have none_left (other : Consumer) : Function.update held consumer none other = none := by
    by_cases same : other = consumer
    · rw [same, Function.update_self]
    · rw [Function.update_of_ne same]
      by_contra kept
      exact same (carries.single other consumer kept (by simp [copied]))
  exact
    { represents := by
        rw [List.length_append]
        exact carries.represents.skip available
      inOrder := by
        obtain ⟨rest, rfl⟩ := carries.inOrder
        rw [List.drop_left] at following
        exact (List.prefix_append_right_inj delivered).mpr following
      single := fun first _ isFirst => absurd (none_left first) isFirst
      next := fun other _ kept => by simp [none_left other] at kept
      numbered := carries.numbered }

/-- A producer copies its bytes while no other one has copied bytes. -/
theorem copyIn (carries : Carries fifo accepted [] delivered held)
    (fits : cells.length ≤ fifo.unused fifoSize indexRange)
    (numbers : cells.map Cell.number = (List.range cells.length).map fun k => some (accepted.length + k)) :
    Carries (fifo.store fifoSize cells) accepted cells delivered held where
  represents := carries.represents.store divides (carries.represents.unused_eq small ▸ fits)
  inOrder := carries.inOrder
  single := carries.single
  next := carries.next
  numbered := by
    have before := carries.numbered
    rw [List.append_nil] at before
    rw [List.map_append, List.length_append, List.range_add, List.map_append, before, numbers, List.map_map]
    rfl

/-- The producer that has copied its bytes advances the index. -/
theorem advanceIn (carries : Carries fifo accepted pending delivered held) :
    Carries (fifo.push indexRange pending.length) (accepted ++ pending) [] delivered held where
  represents := carries.represents.push
  inOrder := carries.inOrder.trans (List.prefix_append accepted pending)
  single := carries.single
  next consumer cells copied := by
    have within := carries.represents.taken_le
    rw [List.drop_append_of_le_length within]
    exact (carries.next consumer cells copied).trans (List.prefix_append _ pending)
  numbered := by simpa using carries.numbered

/-- The buffer holds the accepted bytes that have not been delivered. -/
theorem conserved (carries : Carries fifo accepted pending delivered held) :
    delivered ++ fifo.contents fifoSize indexRange = accepted := by
  obtain ⟨rest, rfl⟩ := carries.inOrder
  rw [carries.represents.contents_eq divides small, List.drop_left]

end Carries

/-- Both mutexes have one owner at most, and the FIFO carries its bytes. -/
structure Ordered (state : State) : Prop where
  readers : Guarded state.readLock state.reader ReadPc.locked
  writers : Guarded state.writeLock state.writer WritePc.locked
  carries : Carries state.fifo state.accepted state.pending state.deliveredCells state.consuming

theorem ordered_initial : Ordered {} where
  readers _ inside := by simp [ReadPc.locked] at inside
  writers _ inside := by simp [WritePc.locked] at inside
  carries :=
    { represents := represents_nil _
      inOrder := List.nil_prefix
      single := fun first _ isFirst => by cases first <;> exact absurd rfl isFirst
      next := fun consumer _ copied => by
        cases consumer <;> simp [State.consuming, ReadPc.held, ReadThreadPc.held] at copied
      numbered := rfl }

section Frame

variable {state : State} {i : Nat}

theorem ReadPc.locked_of_held {pc : ReadPc} (held : pc.held ≠ none) : pc.locked = true := by
  cases pc <;> first | rfl | exact absurd rfl held

theorem WritePc.locked_of_held {pc : WritePc} (held : pc.held ≠ none) : pc.locked = true := by
  cases pc <;> first | rfl | exact absurd rfl held

theorem consuming_setReader (state : State) (i : Nat) (pc : ReadPc) :
    (state.setReader i pc).consuming = Function.update state.consuming (.process i) pc.held := by
  funext consumer
  cases consumer with
  | process j =>
      by_cases same : j = i
      · simp [State.consuming, State.setReader, same]
      · simp [State.consuming, State.setReader, same]
  | readThread => simp [State.consuming, State.setReader]

theorem consuming_readThread (state : State) (pc : ReadThreadPc) :
    ({ state with readThread := pc } : State).consuming = Function.update state.consuming .readThread pc.held := by
  funext consumer
  cases consumer <;> simp [State.consuming]

/-- A reader that neither copies nor advances the index leaves the operations in progress. -/
theorem consuming_setReader_self (pc : ReadPc) (same : pc.held = (state.reader i).held) :
    (state.setReader i pc).consuming = state.consuming := by
  rw [consuming_setReader, same]
  exact Function.update_eq_self (Consumer.process i) state.consuming

theorem consuming_readThread_self (pc : ReadThreadPc) (same : pc.held = state.readThread.held) :
    ({ state with readThread := pc } : State).consuming = state.consuming := by
  rw [consuming_readThread, same]
  exact Function.update_eq_self Consumer.readThread state.consuming

theorem deliveredCells_advanceOut (state : State) (consumer : Consumer) (cells : List Cell) :
    (state.advanceOut consumer cells).deliveredCells = state.deliveredCells ++ cells := by
  simp [State.deliveredCells, State.advanceOut]

/-- A writer that neither copies nor advances the index leaves the operations in progress. -/
theorem producing_setWriter_self (state : State) (producer : Producer) (pc : WritePc)
    (same : pc.held = (state.writer producer).held) :
    (state.setWriter producer pc).producing = state.producing := by
  funext other
  by_cases equal : other = producer
  · simp [State.producing, State.setWriter, equal, same]
  · simp [State.producing, State.setWriter, equal]

end Frame

section Step

variable {state next : State} {i : Nat} {producer : Producer}

/-- A reader moves without touching the FIFO. -/
theorem Ordered.reader (ordered : Ordered state) (lock : Option Nat) (pc : ReadPc)
    (readers : Guarded lock (Function.update state.reader i pc) ReadPc.locked)
    (same : pc.held = (state.reader i).held) : Ordered { state.setReader i pc with readLock := lock } where
  readers := readers
  writers := ordered.writers
  carries := by
    have held : (state.setReader i pc).consuming = state.consuming := consuming_setReader_self pc same
    exact held ▸ ordered.carries

/-- A writer moves without touching the FIFO. -/
theorem Ordered.writer (ordered : Ordered state) (lock : Option Producer) (pc : WritePc)
    (writers : Guarded lock (Function.update state.writer producer pc) WritePc.locked)
    (same : ({ state.setWriter producer pc with writeLock := lock } : State).pending = state.pending) :
    Ordered { state.setWriter producer pc with writeLock := lock } where
  readers := ordered.readers
  writers := writers
  carries := by
    have carries := ordered.carries
    rw [← same] at carries
    exact carries

/-- The read thread moves without touching the FIFO. -/
theorem Ordered.thread (ordered : Ordered state) (pc : ReadThreadPc) (same : pc.held = state.readThread.held) :
    Ordered { state with readThread := pc } where
  readers := ordered.readers
  writers := ordered.writers
  carries := by
    have held : ({ state with readThread := pc } : State).consuming = state.consuming :=
      consuming_readThread_self pc same
    exact held ▸ ordered.carries

/-- The owner of `read_lock` is the only process that can have copied bytes. -/
theorem Ordered.held_eq_none (ordered : Ordered state) {j : Nat} (inside : (state.reader i).locked = true)
    (other : j ≠ i) : (state.reader j).held = none := by
  by_contra copied
  have owner : state.readLock = some j := ordered.readers j (ReadPc.locked_of_held copied)
  rw [ordered.readers i inside, Option.some.injEq] at owner
  exact other owner.symm

/-- A process copies bytes while the read thread has not. -/
theorem Ordered.copyOut (ordered : Ordered state) {count length : Nat} {ret : Int}
    (position : state.reader i = .kfifoToUser count) (available : length ≤ state.fifo.used indexRange)
    (clear : state.readThread.held = none) :
    Ordered (state.setReader i (.advance (state.copyOut length) ret)) where
  readers := ordered.readers.keep fun _ => by rw [position]; rfl
  writers := ordered.writers
  carries := by
    have inside : (state.reader i).locked = true := by rw [position]; rfl
    rw [consuming_setReader]
    refine ordered.carries.copyOut available fun other different => ?_
    cases other with
    | process j => exact ordered.held_eq_none inside fun same => different (same ▸ rfl)
    | readThread => exact clear

theorem ordered_fifoRead (ordered : Ordered state) (clear : uncrossed state (.read i))
    (taken : state.fifoRead i = some next) : Ordered next := by
  unfold State.fifoRead at taken
  cases position : state.reader i with
  | idle => simp [position] at taken
  | returned value => simp [position] at taken
  | mutexLock count =>
      simp only [position, Option.ite_none_right_eq_some, Option.some.injEq] at taken
      obtain ⟨unlocked, rfl⟩ := taken
      exact ordered.reader (some i) _ (Guarded.acquire (unlocked ▸ ordered.readers)) (by rw [position]; rfl)
  | kfifoToUser count =>
      simp only [position, Option.some.injEq] at taken
      subst taken
      exact ordered.copyOut position (Nat.min_le_right _ _) (clear (by rw [position]; rfl))
  | advance cells ret =>
      simp only [position, Option.some.injEq] at taken
      subst taken
      have copied : state.consuming (.process i) = some cells := by simp [State.consuming, position, ReadPc.held]
      refine ⟨ordered.readers.keep fun _ => by rw [position]; rfl, ordered.writers, ?_⟩
      have held : (state.setReader i (.mutexUnlock (result ret cells.length))).consuming =
          Function.update state.consuming (.process i) none := consuming_setReader state i _
      have carries := ordered.carries.advanceOut copied
      rw [← held] at carries
      rw [deliveredCells_advanceOut]
      exact carries
  | mutexUnlock value =>
      simp only [position, Option.some.injEq] at taken
      subst taken
      exact ordered.reader none _ (ordered.readers.release (by rw [position]; rfl) rfl) (by rw [position]; rfl)

theorem ordered_faultRead {transferred : Nat} (ordered : Ordered state)
    (clear : uncrossed state (.faultRead i transferred)) (taken : state.faultRead i transferred = some next) :
    Ordered next := by
  unfold State.faultRead at taken
  split at taken
  case h_2 => contradiction
  case h_1 count position =>
    simp only [Option.ite_none_right_eq_some, Option.some.injEq] at taken
    obtain ⟨short, rfl⟩ := taken
    have available : transferred ≤ state.fifo.used indexRange :=
      Nat.le_trans (Nat.le_of_lt short) (Nat.min_le_right _ _)
    exact ordered.copyOut position available (clear (by rw [position]; rfl))

/-- The read thread copies bytes while no process has. -/
theorem ordered_readThreadFn (ordered : Ordered state) (clear : uncrossed state .readThread)
    (taken : state.readThreadFn = some next) : Ordered next := by
  unfold State.readThreadFn at taken
  cases position : state.readThread with
  | kthread | kthreadShouldStop =>
      simp only [position, Option.some.injEq] at taken
      subst taken
      exact ordered.thread _ (by rw [position]; split <;> rfl)
  | schedule =>
      simp only [position, Option.some.injEq] at taken
      subst taken
      exact ordered.thread _ (by rw [position]; rfl)
  | returned status => simp [position] at taken
  | kfifoOut =>
      simp only [position, Option.some.injEq] at taken
      subst taken
      refine ⟨ordered.readers, ordered.writers, ?_⟩
      rw [consuming_readThread]
      refine ordered.carries.copyOut (Nat.min_le_right _ _) fun other different => ?_
      cases other with
      | readThread => exact absurd rfl different
      | process j =>
          by_contra copied
          have owner := ordered.readers j (ReadPc.locked_of_held copied)
          have none_held : state.lockedRead = none := clear position
          rw [State.lockedRead, owner, Option.bind_some] at none_held
          exact copied none_held
  | advance cells =>
      simp only [position, Option.some.injEq] at taken
      subst taken
      have copied : state.consuming .readThread = some cells := by
        simp [State.consuming, position, ReadThreadPc.held]
      refine ⟨ordered.readers, ordered.writers, ?_⟩
      have held : ({ state with readThread := .schedule } : State).consuming =
          Function.update state.consuming .readThread none := consuming_readThread state .schedule
      have carries := ordered.carries.advanceOut copied
      rw [← held] at carries
      rw [deliveredCells_advanceOut]
      exact carries

/-- The bytes that are copied while one producer works. -/
theorem pending_of_owner (owner : state.writeLock = some producer) :
    state.pending = (state.producing producer).getD [] := by
  rw [State.pending, owner, Option.bind_some]

/-- A producer copies its bytes. -/
theorem Ordered.written (ordered : Ordered state) {bytes short : List UInt8} {ret : Int}
    (position : state.writer producer = .kfifoFromUser bytes)
    (fits : short.length ≤ state.fifo.unused fifoSize indexRange) :
    Ordered (state.written producer short ret) where
  readers := ordered.readers
  writers := ordered.writers.keep fun _ => by rw [position]; rfl
  carries := by
    have owner : state.writeLock = some producer := ordered.writers producer (by rw [position]; rfl)
    have before : state.pending = [] := by
      rw [pending_of_owner owner, State.producing, position]
      rfl
    have after : (state.written producer short ret).pending = state.copyIn short := by
      simp [State.pending, State.producing, State.written, State.setWriter, WritePc.held, owner]
    have length : (state.copyIn short).length = short.length := by simp [State.copyIn]
    have numbers : (state.copyIn short).map Cell.number =
        (List.range (state.copyIn short).length).map fun k => some (state.accepted.length + k) := by
      rw [length]
      refine List.ext_getElem? fun k => ?_
      by_cases inside : k < short.length
      · simp [State.copyIn, inside]
      · simp [State.copyIn, inside]
    rw [after]
    exact (before ▸ ordered.carries).copyIn (length ▸ fits) numbers

theorem ordered_fifoWrite (ordered : Ordered state) (taken : state.fifoWrite producer = some next) :
    Ordered next := by
  unfold State.fifoWrite at taken
  cases position : state.writer producer with
  | idle => simp [position] at taken
  | returned value => simp [position] at taken
  | mutexLock bytes =>
      simp only [position, Option.ite_none_right_eq_some, Option.some.injEq] at taken
      obtain ⟨unlocked, rfl⟩ := taken
      refine ordered.writer (some producer) _ (Guarded.acquire (unlocked ▸ ordered.writers)) ?_
      simp [State.pending, State.producing, State.setWriter, WritePc.held, unlocked]
  | kfifoFromUser bytes =>
      simp only [position, Option.some.injEq] at taken
      subst taken
      refine ordered.written position ?_
      rw [List.length_take]
      exact Nat.le_trans (Nat.min_le_left _ _) (Nat.min_le_right _ _)
  | advance cells ret =>
      simp only [position, Option.some.injEq] at taken
      subst taken
      have owner : state.writeLock = some producer := ordered.writers producer (by rw [position]; rfl)
      have before : state.pending = cells := by
        rw [pending_of_owner owner, State.producing, position]
        rfl
      refine ⟨ordered.readers, ordered.writers.keep fun _ => by rw [position]; rfl, ?_⟩
      have after :
          ((state.setWriter producer (.mutexUnlock (result ret cells.length))).advanceIn cells).pending = [] := by
        simp [State.pending, State.producing, State.advanceIn, State.setWriter, WritePc.held, owner]
      rw [after]
      exact (before ▸ ordered.carries).advanceIn
  | mutexUnlock value =>
      simp only [position, Option.some.injEq] at taken
      subst taken
      have owner : state.writeLock = some producer := ordered.writers producer (by rw [position]; rfl)
      refine ordered.writer none _ (ordered.writers.release (by rw [position]; rfl) rfl) ?_
      rw [pending_of_owner owner, State.producing, position]
      rfl

theorem ordered_faultWrite {transferred : Nat} (ordered : Ordered state)
    (taken : state.faultWrite producer transferred = some next) : Ordered next := by
  unfold State.faultWrite at taken
  split at taken
  case h_2 => contradiction
  case h_1 bytes position =>
    simp only [Option.ite_none_right_eq_some, Option.some.injEq] at taken
    obtain ⟨short, rfl⟩ := taken
    refine ordered.written position ?_
    rw [List.length_take]
    exact Nat.le_trans (Nat.min_le_left _ _) (Nat.le_trans (Nat.le_of_lt short) (Nat.min_le_right _ _))

/-- A caller outside the mutex moves to another position outside it. -/
theorem Ordered.outside (ordered : Ordered state) (pc : WritePc) (kept : pc.locked = false)
    (before : (state.writer producer).locked = false) : Ordered (state.setWriter producer pc) := by
  refine ordered.writer state.writeLock pc (ordered.writers.keep fun inside => by simp [kept] at inside) ?_
  have none_of {pc : WritePc} (outside : pc.locked = false) : pc.held = none := by
    by_contra copied
    rw [WritePc.locked_of_held copied] at outside
    contradiction
  have same := producing_setWriter_self state producer pc ((none_of kept).trans (none_of before).symm)
  rw [State.pending, State.pending]
  exact congrArg (fun producing => (state.writeLock.bind producing).getD []) same

theorem ordered_writeThreadFn (ordered : Ordered state) (taken : state.writeThreadFn = some next) :
    Ordered next := by
  unfold State.writeThreadFn at taken
  split at taken
  case h_3 =>
    split at taken
    case h_1 idle =>
      simp only [Option.some.injEq] at taken
      subst taken
      exact ordered.outside _ rfl (by rw [idle]; rfl)
    case h_2 =>
      simp only [Option.some.injEq] at taken
      subst taken
      exact ⟨ordered.readers, ordered.writers, ordered.carries⟩
    case h_3 => contradiction
  case h_7 | h_8 => contradiction
  all_goals
    simp only [Option.some.injEq] at taken
    subst taken
    exact ⟨ordered.readers, ordered.writers, ordered.carries⟩

/-- Each label keeps the invariant unless it crosses the operation of another consumer. -/
theorem ordered_step {event : Event} (ordered : Ordered state) (clear : uncrossed state event)
    (taken : state.step event = some next) : Ordered next := by
  cases event with
  | readThread => exact ordered_readThreadFn ordered clear taken
  | writeThread => exact ordered_writeThreadFn ordered taken
  | read i => exact ordered_fifoRead ordered clear taken
  | faultRead i transferred => exact ordered_faultRead ordered clear taken
  | write producer => exact ordered_fifoWrite ordered taken
  | faultWrite producer transferred => exact ordered_faultWrite ordered taken
  | filpOpenFails =>
      simp only [State.step, State.filpOpenFails] at taken
      split at taken
      case h_2 => contradiction
      obtain rfl := Option.some.inj taken
      exact ⟨ordered.readers, ordered.writers, ordered.carries⟩
  | stopRead | stopWrite =>
      obtain rfl := Option.some.inj taken
      exact ⟨ordered.readers, ordered.writers, ordered.carries⟩
  | callRead i count =>
      simp only [State.step] at taken
      split at taken
      case h_3 => contradiction
      all_goals
        rename_i position
        obtain rfl := Option.some.inj taken
        exact ordered.reader state.readLock _ (ordered.readers.keep fun inside => by simp [ReadPc.locked] at inside)
          (by rw [position]; rfl)
  | signalRead i =>
      simp only [State.step] at taken
      split at taken
      case h_2 => contradiction
      rename_i position
      obtain rfl := Option.some.inj taken
      exact ordered.reader state.readLock _ (ordered.readers.keep fun inside => by simp [ReadPc.locked] at inside)
        (by rw [position]; rfl)
  | callWrite i bytes =>
      simp only [State.step] at taken
      split at taken
      case h_3 => contradiction
      all_goals
        rename_i position
        obtain rfl := Option.some.inj taken
        exact ordered.outside _ rfl (by rw [position]; rfl)
  | signalWrite i =>
      simp only [State.step] at taken
      split at taken
      case h_2 => contradiction
      rename_i position
      obtain rfl := Option.some.inj taken
      exact ordered.outside _ rfl (by rw [position]; rfl)

end Step

/-- The invariant holds in each run without crossed reads. -/
theorem ordered_reached {state : State} (reached : kernelFifo.Reaches uncrossed state) : Ordered state := by
  refine reached.invariant Ordered ?_ fun _ _ _ _ ordered clear taken => ordered_step ordered clear taken
  rintro _ rfl
  exact ordered_initial

/-- As long as the read thread and the holder of `read_lock` do not copy bytes in the midst of each other's
operation, any number of processes and both threads use the FIFO one by one and lose no byte. -/
theorem fifo_exclusive {state : State} (reached : kernelFifo.Reaches uncrossed state) : state.Exclusive where
  consumer := (ordered_reached reached).carries.single
  producer first second isFirst isSecond := by
    have writers := (ordered_reached reached).writers
    have owner := writers first (WritePc.locked_of_held isFirst)
    rw [writers second (WritePc.locked_of_held isSecond), Option.some.injEq] at owner
    exact owner.symm
  conserved := (ordered_reached reached).carries.conserved
  numbered := by
    have numbered := (ordered_reached reached).carries.numbered
    rw [List.map_append, List.length_append, List.range_add, List.map_append] at numbered
    exact List.append_inj_left numbered (by simp)

/-- The write thread writes its text. A process reads five bytes of it, and the read thread takes the others. -/
def sharedTextEvents : List Event :=
  List.flatten [List.replicate 3 .writeThread, List.replicate 4 (.write .writeThread),
    List.replicate 2 .readThread, [.callRead 0 5], List.replicate 4 (.read 0), List.replicate 2 .readThread]

theorem fifo_exclusive_pair : ∃ state, kernelFifo.Reaches uncrossed state ∧
    state.delivered.map (fun delivery => (delivery.consumer, delivery.cells.map Cell.byte)) =
      [(.process 0, writeIntoFifo.take 5), (.readThread, writeIntoFifo.drop 5)] ∧ state.Exclusive := by
  have initial : kernelFifo.start {} := rfl
  have admitted : kernelFifo.admits uncrossed {} sharedTextEvents = true := by decide +kernel
  have executed : (kernelFifo.execute {} sharedTextEvents).map
      (fun state => state.delivered.map fun delivery => (delivery.consumer, delivery.cells.map Cell.byte)) =
      some [(.process 0, writeIntoFifo.take 5), (.readThread, writeIntoFifo.drop 5)] := by decide +kernel
  obtain ⟨state, reached, shown⟩ := Machine.admits_shows initial sharedTextEvents admitted _ executed
  exact ⟨state, reached, shown, fifo_exclusive reached⟩

/-- A process writes one byte. The read thread and another process both copy it. -/
def crossedEvents : List Event :=
  List.flatten [[.callWrite 0 [7]], List.replicate 4 (.write (.process 0)), List.replicate 3 .readThread,
    [.callRead 1 1, .read 1, .read 1]]

/-- The read thread and the holder of `read_lock` work on the FIFO together, and both deliver the same byte. -/
theorem fifo_crossed :
    (∃ state, kernelFifo.Reachable state ∧ state.consuming .readThread ≠ none ∧
      state.consuming (.process 1) ≠ none ∧ ¬ state.Exclusive) ∧
    ∃ state, kernelFifo.Reachable state ∧ state.accepted = [⟨7, some 0⟩] ∧
      state.delivered = [⟨.readThread, [⟨7, some 0⟩]⟩, ⟨.process 1, [⟨7, some 0⟩]⟩] ∧ ¬ state.Exclusive := by
  have initial : kernelFifo.start {} := rfl
  have crossed : (kernelFifo.execute {} crossedEvents).map
      (fun state => ((state.consuming .readThread).isSome, (state.consuming (.process 1)).isSome)) =
      some (true, true) := by decide +kernel
  have twice : (kernelFifo.execute {} (crossedEvents ++ [.readThread, .read 1])).map
      (fun state => (state.accepted, state.delivered)) =
      some ([⟨7, some 0⟩], [⟨.readThread, [⟨7, some 0⟩]⟩, ⟨.process 1, [⟨7, some 0⟩]⟩]) := by decide +kernel
  obtain ⟨first, reachedFirst, shownFirst⟩ := Machine.execute_shows initial crossedEvents _ crossed
  obtain ⟨second, reachedSecond, shownSecond⟩ := Machine.execute_shows initial _ _ twice
  simp only [Prod.mk.injEq, Option.isSome_iff_ne_none] at shownFirst shownSecond
  refine ⟨⟨first, reachedFirst, shownFirst.1, shownFirst.2, fun exclusive => ?_⟩,
    second, reachedSecond, shownSecond.1, shownSecond.2, fun exclusive => ?_⟩
  · have same := exclusive.consumer _ _ shownFirst.1 shownFirst.2
    exact absurd same (by decide)
  · have lengths := congrArg List.length exclusive.conserved
    have both : second.deliveredCells.length = 2 := by rw [State.deliveredCells, shownSecond.2]; rfl
    rw [List.length_append, both, shownSecond.1, List.length_singleton] at lengths
    omega

/-- Each crossed read leaves two consumers at work. -/
theorem crossed_shares {state next : State} {event : Event} (crossed : ¬ uncrossed state event)
    (taken : state.step event = some next) : ¬ next.Exclusive := by
  have shares (i : Nat) (process : next.consuming (.process i) ≠ none) (thread : next.consuming .readThread ≠ none) :
      ¬ next.Exclusive := by
    intro exclusive
    have same := exclusive.consumer _ _ process thread
    contradiction
  cases event with
  | readThread =>
      obtain ⟨position, busy⟩ : state.readThread = .kfifoOut ∧ state.lockedRead ≠ none := by
        simpa [uncrossed] using crossed
      obtain ⟨i, owner, copied⟩ : ∃ i, state.readLock = some i ∧ (state.reader i).held ≠ none := by
        cases owner : state.readLock with
        | none => simp [State.lockedRead, owner] at busy
        | some i => exact ⟨i, rfl, by simpa [State.lockedRead, owner] using busy⟩
      simp only [State.step, State.readThreadFn, position, Option.some.injEq] at taken
      subst taken
      exact shares i copied (by simp [State.consuming, ReadThreadPc.held])
  | read i =>
      obtain ⟨copies, busy⟩ : (state.reader i).copies = true ∧ state.readThread.held ≠ none := by
        simpa [uncrossed] using crossed
      cases position : state.reader i with
      | kfifoToUser count =>
          simp only [State.step, State.fifoRead, position, Option.some.injEq] at taken
          subst taken
          exact shares i (by simp [State.consuming, State.setReader, ReadPc.held]) busy
      | idle | mutexLock _ | advance _ _ | mutexUnlock _ | returned _ => simp [position, ReadPc.copies] at copies
  | faultRead i transferred =>
      obtain ⟨copies, busy⟩ : (state.reader i).copies = true ∧ state.readThread.held ≠ none := by
        simpa [uncrossed] using crossed
      simp only [State.step, State.faultRead] at taken
      split at taken
      · simp only [Option.ite_none_right_eq_some, Option.some.injEq] at taken
        obtain ⟨_, rfl⟩ := taken
        exact shares i (by simp [State.consuming, State.setReader, ReadPc.held]) busy
      · contradiction
  | _ => exact absurd trivial crossed

end KernelStudio.KernelFifo
